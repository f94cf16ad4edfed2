import LempStack.SdsStrings
import Mathlib.Data.Nat.Digits.Defs
import Mathlib.Tactic.Ring
import Mathlib.Tactic.NormNum

/-! Numbers of the Valkey server as texts, after `util.c`: `ll2string` writes a number two
digits at a time from the end of a buffer it has sized with `digits10`, `string2ll` reads
one, and `memtoull` reads an amount of memory with its unit. A `long long` is an integer
within its bounds, an `unsigned long long` a natural number below `2 ^ 64`. -/

namespace LempStack.ValkeyNumbers
open SdsStrings

def ullongMax : ℕ := 18446744073709551615

def llongMax : ℤ := 9223372036854775807

def llongMin : ℤ := -9223372036854775808

def isdigit (b : UInt8) : Bool := decide (byte '0' ≤ b) && decide (b ≤ byte '9')

def digit (d : ℕ) : UInt8 := UInt8.ofNat (0x30 + d)

def digitValue (b : UInt8) : ℕ := b.toNat - 0x30

def decimal (n : ℕ) : Bytes := (Nat.toDigits 10 n).map byte

def signedDecimal (v : ℤ) : Bytes :=
  if v < 0 then byte '-' :: decimal v.natAbs else decimal v.natAbs

section Writing

def digits10 (v : ℕ) : ℕ :=
  if v < 10 then 1
  else if v < 100 then 2
  else if v < 1000 then 3
  else if v < 1000000000000 then
    if v < 100000000 then
      if v < 1000000 then
        if v < 10000 then 4 else 5 + (if 100000 ≤ v then 1 else 0)
      else 7 + (if 10000000 ≤ v then 1 else 0)
    else if v < 10000000000 then 9 + (if 1000000000 ≤ v then 1 else 0)
    else 11 + (if 100000000000 ≤ v then 1 else 0)
  else 12 + digits10 (v / 1000000000000)
termination_by v
decreasing_by omega

def digitPairs : Bytes :=
  bytes "0001020304050607080910111213141516171819" ++
  bytes "2021222324252627282930313233343536373839" ++
  bytes "4041424344454647484950515253545556575859" ++
  bytes "6061626364656667686970717273747576777879" ++
  bytes "8081828384858687888990919293949596979899"

def fillDigits (dst : Bytes) (next value : ℕ) : Bytes :=
  if 100 ≤ value then
    let i := value % 100 * 2
    fillDigits ((dst.set next (digitPairs.getD (i + 1) 0)).set (next - 1) (digitPairs.getD i 0))
      (next - 2) (value / 100)
  else if value < 10 then dst.set next (digit value)
  else
    let i := value * 2
    (dst.set next (digitPairs.getD (i + 1) 0)).set (next - 1) (digitPairs.getD i 0)
termination_by value
decreasing_by omega

/-- The text written to a buffer of `dstlen` bytes, which has to end it with a NUL; none
when there is not enough room. -/
def ull2string (dstlen value : ℕ) : Option Bytes :=
  let length := digits10 value
  if dstlen ≤ length then none
  else some (fillDigits (List.replicate length 0) (length - 1) value)

def ll2string (dstlen : ℕ) (svalue : ℤ) : Option Bytes :=
  if svalue < 0 then
    if dstlen < 2 then none
    else (ull2string (dstlen - 1) svalue.natAbs).map (byte '-' :: ·)
  else ull2string dstlen svalue.natAbs

end Writing

section Reading

def readDigits (v : ℕ) : Bytes → Option (ℕ × Bytes)
  | [] => some (v, [])
  | b :: rest =>
    if isdigit b then
      if ullongMax / 10 < v then none
      else if ullongMax - digitValue b < v * 10 then none
      else readDigits (v * 10 + digitValue b) rest
    else some (v, b :: rest)

/-- The number without its sign: not begun by a nought, and used to its last byte. -/
def readNumber : Bytes → Option ℕ
  | [] => none
  | b :: rest =>
    if byte '1' ≤ b ∧ b ≤ byte '9' then
      match readDigits (digitValue b) rest with
      | some (v, []) => some v
      | _ => none
    else none

def string2ll (s : Bytes) : Option ℤ :=
  if s = [] ∨ 21 ≤ s.length then none
  else if s = [byte '0'] then some 0
  else
    match s with
    | [] => none
    | b :: rest =>
      if b = byte '-' then
        match readNumber rest with
        | some v => if 9223372036854775808 < v then none else some (-v)
        | none => none
      else
        match readNumber (b :: rest) with
        | some v => if llongMax < v then none else some v
        | none => none

def digitsValue (base v : ℕ) (ds : Bytes) : ℕ := ds.foldl (fun v b => v * base + digitValue b) v

/-- What `strtoll` returns, with where it stopped and whether it was out of range. -/
structure Parsed where
  value : ℤ
  rest : Bytes
  erange : Bool
  deriving DecidableEq, Repr

def readSign : Bytes → Bool × Bytes
  | [] => (false, [])
  | b :: rest =>
    if b = byte '-' then (true, rest)
    else if b = byte '+' then (false, rest)
    else (false, b :: rest)

def inBase (base : ℕ) (b : UInt8) : Bool := isdigit b && decide (digitValue b < base)

def strtoll (base : ℕ) (s : Bytes) : Parsed :=
  let (negative, q) := readSign ((cString s).dropWhile isspace)
  let ds := q.takeWhile (inBase base)
  let rest := q.dropWhile (inBase base)
  let n : ℤ := digitsValue base 0 ds
  let v := if negative then -n else n
  if ds = [] then ⟨0, cString s, false⟩
  else if llongMax < v then ⟨llongMax, rest, true⟩
  else if v < llongMin then ⟨llongMin, rest, true⟩
  else ⟨v, rest, false⟩

def unitOf (u : Bytes) : Option ℕ :=
  if u = [] ∨ sameCaseless u (bytes "b") then some 1
  else if sameCaseless u (bytes "k") then some 1000
  else if sameCaseless u (bytes "kb") then some 1024
  else if sameCaseless u (bytes "m") then some (1000 * 1000)
  else if sameCaseless u (bytes "mb") then some (1024 * 1024)
  else if sameCaseless u (bytes "g") then some (1000 * 1000 * 1000)
  else if sameCaseless u (bytes "gb") then some (1024 * 1024 * 1024)
  else none

/-- An amount of memory. The digits may be none, `strtoull` stops at its greatest value,
and the product wraps around. -/
def memtoull (s : Bytes) : Option ℕ :=
  let p := cString s
  if p.head? = some (byte '-') then none
  else
    match unitOf (p.dropWhile isdigit) with
    | none => none
    | some mul =>
      if 128 ≤ (p.takeWhile isdigit).length then none
      else some (min (digitsValue 10 0 (p.takeWhile isdigit)) ullongMax * mul % 2 ^ 64)

/-- `rewriteConfigFormatMemory`, which takes the amount for a `long long`. -/
def formatMemory (amount : ℤ) : Bytes :=
  if amount ≠ 0 ∧ amount.tmod (1024 * 1024 * 1024) = 0 then
    signedDecimal (amount.tdiv (1024 * 1024 * 1024)) ++ bytes "gb"
  else if amount ≠ 0 ∧ amount.tmod (1024 * 1024) = 0 then
    signedDecimal (amount.tdiv (1024 * 1024)) ++ bytes "mb"
  else if amount ≠ 0 ∧ amount.tmod 1024 = 0 then signedDecimal (amount.tdiv 1024) ++ bytes "kb"
  else signedDecimal amount

end Reading

section Decimal

theorem byte_digitChar {d : ℕ} (small : d < 10) : byte (Nat.digitChar d) = digit d := by
  have all : ∀ d : Fin 10, byte (Nat.digitChar d) = digit d := by decide
  exact all ⟨d, small⟩

theorem digit_facts {d : ℕ} (small : d < 10) :
    isdigit (digit d) = true ∧ digitValue (digit d) = d := by
  have all : ∀ d : Fin 10, isdigit (digit d) = true ∧ digitValue (digit d) = d := by decide
  exact all ⟨d, small⟩

theorem digit_digitValue {b : UInt8} (h : isdigit b = true) :
    digitValue b < 10 ∧ digit (digitValue b) = b := by
  simp only [isdigit, Bool.and_eq_true, decide_eq_true_eq, UInt8.le_iff_toNat_le] at h
  have low : (byte '0').toNat = 0x30 := rfl
  have high : (byte '9').toNat = 0x39 := rfl
  rw [low, high] at h
  refine ⟨by unfold digitValue; omega, ?_⟩
  have whole : 0x30 + digitValue b = b.toNat := by unfold digitValue; omega
  rw [digit, whole]
  exact UInt8.ofNat_toNat

theorem decimal_small {n : ℕ} (small : n < 10) : decimal n = [digit n] := by
  rw [decimal, Nat.toDigits_of_lt_base small, List.map_singleton, byte_digitChar small]

theorem decimal_append {n d : ℕ} (positive : 0 < n) (small : d < 10) :
    decimal (n * 10 + d) = decimal n ++ [digit d] := by
  rw [decimal, Nat.mul_comm, ← Nat.toDigits_append_toDigits (by decide) positive small,
    List.map_append, Nat.toDigits_of_lt_base small, List.map_singleton, byte_digitChar small,
    decimal]

theorem decimal_length_le_iff {n k : ℕ} (positive : 0 < k) :
    (decimal n).length ≤ k ↔ n < 10 ^ k := by
  rw [decimal, List.length_map, Nat.length_toDigits_le_iff (by decide) positive]

theorem decimal_length_pos (n : ℕ) : 0 < (decimal n).length := by
  rw [decimal, List.length_map]
  exact Nat.length_toDigits_pos

theorem decimal_length {n k : ℕ} (above : 10 ^ k ≤ n) (below : n < 10 ^ (k + 1)) :
    (decimal n).length = k + 1 := by
  have upper := (decimal_length_le_iff (Nat.succ_pos k)).mpr below
  rcases Nat.eq_zero_or_pos k with rfl | positive
  · have := decimal_length_pos n
    omega
  · have lower := mt (decimal_length_le_iff positive).mp (Nat.not_lt.mpr above)
    omega

theorem decimal_bounds {n : ℕ} (positive : 0 < n) :
    ∃ k, (decimal n).length = k + 1 ∧ 10 ^ k ≤ n ∧ n < 10 ^ (k + 1) := by
  obtain ⟨k, len⟩ := Nat.exists_eq_succ_of_ne_zero (decimal_length_pos n).ne'
  refine ⟨k, len, ?_, (decimal_length_le_iff (Nat.succ_pos k)).mp len.le⟩
  rcases Nat.eq_zero_or_pos k with rfl | more
  · exact positive
  · exact Nat.not_lt.mp fun less => by
      have := (decimal_length_le_iff more).mpr less
      omega

theorem digits10_eq (v : ℕ) : digits10 v = (decimal v).length := by
  fun_induction digits10 v with
  | case1 v h1 => rw [decimal_small h1, List.length_singleton]
  | case2 v h1 h2 => rw [decimal_length (k := 1) (by omega) (by omega)]
  | case3 v h1 h2 h3 => rw [decimal_length (k := 2) (by omega) (by omega)]
  | case4 v h1 h2 h3 h4 h5 h6 h7 => rw [decimal_length (k := 3) (by omega) (by omega)]
  | case5 v h1 h2 h3 h4 h5 h6 h7 =>
    split_ifs with more
    · rw [decimal_length (k := 5) (by omega) (by omega)]
    · rw [decimal_length (k := 4) (by omega) (by omega)]
  | case6 v h1 h2 h3 h4 h5 h6 =>
    split_ifs with more
    · rw [decimal_length (k := 7) (by omega) (by omega)]
    · rw [decimal_length (k := 6) (by omega) (by omega)]
  | case7 v h1 h2 h3 h4 h5 h6 =>
    split_ifs with more
    · rw [decimal_length (k := 9) (by omega) (by omega)]
    · rw [decimal_length (k := 8) (by omega) (by omega)]
  | case8 v h1 h2 h3 h4 h5 h6 =>
    split_ifs with more
    · rw [decimal_length (k := 11) (by omega) (by omega)]
    · rw [decimal_length (k := 10) (by omega) (by omega)]
  | case9 v h1 h2 h3 h4 ih =>
    -- dividing by `10 ^ 12` takes twelve digits off
    obtain ⟨k, len, above, below⟩ := decimal_bounds (n := v / 1000000000000) (by omega)
    have lower : 10 ^ (k + 12) ≤ v := by
      rw [pow_add]
      omega
    have upper : v < 10 ^ (k + 12 + 1) := by
      rw [show k + 12 + 1 = k + 1 + 12 by omega, pow_add]
      omega
    rw [ih, len, decimal_length lower upper]
    omega

end Decimal

section Buffer

theorem digitPairs_get {k : ℕ} (small : k < 100) :
    digitPairs.getD (k * 2) 0 = digit (k / 10) ∧
      digitPairs.getD (k * 2 + 1) 0 = digit (k % 10) := by
  have all : ∀ k : Fin 100, digitPairs.getD (k * 2) 0 = digit (k / 10) ∧
      digitPairs.getD (k * 2 + 1) 0 = digit (k % 10) := by decide +kernel
  exact all ⟨k, small⟩

theorem drop_set_pair {dst : Bytes} {next : ℕ} (a b : UInt8) (two : 1 ≤ next)
    (room : next < dst.length) :
    ((dst.set next a).set (next - 1) b).drop (next - 1) = b :: a :: dst.drop (next + 1) := by
  obtain ⟨m, rfl⟩ := Nat.exists_eq_add_of_le' two
  rw [Nat.add_sub_cancel, List.drop_eq_getElem_cons (by simp; omega), List.getElem_set_self,
    List.drop_set_of_lt (by omega), List.drop_eq_getElem_cons (by simp; omega),
    List.getElem_set_self, List.drop_set_of_lt (by omega)]

theorem decimal_pair {v : ℕ} (large : 100 ≤ v) :
    decimal v = decimal (v / 100) ++ [digit (v % 100 / 10), digit (v % 100 % 10)] := by
  have outer : v / 10 * 10 + v % 10 = v := by omega
  have inner : v / 100 * 10 + v / 10 % 10 = v / 10 := by omega
  have tens : v % 100 / 10 = v / 10 % 10 := by omega
  have ones : v % 100 % 10 = v % 10 := by omega
  calc decimal v = decimal (v / 10) ++ [digit (v % 10)] := by
        rw [← decimal_append (by omega) (by omega), outer]
    _ = (decimal (v / 100) ++ [digit (v / 10 % 10)]) ++ [digit (v % 10)] := by
        rw [← decimal_append (n := v / 100) (by omega) (by omega), inner]
    _ = decimal (v / 100) ++ [digit (v % 100 / 10), digit (v % 100 % 10)] := by
        rw [tens, ones, List.append_assoc, List.singleton_append]

/-- The buffer is filled with the digits from its front to the place of the last one. -/
theorem fillDigits_eq {dst : Bytes} {next value : ℕ} (len : (decimal value).length = next + 1)
    (room : next < dst.length) :
    fillDigits dst next value = decimal value ++ dst.drop (next + 1) := by
  fun_induction fillDigits dst next value with
  | case1 dst next value large i ih =>
    obtain ⟨high, low⟩ := digitPairs_get (k := value % 100) (by omega)
    have split := decimal_pair large
    have shorter : (decimal (value / 100)).length + 2 = next + 1 := by
      rw [← len, split, List.length_append]
      rfl
    have some := decimal_length_pos (value / 100)
    rw [ih (by omega) (by simp; omega), split, List.append_assoc]
    have back : next - 2 + 1 = next - 1 := by omega
    rw [back, drop_set_pair _ _ (by omega) room, high, low]
    rfl
  | case2 dst next value large small =>
    rw [decimal_small small, List.length_singleton] at len
    obtain rfl : next = 0 := by omega
    rw [decimal_small small]
    cases dst with
    | nil => cases room
    | cons b dst => rfl
  | case3 dst next value large small i =>
    obtain ⟨high, low⟩ := digitPairs_get (k := value) (by omega)
    have two : decimal value = [digit (value / 10), digit (value % 10)] := by
      have whole : value / 10 * 10 + value % 10 = value := by omega
      rw [← whole, decimal_append (by omega) (by omega), decimal_small (by omega), whole]
      rfl
    rw [two] at len ⊢
    obtain rfl : next = 1 := by simpa using len.symm
    have filled := drop_set_pair (digitPairs.getD (i + 1) 0) (digitPairs.getD i 0) (le_refl 1) room
    rw [List.drop_zero] at filled
    rw [filled, high, low]
    rfl

theorem ull2string_eq {dstlen value : ℕ} (room : (decimal value).length < dstlen) :
    ull2string dstlen value = some (decimal value) := by
  have some := decimal_length_pos value
  rw [ull2string, digits10_eq, if_neg (by omega),
    fillDigits_eq (by omega) (by rw [List.length_replicate]; omega)]
  simp [List.drop_eq_nil_of_le, Nat.sub_add_cancel some]

end Buffer

section ReadBack

theorem le_digitsValue (v : ℕ) (ds : Bytes) : v ≤ digitsValue 10 v ds := by
  induction ds generalizing v with
  | nil => exact le_refl v
  | cons b ds ih =>
    refine le_trans ?_ (ih (v * 10 + digitValue b))
    omega

theorem decimal_digitsValue {v : ℕ} {ds : Bytes} (positive : 0 < v)
    (all : ∀ b ∈ ds, isdigit b = true) : decimal (digitsValue 10 v ds) = decimal v ++ ds := by
  induction ds generalizing v with
  | nil => rw [digitsValue, List.foldl_nil, List.append_nil]
  | cons b ds ih =>
    obtain ⟨small, own⟩ := digit_digitValue (all b List.mem_cons_self)
    have next : decimal (v * 10 + digitValue b) = decimal v ++ [b] := by
      rw [decimal_append positive small, own]
    calc decimal (digitsValue 10 v (b :: ds)) = decimal (v * 10 + digitValue b) ++ ds :=
          ih (v := v * 10 + digitValue b) (by omega) fun c listed =>
            all c (List.mem_cons_of_mem b listed)
      _ = decimal v ++ b :: ds := by rw [next, List.append_assoc, List.singleton_append]

theorem readDigits_complete {v : ℕ} {ds : Bytes} (all : ∀ b ∈ ds, isdigit b = true)
    (fits : digitsValue 10 v ds ≤ ullongMax) :
    readDigits v ds = some (digitsValue 10 v ds, []) := by
  induction ds generalizing v with
  | nil => rfl
  | cons b ds ih =>
    have own := all b List.mem_cons_self
    have next : v * 10 + digitValue b ≤ ullongMax := le_trans (le_digitsValue _ ds) fits
    rw [readDigits, if_pos own, if_neg (by omega), if_neg (by omega)]
    exact ih (fun c listed => all c (List.mem_cons_of_mem b listed)) fits

theorem readDigits_sound {v n : ℕ} {ds : Bytes} (fits : v ≤ ullongMax)
    (read : readDigits v ds = some (n, [])) :
    (∀ b ∈ ds, isdigit b = true) ∧ n = digitsValue 10 v ds ∧ n ≤ ullongMax := by
  induction ds generalizing v with
  | nil =>
    cases read
    exact ⟨nofun, rfl, fits⟩
  | cons b ds ih =>
    rw [readDigits] at read
    split_ifs at read with own beyond carry
    · have small := (digit_digitValue own).1
      have ten : 10 ≤ ullongMax := by decide
      obtain ⟨others, value, bound⟩ := ih (by omega) read
      exact ⟨List.forall_mem_cons.mpr ⟨own, others⟩, value, bound⟩
    · cases read

theorem leading_digit {b : UInt8} :
    (byte '1' ≤ b ∧ b ≤ byte '9') ↔ isdigit b = true ∧ 0 < digitValue b := by
  have zero : (byte '0').toNat = 0x30 := rfl
  have one : (byte '1').toNat = 0x31 := rfl
  have nine : (byte '9').toNat = 0x39 := rfl
  simp only [isdigit, digitValue, Bool.and_eq_true, decide_eq_true_eq, UInt8.le_iff_toNat_le, zero,
    one, nine]
  omega

theorem decimal_leading {n : ℕ} (positive : 0 < n) :
    ∃ b ds, decimal n = b :: ds ∧ (byte '1' ≤ b ∧ b ≤ byte '9') ∧
      (∀ c ∈ ds, isdigit c = true) ∧ digitsValue 10 (digitValue b) ds = n := by
  induction n using Nat.strong_induction_on with
  | _ n ih =>
    by_cases small : n < 10
    · obtain ⟨own, value⟩ := digit_facts small
      exact ⟨digit n, [], decimal_small small, leading_digit.mpr ⟨own, by omega⟩, nofun, value⟩
    · obtain ⟨b, ds, split, lead, all, value⟩ := ih (n / 10) (by omega) (by omega)
      obtain ⟨own, last⟩ := digit_facts (d := n % 10) (by omega)
      have whole : n / 10 * 10 + n % 10 = n := by omega
      refine ⟨b, ds ++ [digit (n % 10)], ?_, lead, ?_, ?_⟩
      · rw [← List.cons_append, ← split, ← decimal_append (by omega) (by omega), whole]
      · intro c listed
        rcases List.mem_append.mp listed with old | new
        · exact all c old
        · rw [List.mem_singleton.mp new]
          exact own
      · have appended : digitsValue 10 (digitValue b) (ds ++ [digit (n % 10)]) =
            digitsValue 10 (digitValue b) ds * 10 + digitValue (digit (n % 10)) := by
          rw [digitsValue, List.foldl_append, List.foldl_cons, List.foldl_nil, digitsValue]
        rw [appended, value, last, whole]

/-- Read without its sign, a text is a positive number exactly when it is the decimal of
the number. -/
theorem readNumber_iff {s : Bytes} {n : ℕ} :
    readNumber s = some n ↔ (0 < n ∧ n ≤ ullongMax) ∧ s = decimal n := by
  constructor
  · intro read
    cases s with
    | nil => cases read
    | cons b rest =>
      rw [readNumber] at read
      split_ifs at read with lead
      obtain ⟨own, positive⟩ := leading_digit.mp lead
      obtain ⟨small, same⟩ := digit_digitValue own
      have ten : 10 ≤ ullongMax := by decide
      cases digits : readDigits (digitValue b) rest with
      | none => simp [digits] at read
      | some result =>
        obtain ⟨v, left⟩ := result
        cases left with
        | cons c left => simp [digits] at read
        | nil =>
          obtain rfl : v = n := by simpa [digits] using read
          obtain ⟨all, value, bound⟩ := readDigits_sound (by omega) digits
          refine ⟨⟨?_, bound⟩, ?_⟩
          · rw [value]
            exact lt_of_lt_of_le positive (le_digitsValue _ rest)
          · rw [value, decimal_digitsValue positive all, decimal_small small, same,
              List.singleton_append]
  · rintro ⟨⟨positive, bound⟩, rfl⟩
    obtain ⟨b, ds, split, lead, all, value⟩ := decimal_leading positive
    rw [split, readNumber, if_pos lead, readDigits_complete all (by rw [value]; exact bound), value]

theorem signedDecimal_length {v : ℤ} (low : llongMin ≤ v) (high : v ≤ llongMax) :
    (signedDecimal v).length < 21 := by
  have magnitude : v.natAbs < 10 ^ 19 := by
    simp only [llongMin, llongMax] at low high
    omega
  have digits := (decimal_length_le_iff (by decide : 0 < 19)).mpr magnitude
  unfold signedDecimal
  split_ifs
  · rw [List.length_cons]
    omega
  · omega

/-- `ll2string` writes what `%lld` prints. -/
theorem ll2string_eq {dstlen : ℕ} (room : 21 ≤ dstlen) {v : ℤ} (low : llongMin ≤ v)
    (high : v ≤ llongMax) : ll2string dstlen v = some (signedDecimal v) := by
  have length := signedDecimal_length low high
  unfold signedDecimal at length ⊢
  unfold ll2string
  split_ifs at length ⊢ with negative
  · omega
  · rw [List.length_cons] at length
    rw [ull2string_eq (by omega), Option.map_some]
  · exact ull2string_eq (by omega)

theorem decimal_head {n : ℕ} (positive : 0 < n) :
    ∃ b ds, decimal n = b :: ds ∧ b ≠ byte '0' ∧ b ≠ byte '-' := by
  obtain ⟨b, ds, split, lead, -, -⟩ := decimal_leading positive
  refine ⟨b, ds, split, ?_, ?_⟩
  · rintro rfl
    exact absurd lead (by decide)
  · rintro rfl
    exact absurd lead (by decide)

theorem string2ll_iff {s : Bytes} {v : ℤ} :
    string2ll s = some v ↔ (llongMin ≤ v ∧ v ≤ llongMax) ∧ s = signedDecimal v := by
  constructor
  · intro read
    unfold string2ll at read
    split_ifs at read with bad nought
    · cases read
      exact ⟨by decide, nought⟩
    · cases s with
      | nil => cases read
      | cons b rest =>
        dsimp only at read
        split_ifs at read with sign
        · cases number : readNumber rest with
          | none => simp [number] at read
          | some n =>
            obtain ⟨⟨positive, -⟩, text⟩ := readNumber_iff.mp number
            simp only [number] at read
            split_ifs at read with beyond
            cases read
            refine ⟨⟨by simp only [llongMin]; omega, by simp only [llongMax]; omega⟩, ?_⟩
            rw [signedDecimal, if_pos (by omega), Int.natAbs_neg, Int.natAbs_natCast, sign, text]
        · cases number : readNumber (b :: rest) with
          | none => simp [number] at read
          | some n =>
            obtain ⟨⟨positive, -⟩, text⟩ := readNumber_iff.mp number
            simp only [number] at read
            split_ifs at read with beyond
            cases read
            refine ⟨⟨by simp only [llongMin]; omega, by omega⟩, ?_⟩
            rw [signedDecimal, if_neg (by omega), Int.natAbs_natCast, text]
  · rintro ⟨⟨low, high⟩, rfl⟩
    have length := signedDecimal_length low high
    simp only [llongMin, llongMax] at low high
    have bound : v.natAbs ≤ ullongMax := by
      simp only [ullongMax]
      omega
    rcases lt_trichotomy v 0 with negative | rfl | positive
    · have text : signedDecimal v = byte '-' :: decimal v.natAbs := if_pos negative
      have number := readNumber_iff.mpr ⟨⟨(by omega : 0 < v.natAbs), bound⟩, rfl⟩
      rw [text] at length ⊢
      have minus : ¬ byte '-' :: decimal v.natAbs = [byte '0'] := by
        intro same
        exact absurd (List.cons.inj same).1 (by decide)
      simp only [string2ll, number, minus, if_false, if_true]
      rw [if_neg (not_or.mpr ⟨List.cons_ne_nil _ _, Nat.not_le.mpr length⟩), if_neg (by omega)]
      congr 1
      omega
    · rfl
    · have text : signedDecimal v = decimal v.natAbs := if_neg (by omega)
      have number := readNumber_iff.mpr ⟨⟨(by omega : 0 < v.natAbs), bound⟩, rfl⟩
      obtain ⟨b, ds, split, nought, sign⟩ := decimal_head (by omega : 0 < v.natAbs)
      rw [text, split] at length ⊢
      rw [split] at number
      simp only [string2ll, number, nought, sign, if_false, List.cons.injEq, false_and]
      rw [if_neg (not_or.mpr ⟨List.cons_ne_nil _ _, Nat.not_le.mpr length⟩),
        if_neg (by simp only [llongMax]; omega)]
      congr 1
      omega

/-- `string2ll` reads a number from a text exactly when the text is what `ll2string` writes
for it. -/
theorem string2ll_eq_some_iff {dstlen : ℕ} (room : 21 ≤ dstlen) (s : Bytes) (v : ℤ) :
    string2ll s = some v ↔ (llongMin ≤ v ∧ v ≤ llongMax) ∧ ll2string dstlen v = some s := by
  rw [string2ll_iff]
  refine and_congr_right fun range => ?_
  rw [ll2string_eq room range.1 range.2, Option.some.injEq]
  exact eq_comm

theorem least_number_read : string2ll (bytes "-9223372036854775808") = some llongMin := by
  refine (string2ll_eq_some_iff (le_refl 21) _ _).mpr ⟨by decide, ?_⟩
  rw [ll2string_eq (le_refl 21) (by decide) (by decide)]
  decide

end ReadBack

section Numerals
variable {base : ℕ}

theorem numeral_digit {d : ℕ} (small : d < base) (ten : base ≤ 10) :
    inBase base (byte (Nat.digitChar d)) = true ∧ digitValue (byte (Nat.digitChar d)) = d := by
  obtain ⟨own, value⟩ := digit_facts (small.trans_le ten)
  rw [byte_digitChar (small.trans_le ten)]
  exact ⟨by simp [inBase, own, value, small], value⟩

theorem numeral_inBase (two : 1 < base) (ten : base ≤ 10) (n : ℕ) :
    ∀ b ∈ (Nat.toDigits base n).map byte, inBase base b = true := by
  induction n using Nat.strong_induction_on with
  | _ n ih =>
    rw [Nat.toDigits_eq_if two]
    split_ifs with small
    · exact List.forall_mem_singleton.mpr (numeral_digit small ten).1
    · rw [List.map_append, List.forall_mem_append]
      exact ⟨ih (n / base) (Nat.div_lt_self (by omega) two),
        List.forall_mem_singleton.mpr (numeral_digit (Nat.mod_lt n (by omega)) ten).1⟩

theorem numeral_value (two : 1 < base) (ten : base ≤ 10) (n : ℕ) :
    digitsValue base 0 ((Nat.toDigits base n).map byte) = n := by
  induction n using Nat.strong_induction_on with
  | _ n ih =>
    rw [Nat.toDigits_eq_if two]
    split_ifs with small
    · rw [List.map_singleton, digitsValue, List.foldl_cons, List.foldl_nil, Nat.zero_mul,
        Nat.zero_add, (numeral_digit small ten).2]
    · have front := ih (n / base) (Nat.div_lt_self (by omega) two)
      have last := (numeral_digit (Nat.mod_lt n (by omega : 0 < base)) ten).2
      unfold digitsValue at front ⊢
      rw [List.map_append, List.foldl_append, front, List.map_singleton, List.foldl_cons,
        List.foldl_nil, last, Nat.div_add_mod']

theorem numeral_ne_nil (base n : ℕ) : (Nat.toDigits base n).map byte ≠ [] :=
  List.ne_nil_of_length_pos (by rw [List.length_map]; exact Nat.length_toDigits_pos)

theorem inBase_isdigit {b : UInt8} (own : inBase base b = true) : isdigit b = true :=
  (Bool.and_eq_true_iff.mp own).1

theorem decimal_value (n : ℕ) : digitsValue 10 0 (decimal n) = n :=
  numeral_value (by decide) (le_refl 10) n

theorem decimal_isdigit (n : ℕ) : ∀ b ∈ decimal n, isdigit b = true := fun b listed =>
  inBase_isdigit (numeral_inBase (by decide) (le_refl 10) n b listed)

end Numerals

section Memory

theorem isdigit_ne {b : UInt8} (own : isdigit b = true) :
    b ≠ 0 ∧ b ≠ byte '-' ∧ isspace b = false := by
  have zero : (byte '0').toNat = 0x30 := rfl
  have nine : (byte '9').toNat = 0x39 := rfl
  simp only [isdigit, Bool.and_eq_true, decide_eq_true_eq, UInt8.le_iff_toNat_le, zero, nine] at own
  refine ⟨?_, ?_, ?_⟩
  · rintro rfl
    exact absurd own.1 (by decide)
  · rintro rfl
    exact absurd own.1 (by decide)
  · by_contra space
    simp only [isspace, Bool.not_eq_false, Bool.or_eq_true, beq_iff_eq, Bool.and_eq_true,
      decide_eq_true_eq, UInt8.le_iff_toNat_le] at space
    rcases space with rfl | ⟨-, below⟩
    · exact absurd own.1 (by decide)
    · have thirteen : (0x0d : UInt8).toNat = 13 := rfl
      omega

theorem decimal_noNul (n : ℕ) : 0 ∉ decimal n :=
  fun nul => (isdigit_ne (decimal_isdigit n 0 nul)).1 rfl

structure IsUnit (u : Bytes) (mul : ℕ) : Prop where
  noDigits : u.takeWhile isdigit = []
  noNul : 0 ∉ u
  value : unitOf u = some mul

theorem memtoull_decimal {n mul : ℕ} {u : Bytes} (unit : IsUnit u mul) (fits : n ≤ ullongMax) :
    memtoull (decimal n ++ u) = some (n * mul % 2 ^ 64) := by
  have noNul : 0 ∉ decimal n ++ u := by
    rw [List.mem_append]
    exact not_or.mpr ⟨decimal_noNul n, unit.noNul⟩
  have digits : (decimal n ++ u).takeWhile isdigit = decimal n := by
    rw [List.takeWhile_append_of_pos (decimal_isdigit n), unit.noDigits, List.append_nil]
  have rest : (decimal n ++ u).dropWhile isdigit = u := by
    have whole := List.takeWhile_append_dropWhile (p := isdigit) (l := decimal n ++ u)
    rw [digits] at whole
    exact List.append_cancel_left whole
  have sign : (decimal n ++ u).head? ≠ some (byte '-') := by
    intro head
    obtain ⟨b, ds, split⟩ :=
      List.exists_cons_of_ne_nil (List.ne_nil_of_length_pos (decimal_length_pos n))
    rw [split, List.cons_append, List.head?_cons] at head
    have own := decimal_isdigit n b (by rw [split]; exact List.mem_cons_self)
    exact (isdigit_ne own).2.1 (Option.some.inj head)
  have short : (decimal n).length ≤ 20 := by
    refine (decimal_length_le_iff (by decide)).mpr (lt_of_le_of_lt fits ?_)
    decide
  simp only [memtoull, cString_eq_self noNul, if_neg sign, digits, rest, unit.value]
  rw [if_neg (by omega), decimal_value, Nat.min_eq_left fits]

theorem formatMemory_negative {v : ℤ} (negative : v < 0) :
    (formatMemory v).head? = some (byte '-') := by
  have printed (q : ℤ) (less : q < 0) (u : Bytes) :
      (signedDecimal q ++ u).head? = some (byte '-') := by
    rw [signedDecimal, if_pos less]
    rfl
  have quotient (m : ℤ) (positive : 0 < m) (divides : v.tmod m = 0) : v.tdiv m < 0 := by
    have whole := Int.mul_tdiv_add_tmod v m
    rw [divides, add_zero] at whole
    by_contra nonneg
    have := mul_nonneg positive.le (not_lt.mp nonneg)
    omega
  unfold formatMemory
  split_ifs with gb mb kb
  · exact printed _ (quotient _ (by decide) gb.2) _
  · exact printed _ (quotient _ (by decide) mb.2) _
  · exact printed _ (quotient _ (by decide) kb.2) _
  · have bare := printed v negative []
    rwa [List.append_nil] at bare

theorem memtoull_multiple {n mul : ℕ} {u : Bytes} (unit : IsUnit u mul)
    (divides : (n : ℤ).tmod mul = 0) (fits : n < 2 ^ 63) :
    memtoull (signedDecimal ((n : ℤ).tdiv mul) ++ u) = some n := by
  have quotient : (n : ℤ).tdiv mul = (n / mul : ℕ) := rfl
  have whole : n / mul * mul = n := by
    have none : ((n % mul : ℕ) : ℤ) = 0 := divides
    exact Nat.div_mul_cancel (Nat.dvd_of_mod_eq_zero (by exact_mod_cast none))
  have small : n / mul ≤ n := Nat.div_le_self n mul
  rw [quotient, signedDecimal, if_neg (Int.natCast_nonneg _).not_gt, Int.natAbs_natCast,
    memtoull_decimal unit (by simp only [ullongMax]; omega), whole, Nat.mod_eq_of_lt (by omega)]

theorem memtoull_formatMemory_nat {n : ℕ} (fits : n < 2 ^ 63) :
    memtoull (formatMemory n) = some n := by
  have gigas : IsUnit (bytes "gb") (1024 * 1024 * 1024) := ⟨by decide, by decide, by decide⟩
  have megas : IsUnit (bytes "mb") (1024 * 1024) := ⟨by decide, by decide, by decide⟩
  have kilos : IsUnit (bytes "kb") 1024 := ⟨by decide, by decide, by decide⟩
  have plainUnit : IsUnit [] 1 := ⟨rfl, List.not_mem_nil, by decide⟩
  unfold formatMemory
  split_ifs with gb mb kb
  · exact memtoull_multiple gigas gb.2 fits
  · exact memtoull_multiple megas mb.2 fits
  · exact memtoull_multiple kilos kb.2 fits
  · have plain := memtoull_multiple plainUnit (Int.tmod_one n) fits
    simpa using plain

/-- An amount of memory that CONFIG REWRITE writes is read back, unless it has passed the
greatest `long long`: it is then written as a negative number, which is no amount. -/
theorem memtoull_formatMemory {v : ℤ} (high : v ≤ llongMax) :
    memtoull (formatMemory v) = if 0 ≤ v then some v.toNat else none := by
  split_ifs with nonneg
  · obtain ⟨n, rfl⟩ := Int.eq_ofNat_of_zero_le nonneg
    simp only [llongMax] at high
    rw [Int.toNat_natCast]
    exact memtoull_formatMemory_nat (by omega)
  · obtain ⟨rest, text⟩ := List.head?_eq_some_iff.mp (formatMemory_negative (not_le.mp nonneg))
    have sign : (cString (formatMemory v)).head? = some (byte '-') := by
      rw [text, cString, List.takeWhile_cons_of_pos (by decide), List.head?_cons]
    rw [memtoull, if_pos sign]

theorem gigabyte_read : memtoull (formatMemory 1073741824) = some 1073741824 :=
  memtoull_formatMemory (by decide)

end Memory

section Strtoll

theorem strtoll_numeral {base n : ℕ} (two : 1 < base) (ten : base ≤ 10)
    (fits : (n : ℤ) ≤ llongMax) :
    strtoll base ((Nat.toDigits base n).map byte) = ⟨n, [], false⟩ := by
  have own := numeral_inBase two ten n
  have noNul : 0 ∉ (Nat.toDigits base n).map byte := fun nul =>
    (isdigit_ne (inBase_isdigit (own 0 nul))).1 rfl
  obtain ⟨b, ds, split⟩ := List.exists_cons_of_ne_nil (numeral_ne_nil base n)
  have first := inBase_isdigit (own b (by rw [split]; exact List.mem_cons_self))
  obtain ⟨-, minus, space⟩ := isdigit_ne first
  have plus : b ≠ byte '+' := by
    rintro rfl
    exact absurd first (by decide)
  have sign : readSign ((cString ((Nat.toDigits base n).map byte)).dropWhile isspace) =
      (false, (Nat.toDigits base n).map byte) := by
    rw [cString_eq_self noNul, split, List.dropWhile_cons_of_neg (by simp [space]), readSign,
      if_neg minus, if_neg plus]
  have digits := List.takeWhile_eq_self_iff.mpr own
  have rest := List.dropWhile_eq_nil_iff.mpr own
  have low : ¬ (n : ℤ) < llongMin := by
    simp only [llongMin]
    omega
  simp only [strtoll, sign, digits, rest, numeral_value two ten, numeral_ne_nil, if_false,
    Bool.false_eq_true, if_neg (not_lt.mpr fits), if_neg low]

theorem strtoll_decimal {n : ℕ} (fits : (n : ℤ) ≤ llongMax) :
    strtoll 10 (decimal n) = ⟨n, [], false⟩ :=
  strtoll_numeral (by decide) (le_refl 10) fits

theorem strtoll_range (base : ℕ) (s : Bytes) :
    llongMin ≤ (strtoll base s).value ∧ (strtoll base s).value ≤ llongMax := by
  have bounds : llongMin ≤ 0 ∧ (0 : ℤ) ≤ llongMax := by decide
  simp only [strtoll]
  split_ifs with digitless above below above below
  all_goals simp only
  all_goals omega

end Strtoll

section Words

def bare (b : UInt8) : Bool := ordinary b && !isspace b

theorem plain_of_bare {w : Bytes} (nonempty : w ≠ []) (all : w.all bare = true) : Plain w := by
  have split {b : UInt8} (listed : b ∈ w) : ordinary b = true ∧ isspace b = false := by
    simpa [bare] using List.all_eq_true.mp all b listed
  obtain ⟨b, rest, rfl⟩ := List.exists_cons_of_ne_nil nonempty
  exact ⟨⟨b, rest, rfl, (split List.mem_cons_self).2⟩, fun b listed => (split listed).1⟩

theorem bare_of_isdigit {b : UInt8} (own : isdigit b = true) : bare b = true := by
  have all : ∀ d : Fin 10, bare (digit d) = true := by decide
  obtain ⟨small, same⟩ := digit_digitValue own
  rw [← same]
  exact all ⟨digitValue b, small⟩

theorem signedDecimal_bare (v : ℤ) : (signedDecimal v).all bare = true := by
  have digits : (decimal v.natAbs).all bare = true :=
    List.all_eq_true.mpr fun b listed => bare_of_isdigit (decimal_isdigit v.natAbs b listed)
  unfold signedDecimal
  split_ifs
  · rw [List.all_cons, digits]
    rfl
  · exact digits

theorem signedDecimal_ne_nil (v : ℤ) : signedDecimal v ≠ [] := by
  unfold signedDecimal
  split_ifs
  · exact List.cons_ne_nil _ _
  · exact List.ne_nil_of_length_pos (decimal_length_pos _)

theorem plain_signedDecimal_append (v : ℤ) {u : Bytes} (unit : u.all bare = true) :
    Plain (signedDecimal v ++ u) :=
  plain_of_bare (List.append_ne_nil_of_left_ne_nil (signedDecimal_ne_nil v) u)
    (by rw [List.all_append, signedDecimal_bare, unit]; rfl)

theorem plain_signedDecimal (v : ℤ) : Plain (signedDecimal v) :=
  plain_of_bare (signedDecimal_ne_nil v) (signedDecimal_bare v)

theorem plain_formatMemory (v : ℤ) : Plain (formatMemory v) := by
  unfold formatMemory
  split_ifs
  · exact plain_signedDecimal_append _ rfl
  · exact plain_signedDecimal_append _ rfl
  · exact plain_signedDecimal_append _ rfl
  · exact plain_signedDecimal v

end Words

end LempStack.ValkeyNumbers
