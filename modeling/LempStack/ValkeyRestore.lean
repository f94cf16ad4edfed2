import LempStack.ValkeyOptions
import LempStack.OwnedLines

/-! What CONFIG REWRITE writes for a config sets it again. `WellFormed` is what holds of
every value that `set` has accepted, `Carried` what a rewritten line needs beyond that: an
amount of memory that is no negative `long long`, save points whose changes have not
wrapped around, bind addresses that stand for themselves, a directory with a name that
`getcwd` has room for. -/

namespace LempStack.ValkeyRestore
open SdsStrings ValkeyNumbers ValkeyOptions OwnedLines

section Conditions

/-- A config that takes percentages also takes amounts of memory, and none is its default. -/
structure RegularNumeric (n : Numeric) : Prop where
  default : numericBoundaryCheck n n.default = .ok ()
  range : llongMin ≤ n.default ∧ n.default ≤ llongMax
  percent : n.flags.percent = true →
    n.flags.memory = true ∧ n.default = 0 ∧ n.type.isUnsigned = false ∧ llongMin < n.lower
  octal : n.flags.octal = true → n.type.isUnsigned = true ∧ toUnsigned n.upper ≤ 0o777

/-- The names are different words, each the name of its value. -/
structure RegularEnum (names : List (Bytes × ℕ)) : Prop where
  distinct : names.Pairwise fun e f => sameCaseless e.1 f.1 = false
  words : ∀ e ∈ names, configEnumGetName names e.2 = e.1 ∧ e.1 ≠ [] ∧ e.1.all bare = true

def RegularData : TypeData → Prop
  | .string nullable default isValid =>
    (nullable = true → default = none) ∧ ∀ s ∈ default, 0 ∉ s ∧ isValid s = none
  | .sds nullable default => (nullable = true → default = none) ∧ ∀ s ∈ default, 0 ∉ s
  | .enum names default => RegularEnum names ∧ default ∈ names.map Prod.snd
  | .numeric n => RegularNumeric n
  | .yesno _ | .save | .bind | .limits | .dir => True

def takesMany : TypeData → Bool
  | .save | .bind | .limits => true
  | _ => false

structure Regular (c : StandardConfig) : Prop where
  word : c.name ≠ [] ∧ c.name.all bare = true
  noComment : c.name.head? ≠ some (byte '#')
  multiArg : c.multiArg = takesMany c.data
  data : RegularData c.data

instance (n : Numeric) : Decidable (RegularNumeric n) :=
  decidable_of_iff ((numericBoundaryCheck n n.default).toOption = some () ∧
      (llongMin ≤ n.default ∧ n.default ≤ llongMax) ∧
      (n.flags.percent = true →
        n.flags.memory = true ∧ n.default = 0 ∧ n.type.isUnsigned = false ∧ llongMin < n.lower) ∧
      (n.flags.octal = true → n.type.isUnsigned = true ∧ toUnsigned n.upper ≤ 0o777))
    ⟨fun ⟨bounds, range, percent, octal⟩ =>
        ⟨by cases check : numericBoundaryCheck n n.default <;> simp_all [Except.toOption],
          range, percent, octal⟩,
      fun regular => ⟨by rw [regular.default]; rfl, regular.range, regular.percent, regular.octal⟩⟩

instance (names : List (Bytes × ℕ)) : Decidable (RegularEnum names) :=
  decidable_of_iff ((names.Pairwise fun e f => sameCaseless e.1 f.1 = false) ∧
      ∀ e ∈ names, configEnumGetName names e.2 = e.1 ∧ e.1 ≠ [] ∧ e.1.all bare = true)
    ⟨fun ⟨distinct, words⟩ => ⟨distinct, words⟩, fun regular => ⟨regular.distinct, regular.words⟩⟩

instance : DecidablePred RegularData
  | .string _ none _ => decidable_of_iff True (by simp [RegularData])
  | .string nullable (some s) isValid =>
    decidable_of_iff (nullable = false ∧ 0 ∉ s ∧ isValid s = none) (by simp [RegularData])
  | .sds _ none => decidable_of_iff True (by simp [RegularData])
  | .sds nullable (some s) => decidable_of_iff (nullable = false ∧ 0 ∉ s) (by simp [RegularData])
  | .enum names default =>
    inferInstanceAs (Decidable (RegularEnum names ∧ default ∈ names.map Prod.snd))
  | .numeric n => inferInstanceAs (Decidable (RegularNumeric n))
  | .yesno _ | .save | .bind | .limits | .dir => .isTrue trivial

instance : DecidablePred Regular := fun c =>
  decidable_of_iff ((c.name ≠ [] ∧ c.name.all bare = true) ∧ c.name.head? ≠ some (byte '#') ∧
      c.multiArg = takesMany c.data ∧ RegularData c.data)
    ⟨fun ⟨word, noComment, multiArg, data⟩ => ⟨word, noComment, multiArg, data⟩,
      fun regular => ⟨regular.word, regular.noComment, regular.multiArg, regular.data⟩⟩

theorem staticConfigs_regular : ∀ c ∈ staticConfigs, Regular c := by
  decide +kernel

variable (sys : System)

/-- What holds of a value that has been set. -/
def WellFormed : TypeData → Value → Prop
  | .yesno _, .yesno _ => True
  | .string nullable _ isValid, .text (some s) =>
    0 ∉ s ∧ isValid s = none ∧ (nullable = true → s ≠ [])
  | .string _ default _, .text none => default = none
  | .sds nullable _, .text (some s) => nullable = true → s ≠ []
  | .sds _ default, .text none => default = none
  | .enum names _, .enum n => n ∈ names.map Prod.snd
  | .numeric n, .numeric v =>
    numericBoundaryCheck n v = .ok () ∧ llongMin ≤ v ∧ v ≤ llongMax
  | .save, .save _ params => ∀ p ∈ params, 1 ≤ p.1 ∧ p.1 ≤ llongMax ∧ p.2 < 2 ^ 31
  | .bind, .bind addresses => addresses.length ≤ 16
  | .limits, .limits limits => ∀ c, 0 ≤ (limits c).softSeconds ∧ (limits c).softSeconds < 2 ^ 31
  | .dir, .dir path => path ≠ [] ∧ 0 ∉ path ∧ sys.chdir path = .ok path
  | _, _ => False

/-- What the lines of a value must be able to say. -/
def Carried : TypeData → Value → Prop
  | .sds _ default, .text (some s) => default = some (cString s) → 0 ∉ s
  | .numeric n, .numeric v => n.flags.memory = true → 0 ≤ v ∨ n.flags.percent = true
  | .save, .save _ params => ∀ p ∈ params, 0 ≤ p.2
  | .bind, .bind addresses => ∀ a ∈ addresses, Plain a
  | .limits, .limits limits => ∀ c, (limits c).hard < 2 ^ 63 ∧ (limits c).soft < 2 ^ 63
  | .dir, .dir path => path.length < 1024
  | _, _ => True

instance {p : ClientClass → Prop} [DecidablePred p] : Decidable (∀ c, p c) :=
  decidable_of_iff (p .normal ∧ p .replica ∧ p .pubsub)
    ⟨fun ⟨normal, replica, pubsub⟩ c => by cases c <;> assumption, fun all => ⟨all _, all _, all _⟩⟩

instance (d : TypeData) (v : Value) : Decidable (Carried d v) := by
  unfold Carried
  split <;> infer_instance

/-- The value as the server uses it: whether a file has set the save points is no part
of it. -/
def observed : Value → Value
  | .save _ params => .save false params
  | v => v

end Conditions

section Kept
variable {sys : System}

theorem toSigned_range {n : ℕ} (fits : n < 2 ^ 64) :
    llongMin ≤ toSigned n ∧ toSigned n ≤ llongMax := by
  simp only [toSigned, llongMin, llongMax]
  split_ifs <;> omega

theorem memtoull_lt {s : Bytes} {n : ℕ} (read : memtoull s = some n) : n < 2 ^ 64 := by
  simp only [memtoull] at read
  split at read
  · cases read
  · split at read
    · cases read
    · split at read
      · cases read
      · cases read
        exact Nat.mod_lt _ (by decide)

theorem percentValue_range {n : Numeric} {value : Bytes} {v : ℤ}
    (read : percentValue n value = some v) : llongMin ≤ v ∧ v ≤ llongMax := by
  unfold percentValue at read
  split at read
  · split at read
    · rename_i w found
      obtain ⟨range, -⟩ := string2ll_iff.mp found
      split at read
      · cases read
        simp only [llongMin, llongMax] at range ⊢
        omega
      · cases read
    · cases read
  · cases read

theorem numericParseString_range {n : Numeric} {value : Bytes} {v : ℤ}
    (read : numericParseString n value = .ok v) : llongMin ≤ v ∧ v ≤ llongMax := by
  unfold numericParseString at read
  split at read
  · rename_i w found
    cases read
    simp only [Option.or_eq_some_iff] at found
    rcases found with memory | ⟨-, percent | ⟨-, octal | ⟨-, simple⟩⟩⟩
    · unfold memoryValue at memory
      split at memory
      · obtain ⟨amount, found, rfl⟩ := Option.map_eq_some_iff.mp memory
        exact toSigned_range (memtoull_lt found)
      · cases memory
    · exact percentValue_range percent
    · unfold octalValue at octal
      split at octal
      · cases octal
        exact strtoll_range 8 value
      · cases octal
    · unfold simpleValue at simple
      split at simple
      · exact (string2ll_iff.mp simple).1
      · cases simple
  · split_ifs at read

theorem enum_filter {names : List (Bytes × ℕ)} (regular : RegularEnum names) (a : Bytes) :
    (names.filter fun e => sameCaseless a e.1) = [] ∨
      ∃ e ∈ names, (names.filter fun e => sameCaseless a e.1) = [e] := by
  have apart := regular.distinct.sublist (List.filter_sublist (p := fun e => sameCaseless a e.1))
  have matching : ∀ e ∈ names.filter fun e => sameCaseless a e.1,
      e ∈ names ∧ sameCaseless a e.1 = true :=
    fun e listed => List.mem_filter.mp listed
  rcases list : names.filter fun e => sameCaseless a e.1 with _ | ⟨e, _ | ⟨f, others⟩⟩
  · exact .inl list
  · rw [list] at matching
    exact .inr ⟨e, (matching e (List.mem_singleton_self e)).1, list⟩
  · rw [list] at matching apart
    have first := (matching e List.mem_cons_self).2
    have second := (matching f (List.mem_cons_of_mem e List.mem_cons_self)).2
    have differ := (List.pairwise_cons.mp apart).1 f List.mem_cons_self
    simp only [sameCaseless, beq_iff_eq, beq_eq_false_iff_ne] at first second differ
    exact absurd (first.symm.trans second) differ

theorem configEnumGetValue_mem {names : List (Bytes × ℕ)} (regular : RegularEnum names)
    {argv : List Bytes} {n : ℕ} (found : configEnumGetValue names argv = some n) :
    n ∈ names.map Prod.snd := by
  unfold configEnumGetValue at found
  split at found
  · rename_i a
    rcases enum_filter regular a with missing | ⟨e, listed, one⟩
    · rw [missing] at found
      cases found
    · rw [one] at found
      have value : e.2 = n := by simpa using found
      exact List.mem_map.mpr ⟨e, listed, value⟩
  · cases found

theorem configEnumGetValue_name {names : List (Bytes × ℕ)} (regular : RegularEnum names)
    {e : Bytes × ℕ} (listed : e ∈ names) : configEnumGetValue names [e.1] = some e.2 := by
  have found : e ∈ names.filter fun f => sameCaseless e.1 f.1 :=
    List.mem_filter.mpr ⟨listed, by simp [sameCaseless]⟩
  rcases enum_filter regular e.1 with missing | ⟨f, -, one⟩
  · rw [missing] at found
    cases found
  · rw [one, List.mem_singleton] at found
    subst found
    simp only [configEnumGetValue, one, List.foldl_cons, List.foldl_nil, Nat.zero_or]

theorem toInt32_lt (z : ℤ) : toInt32 z < 2 ^ 31 := by
  unfold toInt32
  omega

theorem saveParams_range {args : List Bytes} {k : ℕ} (even : k % 2 = 0)
    (valid : ∀ a ∈ args.zipIdx k, validSaveArg a.2 a.1 = true) :
    ∀ p ∈ saveParams args, 1 ≤ p.1 ∧ p.1 ≤ llongMax ∧ p.2 < 2 ^ 31 := by
  fun_induction saveParams args generalizing k with
  | case1 a b rest ih =>
    rw [List.zipIdx_cons, List.zipIdx_cons, List.forall_mem_cons, List.forall_mem_cons] at valid
    obtain ⟨seconds, -, others⟩ := valid
    have least : 1 ≤ (strtoll 10 a).value := by
      have own := seconds
      simp only [validSaveArg, even, beq_self_eq_true, Bool.true_and, Bool.and_eq_true,
        Bool.not_eq_true', decide_eq_false_iff_not] at own
      omega
    exact List.forall_mem_cons.mpr
      ⟨⟨least, (strtoll_range 10 a).2, toInt32_lt _⟩, ih (by omega) others⟩
  | case2 => exact List.forall_mem_nil _

theorem addSaveParams_wellFormed {args : List Bytes} {loaded : Bool} {params : List (ℤ × ℤ)}
    {v : Value} (formed : WellFormed sys .save (.save loaded params))
    (done : addSaveParams args loaded params = .ok v) : WellFormed sys .save v := by
  unfold addSaveParams at done
  split at done
  · cases done
  · split at done
    · rename_i valid
      cases done
      have added := saveParams_range (Nat.zero_mod 2) (by simpa only [List.all_eq_true] using valid)
      refine List.forall_mem_append.mpr ⟨?_, added⟩
      split_ifs
      · exact formed
      · exact List.forall_mem_nil _
    · cases done

theorem setSave_wellFormed {argv : List Bytes} {loaded : Bool} {params : List (ℤ × ℤ)} {v : Value}
    (formed : WellFormed sys .save (.save loaded params))
    (done : setSave argv loaded params = .ok v) :
    WellFormed sys .save v := by
  unfold setSave at done
  split at done
  · have emptied : WellFormed sys .save (.save loaded []) := List.forall_mem_nil _
    exact addSaveParams_wellFormed emptied done
  · exact addSaveParams_wellFormed formed done

theorem updateLimits_wellFormed {args : List Bytes} {limits limits' : ClientClass → BufferLimits}
    (formed : WellFormed sys .limits (.limits limits))
    (done : updateLimits args limits = .ok limits') :
    WellFormed sys .limits (.limits limits') := by
  fun_induction updateLimits args limits with
  | case1 =>
    cases done
    exact formed
  | case4 =>
    rename_i good ih
    refine ih (fun c => ?_) done
    dsimp only
    split_ifs
    · exact ⟨not_lt.mp fun negative => good (.inl negative), toInt32_lt _⟩
    · exact formed c
  | case2 | case3 | case5 | case6 => cases done

theorem set_wellFormed {d : TypeData} {argv : List Bytes} {old v : Value} (regular : RegularData d)
    (formed : WellFormed sys d old) (done : setConfig sys d argv old = .ok v) :
    WellFormed sys d v := by
  unfold setConfig at done
  split at done
  · split at done
    · cases done
      trivial
    · cases done
  · split at done
    · cases done
    · rename_i valid
      cases done
      split_ifs with empty
      · exact regular.1 empty.1
      · exact ⟨cString_noNul _, valid, fun null nil => empty ⟨null, nil⟩⟩
  · cases done
    split_ifs with empty
    · exact regular.1 empty.1
    · exact fun null nil => empty ⟨null, nil⟩
  · split at done
    · rename_i found
      cases done
      exact configEnumGetValue_mem regular.1 found
    · cases done
  · split at done
    · cases done
    · rename_i read
      split at done
      · cases done
      · rename_i bounds
        cases done
        exact ⟨bounds, numericParseString_range read⟩
  · exact setSave_wellFormed formed done
  · split_ifs at done with many empty
    · cases done
      exact Nat.zero_le _
    · cases done
      exact le_of_not_gt (by rwa [List.length_map])
  · split_ifs at done
    split at done
    · rename_i updated
      cases done
      exact updateLimits_wellFormed formed updated
    · cases done
  · split_ifs at done
    split at done
    · rename_i entered
      cases done
      exact sys.chdir_absolute _ _ entered
    · cases done
  · cases done
  · cases done
    exact formed

theorem defaultValue_wellFormed {d : TypeData} (regular : RegularData d) :
    WellFormed sys d (defaultValue sys d) := by
  cases d with
  | yesno => trivial
  | string nullable default isValid =>
    cases default with
    | none => rfl
    | some s =>
      obtain ⟨noNul, valid⟩ := regular.2 s rfl
      exact ⟨noNul, valid, fun null => absurd (regular.1 null) (Option.some_ne_none s)⟩
  | sds nullable default =>
    cases default with
    | none => rfl
    | some s => exact fun null => absurd (regular.1 null) (Option.some_ne_none s)
  | enum => exact regular.2
  | numeric n => exact ⟨regular.default, regular.range⟩
  | save => simp only [WellFormed, defaultValue, defaultSaveParams, List.forall_mem_cons]; decide
  | bind => simp [WellFormed, defaultValue, defaultBindAddresses]
  | limits => intro c; cases c <;> decide
  | dir => exact sys.chdir_absolute _ _ sys.chdir_start

end Kept

section Numbers

theorem toSigned_nat {n : ℕ} (fits : n < 2 ^ 63) : toSigned n = n := if_pos fits

theorem memtoull_percent (n : ℕ) : memtoull (decimal n ++ [byte '%']) = none := by
  have noNul : 0 ∉ decimal n ++ [byte '%'] := by
    rw [List.mem_append]
    exact not_or.mpr ⟨decimal_noNul n, by decide⟩
  have unit : (decimal n ++ [byte '%']).dropWhile isdigit = [byte '%'] := by
    rw [List.dropWhile_append_of_pos (decimal_isdigit n)]
    rfl
  have unknown : unitOf [byte '%'] = none := by decide
  simp only [memtoull, cString_eq_self noNul, unit, unknown, ite_self]

theorem percentValue_decimal {n : Numeric} (percent : n.flags.percent = true) {m : ℕ}
    (fits : (m : ℤ) ≤ llongMax) : percentValue n (decimal m ++ [byte '%']) = some (-(m : ℤ)) := by
  have long : 1 < (decimal m ++ [byte '%']).length := by
    have positive := decimal_length_pos m
    simp only [List.length_append, List.length_singleton]
    omega
  have read : string2ll (decimal m) = some (m : ℤ) := by
    refine string2ll_iff.mpr ⟨⟨?_, fits⟩, ?_⟩
    · simp only [llongMin]
      omega
    · rw [signedDecimal, if_neg (by omega), Int.natAbs_natCast]
  rw [percentValue, if_pos ⟨percent, long, List.getLast?_concat⟩, List.dropLast_concat, read]
  exact if_pos (Int.natCast_nonneg m)

variable {n : Numeric} {v : ℤ}

theorem octal_range (regular : RegularNumeric n) (octal : n.flags.octal = true)
    (bounds : numericBoundaryCheck n v = .ok ()) (low : llongMin ≤ v) (high : v ≤ llongMax) :
    ∃ m : ℕ, v = m ∧ toUnsigned v = m := by
  obtain ⟨unsigned, upper⟩ := regular.octal octal
  have small : toUnsigned v ≤ toUnsigned n.upper := by
    rw [numericBoundaryCheck, if_pos unsigned] at bounds
    by_contra above
    rw [if_pos (.inl (not_le.mp above))] at bounds
    split_ifs at bounds
  have bound : toUnsigned v < 512 := by omega
  simp only [toUnsigned, llongMin, llongMax] at bound low high ⊢
  exact ⟨v.toNat, by omega, by omega⟩

theorem plain_octal (m : ℕ) : Plain (octal m) :=
  plain_of_bare (numeral_ne_nil 8 m) (List.all_eq_true.mpr fun b listed =>
    bare_of_isdigit (inBase_isdigit (numeral_inBase (by decide) (by decide) m b listed)))

theorem plain_numericText (n : Numeric) (v : ℤ) : Plain (numericText n v) := by
  unfold numericText
  split_ifs with percent memory octal
  · exact plain_signedDecimal_append _ rfl
  · exact plain_formatMemory v
  · exact plain_octal _
  · exact plain_signedDecimal v

/-- The text of a number is read back as the number. -/
theorem numericParseString_numericText (regular : RegularNumeric n)
    (bounds : numericBoundaryCheck n v = .ok ()) (low : llongMin ≤ v) (high : v ≤ llongMax)
    (carried : Carried (.numeric n) (.numeric v)) :
    numericParseString n (numericText n v) = .ok v := by
  unfold numericText
  split_ifs with percent memory octal
  · -- the percentage is tried as an amount of memory first
    have negative := percent.2
    obtain ⟨memory, -, signed, lower⟩ := regular.percent percent.1
    obtain ⟨m, rfl⟩ : ∃ m : ℕ, v = -m := ⟨(-v).toNat, by omega⟩
    have fits : (m : ℤ) ≤ llongMax := by
      rw [numericBoundaryCheck, if_neg (by simp [signed]), if_pos percent] at bounds
      split_ifs at bounds with below
      simp only [llongMin, llongMax] at lower ⊢
      omega
    have text : signedDecimal (-(-(m : ℤ))) = decimal m := by
      rw [neg_neg, signedDecimal, if_neg (by omega), Int.natAbs_natCast]
    rw [text, numericParseString, memoryValue, if_pos memory, memtoull_percent,
      percentValue_decimal percent.1 fits]
    rfl
  · have amount : 0 ≤ v :=
      (carried memory).elim id fun flagged => not_lt.mp fun negative => percent ⟨flagged, negative⟩
    obtain ⟨m, rfl⟩ := Int.eq_ofNat_of_zero_le amount
    have fits : m < 2 ^ 63 := by
      simp only [llongMax] at high
      omega
    rw [numericParseString, memoryValue, if_pos memory, memtoull_formatMemory_nat fits,
      Option.map_some, toSigned_nat fits]
    rfl
  · obtain ⟨m, rfl, same⟩ := octal_range regular octal bounds low high
    have read : strtoll 8 (ValkeyOptions.octal m) = ⟨m, [], false⟩ :=
      strtoll_numeral (by decide) (by decide) high
    rw [same, numericParseString, memoryValue, if_neg memory, percentValue,
      if_neg fun flagged => memory (regular.percent flagged.1).1, octalValue, read,
      if_pos ⟨octal, rfl, rfl⟩]
    rfl
  · have noPercent : n.flags.percent ≠ true := fun flagged => memory (regular.percent flagged).1
    have noFlags : n.flags = {} := by
      cases flags : n.flags
      simp_all
    rw [numericParseString, memoryValue, if_neg memory, percentValue,
      if_neg fun flagged => noPercent flagged.1, octalValue, if_neg fun flagged => octal flagged.1,
      simpleValue, if_pos noFlags, string2ll_iff.mpr ⟨⟨low, high⟩, rfl⟩]
    rfl

end Numbers

section Lines
variable {sys : System} {c : StandardConfig} {v : Value}

def Spells (text : Bytes) (args : List Bytes) : Prop :=
  ∃ ws, ws ≠ [] ∧ text = spaced ws ∧ List.Forall₂ Word ws args

theorem spells_word {w a : Bytes} (word : Word w a) : Spells w [a] :=
  ⟨[w], List.cons_ne_nil w [], (spaced_singleton w).symm, .cons word .nil⟩

theorem spells_plain {ws : List Bytes} (nonempty : ws ≠ []) (plain : ∀ w ∈ ws, Plain w) :
    Spells (spaced ws) ws :=
  ⟨ws, nonempty, rfl, List.forall₂_same.mpr fun w listed => .plain (plain w listed)⟩

variable {text : Bytes} {args : List Bytes}

theorem Spells.inline (spells : Spells text args) : Inline text := by
  obtain ⟨ws, -, rfl, words⟩ := spells
  exact spaced_inline words

theorem Spells.tokensOf_rtrim (spells : Spells text args) : tokensOf (rtrim text) = some args := by
  obtain ⟨ws, nonempty, rfl, words⟩ := spells
  rw [rtrim_spaced words nonempty, tokensOf_spaced words]

theorem setText_spells (spells : Spells text args) (old : Value) :
    setText sys c text old = applyArgs sys c args old := by
  rw [setText, sdssplitargs_eq (spells.inline.subset (rtrim_subset text)).1, spells.tokensOf_rtrim]

theorem applyArgs_single (single : c.multiArg = false) (a : Bytes) (old : Value) :
    applyArgs sys c [a] old = setConfig sys c.data [a] old := by
  simp only [applyArgs, single]

variable (sys c v)

/-- The lines of the value are words, and however many places they find in the file, a fresh
server reads the value back. -/
structure Restored : Prop where
  spelled : ∀ r ∈ rewrite c.data v, ∃ args, Spells r.text args
  read : ∀ n : ℕ, ∃ v', (emitted n ((rewrite c.data v).map fun r => (r.text, r.force))).foldlM
    (fun old text => setText sys c text old) (defaultValue sys c.data) = .ok v' ∧
      observed v' = observed v

variable {sys c v}

theorem restored_nothing (nothing : rewrite c.data v = [])
    (same : observed (defaultValue sys c.data) = observed v) : Restored sys c v := by
  refine ⟨by rw [nothing]; exact List.forall_mem_nil _, fun n => ?_⟩
  rw [nothing, List.map_nil, emitted]
  exact ⟨_, rfl, same⟩

theorem restored_line {r : Rewritten} {v' : Value} (line : rewrite c.data v = [r])
    (spells : Spells r.text args) (sets : applyArgs sys c args (defaultValue sys c.data) = .ok v')
    (same : observed v' = observed v)
    (idle : r.force = false → observed (defaultValue sys c.data) = observed v) :
    Restored sys c v := by
  rw [← setText_spells spells] at sets
  refine ⟨by rw [line]; exact List.forall_mem_singleton.mpr ⟨args, spells⟩, fun n => ?_⟩
  rw [line, List.map_singleton]
  cases n with
  | succ n => exact ⟨v', by rw [emitted, emitted, List.foldlM_cons, sets]; rfl, same⟩
  | zero =>
    cases force : r.force with
    | true => exact ⟨v', by rw [emitted, if_pos rfl, emitted, List.foldlM_cons, sets]; rfl, same⟩
    | false => exact ⟨_, by rw [emitted, if_neg Bool.false_ne_true, emitted]; rfl, idle force⟩

end Lines

section Types
variable {sys : System} {c : StandardConfig}

theorem restored_yesno {default : Bool} (data : c.data = .yesno default)
    (single : c.multiArg = false) (on : Bool) : Restored sys c (.yesno on) := by
  have word : Word (if on then bytes "yes" else bytes "no")
      (if on then bytes "yes" else bytes "no") :=
    .plain (plain_of_bare (by cases on <;> decide) (by cases on <;> rfl))
  refine restored_line (by rw [data]; rfl) (spells_word word) ?_ rfl ?_
  · rw [applyArgs_single single, data]
    cases on <;> rfl
  · intro idle
    have same : on = default := by simpa using idle
    rw [data, same]
    rfl

theorem restored_string {nullable : Bool} {default : Option Bytes} {isValid : Bytes → Option String}
    (data : c.data = .string nullable default isValid) (single : c.multiArg = false) {s : Bytes}
    (formed : WellFormed sys c.data (.text (some s))) : Restored sys c (.text (some s)) := by
  rw [data] at formed
  obtain ⟨noNul, valid, solid⟩ := formed
  have whole := cString_eq_self noNul
  refine restored_line (by rw [data]; rfl) (spells_word (.quoted _)) ?_ rfl ?_
  · rw [applyArgs_single single, data, whole]
    simp only [setConfig, whole, valid, if_neg fun empty : nullable = true ∧ s = [] =>
      solid empty.1 empty.2]
  · intro idle
    have same : default = some s := by simpa [whole] using idle
    rw [data, same]
    rfl

theorem restored_sds {nullable : Bool} {default : Option Bytes}
    (data : c.data = .sds nullable default)
    (single : c.multiArg = false) {s : Bytes} (formed : WellFormed sys c.data (.text (some s)))
    (carried : Carried c.data (.text (some s))) : Restored sys c (.text (some s)) := by
  rw [data] at formed carried
  refine restored_line (by rw [data]; rfl) (spells_word (.quoted s)) ?_ rfl ?_
  · rw [applyArgs_single single, data]
    simp only [setConfig, if_neg fun empty : nullable = true ∧ s = [] => formed empty.1 empty.2]
  · intro idle
    have same : default = some (cString s) := by simpa using idle
    rw [data, same, cString_eq_self (carried same)]
    rfl

theorem restored_null {v : Value} (null : v = .text none) (formed : WellFormed sys c.data v) :
    Restored sys c v := by
  subst null
  cases data : c.data with
  | string nullable default isValid =>
    rw [data] at formed
    refine restored_nothing (by rw [data]; rfl) ?_
    rw [data, defaultValue, (formed : default = none)]
  | sds nullable default =>
    rw [data] at formed
    refine restored_nothing (by rw [data]; rfl) ?_
    rw [data, defaultValue, (formed : default = none)]
  | _ =>
    rw [data] at formed
    cases formed

theorem restored_enum {names : List (Bytes × ℕ)} {default n : ℕ}
    (data : c.data = .enum names default)
    (single : c.multiArg = false) (regular : RegularEnum names)
    (formed : WellFormed sys c.data (.enum n)) : Restored sys c (.enum n) := by
  rw [data] at formed
  obtain ⟨e, listed, rfl⟩ := List.mem_map.mp formed
  obtain ⟨name, nonempty, bare⟩ := regular.words e listed
  have line : rewrite c.data (.enum e.2) = [⟨e.1, e.2 != default⟩] := by
    rw [data, rewrite, name]
  refine restored_line line (spells_word (.plain (plain_of_bare nonempty bare))) ?_ rfl ?_
  · rw [applyArgs_single single, data]
    simp only [setConfig, configEnumGetValue_name regular listed]
  · intro idle
    have same : e.2 = default := by simpa using idle
    rw [data, same]
    rfl

theorem restored_numeric {n : Numeric} {v : ℤ} (data : c.data = .numeric n)
    (single : c.multiArg = false) (regular : RegularNumeric n)
    (formed : WellFormed sys c.data (.numeric v)) (carried : Carried c.data (.numeric v)) :
    Restored sys c (.numeric v) := by
  rw [data] at formed carried
  obtain ⟨bounds, low, high⟩ := formed
  have word : Word (numericText n v) (numericText n v) :=
    .plain (plain_numericText n v)
  refine restored_line (by rw [data]; rfl) (spells_word word) ?_ rfl ?_
  · rw [applyArgs_single single, data]
    simp only [setConfig, numericParseString_numericText regular bounds low high carried, bounds]
  · intro idle
    have same : v = n.default := by
      simp only [bne_eq_false_iff_eq] at idle
      split_ifs at idle with percent
      · have zero := (regular.percent percent.1).2.1
        omega
      · exact idle
    rw [data, same]
    rfl

theorem restored_dir {path : Bytes} (data : c.data = .dir) (single : c.multiArg = false)
    (formed : WellFormed sys c.data (.dir path)) (carried : Carried c.data (.dir path)) :
    Restored sys c (.dir path) := by
  rw [data] at formed carried
  obtain ⟨nonempty, noNul, enters⟩ := formed
  have whole := cString_eq_self noNul
  have short : path.length < 1024 := carried
  have line : rewrite c.data (.dir path) = [⟨sdscatrepr [] (cString path), true⟩] := by
    rw [data, rewrite, if_pos short]
  refine restored_line line (spells_word (.quoted _)) ?_ rfl ?_
  · rw [applyArgs_single single, data, whole]
    simp only [setConfig, whole, if_neg nonempty, enters]
  · intro idle
    cases idle

end Types

section Several
variable {sys : System} {c : StandardConfig}

def saveArgs (params : List (ℤ × ℤ)) : List Bytes :=
  params.flatMap fun p => [signedDecimal p.1, signedDecimal p.2]

theorem saveArgs_cons (p : ℤ × ℤ) (params : List (ℤ × ℤ)) :
    saveArgs (p :: params) = signedDecimal p.1 :: signedDecimal p.2 :: saveArgs params := rfl

theorem strtoll_signedDecimal {v : ℤ} (nonneg : 0 ≤ v) (high : v ≤ llongMax) :
    strtoll 10 (signedDecimal v) = ⟨v, [], false⟩ := by
  obtain ⟨m, rfl⟩ := Int.eq_ofNat_of_zero_le nonneg
  rw [signedDecimal, if_neg (by omega), Int.natAbs_natCast, strtoll_decimal high]

theorem toInt32_self {z : ℤ} (nonneg : 0 ≤ z) (small : z < 2 ^ 31) : toInt32 z = z := by
  unfold toInt32
  omega

variable {params : List (ℤ × ℤ)}
  (formed : ∀ p ∈ params, 1 ≤ p.1 ∧ p.1 ≤ llongMax ∧ p.2 < 2 ^ 31)
  (carried : ∀ p ∈ params, 0 ≤ p.2)

include formed carried in
theorem saveParams_saveArgs : saveParams (saveArgs params) = params := by
  induction params with
  | nil => rfl
  | cons p params ih =>
    obtain ⟨⟨least, most, small⟩, formed⟩ := List.forall_mem_cons.mp formed
    obtain ⟨changes, carried⟩ := List.forall_mem_cons.mp carried
    have seconds := strtoll_signedDecimal (by omega) most
    have count := strtoll_signedDecimal changes (by simp only [llongMax]; omega)
    rw [saveArgs_cons, saveParams, seconds, count, ih formed carried, toInt32_self changes small]

include formed carried in
theorem saveArgs_valid {k : ℕ} (even : k % 2 = 0) :
    ((saveArgs params).zipIdx k).all (fun a => validSaveArg a.2 a.1) = true := by
  induction params generalizing k with
  | nil => rfl
  | cons p params ih =>
    obtain ⟨⟨least, most, small⟩, formed⟩ := List.forall_mem_cons.mp formed
    obtain ⟨changes, carried⟩ := List.forall_mem_cons.mp carried
    have seconds := strtoll_signedDecimal (by omega) most
    have count := strtoll_signedDecimal changes (by simp only [llongMax]; omega)
    have first : validSaveArg k (signedDecimal p.1) = true := by
      simp [validSaveArg, seconds, even, least]
    have second : validSaveArg (k + 1) (signedDecimal p.2) = true := by
      have odd : (k + 1) % 2 = 1 := by omega
      simp [validSaveArg, count, odd, changes]
    rw [saveArgs_cons, List.zipIdx_cons, List.zipIdx_cons, List.all_cons, List.all_cons, first,
      second, ih formed carried (by omega)]
    rfl

theorem saveArgs_length (params : List (ℤ × ℤ)) : (saveArgs params).length = 2 * params.length := by
  induction params with
  | nil => rfl
  | cons p params ih =>
    rw [saveArgs_cons, List.length_cons, List.length_cons, ih, List.length_cons]
    omega

theorem plain_saveArgs (params : List (ℤ × ℤ)) : ∀ w ∈ saveArgs params, Plain w := by
  intro w listed
  obtain ⟨p, -, own⟩ := List.mem_flatMap.mp listed
  simp only [List.mem_cons, List.not_mem_nil, or_false] at own
  rcases own with rfl | rfl <;> exact plain_signedDecimal _

theorem restored_save (data : c.data = .save) (several : c.multiArg = true) {loaded : Bool}
    {params : List (ℤ × ℤ)} (formed : WellFormed sys c.data (.save loaded params))
    (carried : Carried c.data (.save loaded params)) : Restored sys c (.save loaded params) := by
  rw [data] at formed carried
  cases params with
  | nil =>
    have line : rewrite c.data (.save loaded []) = [⟨sdscatrepr [] [], true⟩] := by
      rw [data]
      rfl
    have sets : applyArgs sys c [[]] (defaultValue sys c.data) = .ok (.save true []) := by
      simp only [applyArgs, several, data]
      rfl
    exact restored_line line (spells_word (.quoted [])) sets rfl fun idle => by cases idle
  | cons p params =>
    have line : rewrite c.data (.save loaded (p :: params)) =
        [⟨spaced (saveArgs (p :: params)), true⟩] := by
      rw [data]
      rfl
    have many : isEmptySave (saveArgs (p :: params)) = false := rfl
    have even : ¬ (saveArgs (p :: params)).length % 2 = 1 := by
      rw [saveArgs_length]
      omega
    have applied : applyArgs sys c (saveArgs (p :: params)) (defaultValue sys c.data) =
        setConfig sys c.data (saveArgs (p :: params)) (defaultValue sys c.data) := by
      simp only [applyArgs, several, saveArgs_cons]
    have sets : applyArgs sys c (saveArgs (p :: params)) (defaultValue sys c.data) =
        .ok (.save true (p :: params)) := by
      rw [applied, data, defaultValue, setConfig, setSave, many, if_neg Bool.false_ne_true,
        addSaveParams, if_neg even, if_pos (saveArgs_valid formed carried (Nat.zero_mod 2)),
        saveParams_saveArgs formed carried]
      rfl
    have spells := spells_plain (List.cons_ne_nil _ _) (plain_saveArgs (p :: params))
    exact restored_line line spells sets rfl fun idle => by cases idle

theorem restored_bind (data : c.data = .bind) (several : c.multiArg = true) {addresses : List Bytes}
    (formed : WellFormed sys c.data (.bind addresses))
    (carried : Carried c.data (.bind addresses)) :
    Restored sys c (.bind addresses) := by
  rw [data] at formed carried
  by_cases default : addresses = defaultBindAddresses
  · refine restored_nothing (by rw [data, rewrite, if_pos default]) ?_
    rw [data, default]
    rfl
  rcases addresses with _ | ⟨a, addresses⟩
  · have line : rewrite c.data (.bind []) = [⟨sdscatrepr [] [], true⟩] := by
      rw [data]
      rfl
    have sets : applyArgs sys c [[]] (defaultValue sys c.data) = .ok (.bind []) := by
      simp only [applyArgs, several, data]
      rfl
    exact restored_line line (spells_word (.quoted [])) sets rfl fun idle => by cases idle
  · have line : rewrite c.data (.bind (a :: addresses)) = [⟨spaced (a :: addresses), true⟩] := by
      rw [data, rewrite, if_neg default, if_neg (List.cons_ne_nil _ _)]
    have plain : Plain a := carried a List.mem_cons_self
    have first : a ≠ [] := by
      obtain ⟨b, rest, rfl, -⟩ := plain.begins
      exact List.cons_ne_nil b rest
    have noNul : ∀ w ∈ a :: addresses, cString w = w := fun w listed =>
      cString_eq_self (inline_of_ordinary (carried w listed).ordinary).1
    have split : sdssplitargs a = some [a] := by
      rw [sdssplitargs_eq (inline_of_ordinary plain.ordinary).1, tokensOf_plain plain]
    -- a single address is split once more, and is plain
    have applied : applyArgs sys c (a :: addresses) (defaultValue sys c.data) =
        setConfig sys c.data (a :: addresses) (defaultValue sys c.data) := by
      cases addresses with
      | nil => simp only [applyArgs, several, if_neg first, split, Option.getD_some]
      | cons => simp only [applyArgs, several]
    have sets : applyArgs sys c (a :: addresses) (defaultValue sys c.data) =
        .ok (.bind (a :: addresses)) := by
      rw [applied, data, setConfig, if_neg (not_lt.mpr formed), if_neg (by simp [first]),
        List.map_congr_left noNul, List.map_id']
    exact restored_line line (spells_plain (List.cons_ne_nil _ _) carried) sets rfl
      fun idle => by cases idle

end Several

section Limits
variable {sys : System} {c : StandardConfig}

theorem spells_limitsText (kind : ClientClass) (l : BufferLimits) :
    Spells (limitsText kind l) [className kind, formatMemory (toSigned l.hard),
      formatMemory (toSigned l.soft), signedDecimal l.softSeconds] := by
  have name : Plain (className kind) :=
    plain_of_bare (by cases kind <;> decide) (by cases kind <;> rfl)
  refine spells_plain (List.cons_ne_nil _ _) fun w listed => ?_
  simp only [List.mem_cons, List.not_mem_nil, or_false] at listed
  rcases listed with rfl | rfl | rfl | rfl
  · exact name
  · exact plain_formatMemory _
  · exact plain_formatMemory _
  · exact plain_signedDecimal _

theorem setText_limitsText (data : c.data = .limits) (several : c.multiArg = true)
    (kind : ClientClass)
    {l : BufferLimits} (seconds : 0 ≤ l.softSeconds ∧ l.softSeconds < 2 ^ 31)
    (amounts : l.hard < 2 ^ 63 ∧ l.soft < 2 ^ 63) (f : ClientClass → BufferLimits) :
    setText sys c (limitsText kind l) (.limits f) =
      .ok (.limits fun k => if k = kind then l else f k) := by
  have known : clientClass (className kind) = some kind := by cases kind <;> decide
  have waits := strtoll_signedDecimal seconds.1 (by simp only [llongMax]; omega)
  have cut := toInt32_self seconds.1 seconds.2
  rw [setText_spells (spells_limitsText kind l), toSigned_nat amounts.1, toSigned_nat amounts.2]
  simp only [applyArgs, several, data, setConfig, List.length_cons, List.length_nil, updateLimits,
    known, memtoull_formatMemory_nat amounts.1, memtoull_formatMemory_nat amounts.2, waits, cut,
    not_lt.mpr seconds.1]
  rfl

theorem limits_fold (data : c.data = .limits) (several : c.multiArg = true)
    {limits : ClientClass → BufferLimits} (formed : WellFormed sys .limits (.limits limits))
    (carried : Carried .limits (.limits limits)) {classes : List ClientClass}
    (distinct : classes.Nodup) (n : ℕ) {f : ClientClass → BufferLimits}
    (fresh : ∀ k ∈ classes, f k = clientBufferLimitsDefaults k) :
    (emitted n (classes.map fun k =>
        (limitsText k (limits k), limits k != clientBufferLimitsDefaults k))).foldlM
      (fun old text => setText sys c text old) (.limits f) =
      .ok (.limits fun k => if k ∈ classes then limits k else f k) := by
  induction classes generalizing n f with
  | nil => simp [emitted, pure, Except.pure]
  | cons k classes ih =>
    obtain ⟨outside, distinct⟩ := List.nodup_cons.mp distinct
    have sets : setText sys c (limitsText k (limits k)) (.limits f) =
        .ok (.limits fun j => if j = k then limits k else f j) :=
      setText_limitsText data several k (formed k) (carried k) f
    have written (m : ℕ) : (limitsText k (limits k) :: emitted m (classes.map fun k =>
        (limitsText k (limits k), limits k != clientBufferLimitsDefaults k))).foldlM
          (fun old text => setText sys c text old) (.limits f) =
        .ok (.limits fun j => if j ∈ k :: classes then limits j else f j) := by
      have later := ih distinct m (f := fun j => if j = k then limits k else f j) fun j listed => by
        have other : j ≠ k := fun same => outside (same ▸ listed)
        rw [if_neg other, fresh j (List.mem_cons_of_mem k listed)]
      rw [List.foldlM_cons, sets]
      refine Eq.trans later (congrArg (fun g => Except.ok (Value.limits g)) (funext fun j => ?_))
      by_cases same : j = k
      · simp [same]
      · simp [same]
    rw [List.map_cons]
    cases n with
    | succ n => exact written n
    | zero =>
      rw [emitted]
      split_ifs with force
      · exact written 0
      · have idle : limits k = f k := by
          rw [fresh k List.mem_cons_self]
          simpa using force
        rw [ih distinct 0 fun j listed => fresh j (List.mem_cons_of_mem k listed)]
        refine congrArg (fun g => Except.ok (Value.limits g)) (funext fun j => ?_)
        by_cases same : j = k
        · simp [same, outside, idle]
        · simp [same]

theorem restored_limits (data : c.data = .limits) (several : c.multiArg = true)
    {limits : ClientClass → BufferLimits} (formed : WellFormed sys c.data (.limits limits))
    (carried : Carried c.data (.limits limits)) : Restored sys c (.limits limits) := by
  rw [data] at formed carried
  have spelled : ∀ r ∈ rewrite c.data (.limits limits), ∃ args, Spells r.text args := by
    intro r listed
    rw [data] at listed
    obtain ⟨kind, -, rfl⟩ := List.mem_map.mp listed
    exact ⟨_, spells_limitsText kind (limits kind)⟩
  refine ⟨spelled, fun n => ⟨.limits limits, ?_, rfl⟩⟩
  have distinct : [ClientClass.normal, .replica, .pubsub].Nodup := by decide
  have read := limits_fold data several formed carried distinct n
    (f := clientBufferLimitsDefaults) fun _ _ => rfl
  have all : (fun k => if k ∈ [ClientClass.normal, .replica, .pubsub] then limits k
      else clientBufferLimitsDefaults k) = limits := by
    funext k
    cases k <;> rfl
  rw [all] at read
  rw [data]
  exact read

/-- Whatever is well formed and carried by its lines is restored. -/
theorem rewrite_restored (regular : Regular c) {v : Value} (formed : WellFormed sys c.data v)
    (carried : Carried c.data v) : Restored sys c v := by
  have multi := regular.multiArg
  have kind := regular.data
  cases data : c.data with
  | yesno default =>
    cases v with
    | yesno on => exact restored_yesno data (by rw [multi, data]; rfl) on
    | _ => rw [data] at formed; cases formed
  | string nullable default isValid =>
    cases v with
    | text s =>
      cases s with
      | none => exact restored_null rfl formed
      | some s => exact restored_string data (by rw [multi, data]; rfl) formed
    | _ => rw [data] at formed; cases formed
  | sds nullable default =>
    cases v with
    | text s =>
      cases s with
      | none => exact restored_null rfl formed
      | some s => exact restored_sds data (by rw [multi, data]; rfl) formed carried
    | _ => rw [data] at formed; cases formed
  | enum names default =>
    cases v with
    | enum n =>
      rw [data] at kind
      exact restored_enum data (by rw [multi, data]; rfl) kind.1 formed
    | _ => rw [data] at formed; cases formed
  | numeric n =>
    cases v with
    | numeric v =>
      rw [data] at kind
      exact restored_numeric data (by rw [multi, data]; rfl) kind formed carried
    | _ => rw [data] at formed; cases formed
  | save =>
    cases v with
    | save loaded params => exact restored_save data (by rw [multi, data]; rfl) formed carried
    | _ => rw [data] at formed; cases formed
  | bind =>
    cases v with
    | bind addresses => exact restored_bind data (by rw [multi, data]; rfl) formed carried
    | _ => rw [data] at formed; cases formed
  | limits =>
    cases v with
    | limits f => exact restored_limits data (by rw [multi, data]; rfl) formed carried
    | _ => rw [data] at formed; cases formed
  | dir =>
    cases v with
    | dir path => exact restored_dir data (by rw [multi, data]; rfl) formed carried
    | _ => rw [data] at formed; cases formed

end Limits

end LempStack.ValkeyRestore
