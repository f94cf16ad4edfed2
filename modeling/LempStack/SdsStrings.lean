import Mathlib.Data.List.Basic
import Mathlib.Data.List.DropRight
import Mathlib.Data.List.Forall2

/-! Byte strings of the Valkey server as `sds.c` handles them: quoting with
`sdscatrepr`, splitting a line into arguments with `sdssplitargs`, trimming, and
splitting at line feeds. Character classes are those of the C locale, which the server
keeps for them. -/

namespace LempStack.SdsStrings

abbrev Bytes := List UInt8

def byte (c : Char) : UInt8 := UInt8.ofNat c.toNat

def bytes (s : String) : Bytes := s.toByteArray.data.toList

def isspace (b : UInt8) : Bool := b == 0x20 || (decide (0x09 ≤ b) && decide (b ≤ 0x0d))

def isprint (b : UInt8) : Bool := decide (0x20 ≤ b) && decide (b ≤ 0x7e)

/-- What a C function reads of the bytes: those ahead of the first NUL. -/
def cString (s : Bytes) : Bytes := s.takeWhile (· ≠ 0)

def tolower (b : UInt8) : UInt8 := if byte 'A' ≤ b ∧ b ≤ byte 'Z' then b + 0x20 else b

def sameCaseless (a b : Bytes) : Bool := (cString a).map tolower == (cString b).map tolower

section Quoting

def hexDigit (n : ℕ) : UInt8 := UInt8.ofNat (if n < 10 then 0x30 + n else 0x57 + n)

def reprByte (b : UInt8) : Bytes :=
  if b = byte '\\' ∨ b = byte '"' then [byte '\\', b]
  else if b = byte '\n' then [byte '\\', byte 'n']
  else if b = byte '\r' then [byte '\\', byte 'r']
  else if b = byte '\t' then [byte '\\', byte 't']
  else if b = 0x07 then [byte '\\', byte 'a']
  else if b = 0x08 then [byte '\\', byte 'b']
  else if isprint b then [b]
  else [byte '\\', byte 'x', hexDigit (b.toNat / 16), hexDigit (b.toNat % 16)]

def sdscatrepr (s p : Bytes) : Bytes := s ++ byte '"' :: (p.flatMap reprByte ++ [byte '"'])

def sdsneedsrepr (s : Bytes) : Bool :=
  s.any fun b => b = byte '\\' || b = byte '"' || b = byte '\n' || b = byte '\r' || b = byte '\t' ||
    b = 0x07 || b = 0x08 || !isprint b || isspace b

end Quoting

section Splitting

def isHexDigit (b : UInt8) : Bool :=
  (decide (byte '0' ≤ b) && decide (b ≤ byte '9')) ||
    (decide (byte 'a' ≤ b) && decide (b ≤ byte 'f')) ||
    (decide (byte 'A' ≤ b) && decide (b ≤ byte 'F'))

def hexDigitToInt (b : UInt8) : ℕ :=
  if byte '0' ≤ b ∧ b ≤ byte '9' then b.toNat - 0x30
  else if byte 'a' ≤ b ∧ b ≤ byte 'f' then b.toNat - 0x57
  else if byte 'A' ≤ b ∧ b ≤ byte 'F' then b.toNat - 0x37
  else 0

def unescape (b : UInt8) : UInt8 :=
  if b = byte 'n' then byte '\n'
  else if b = byte 'r' then byte '\r'
  else if b = byte 't' then byte '\t'
  else if b = byte 'b' then 0x08
  else if b = byte 'a' then 0x07
  else b

/-- A closing quote must be followed by a space or nothing at all. -/
def closes : Bytes → Bool
  | [] => true
  | b :: _ => isspace b

def readQuoted (current : Bytes) : Bytes → Option (Bytes × Bytes)
  | [] => none
  | b :: rest =>
    if b = byte '\\' then
      match rest with
      | [] => none
      | c :: h :: l :: after =>
        if c = byte 'x' ∧ isHexDigit h ∧ isHexDigit l then
          readQuoted (current ++ [UInt8.ofNat (hexDigitToInt h * 16 + hexDigitToInt l)]) after
        else readQuoted (current ++ [unescape c]) (h :: l :: after)
      | c :: more => readQuoted (current ++ [unescape c]) more
    else if b = byte '"' then if closes rest then some (current, rest) else none
    else readQuoted (current ++ [b]) rest

def readSingle (current : Bytes) : Bytes → Option (Bytes × Bytes)
  | [] => none
  | [b] => if b = byte '\'' then some (current, []) else none
  | b :: c :: rest =>
    if b = byte '\\' ∧ c = byte '\'' then readSingle (current ++ [byte '\'']) rest
    else if b = byte '\'' then if closes (c :: rest) then some (current, c :: rest) else none
    else readSingle (current ++ [b]) (c :: rest)

def endsToken (b : UInt8) : Bool :=
  b == byte ' ' || b == byte '\n' || b == byte '\r' || b == byte '\t'

def readToken (current : Bytes) : Bytes → Option (Bytes × Bytes)
  | [] => some (current, [])
  | b :: rest =>
    if endsToken b then some (current, rest)
    else if b = byte '"' then readQuoted current rest
    else if b = byte '\'' then readSingle current rest
    else readToken (current ++ [b]) rest

/-- Every token takes a byte, so a line has enough with its length. -/
def splitTokens : ℕ → Bytes → Option (List Bytes)
  | 0, _ => none
  | n + 1, line =>
    match line.dropWhile isspace with
    | [] => some []
    | b :: rest =>
      match readToken [] (b :: rest) with
      | none => none
      | some (token, after) => (splitTokens n after).map (token :: ·)

def sdssplitargs (line : Bytes) : Option (List Bytes) :=
  splitTokens ((cString line).length + 1) (cString line)

/-- `strchr` also finds the NUL at the end of the set. -/
def inSet (cset : Bytes) (b : UInt8) : Bool := b == 0 || cset.contains b

def sdstrim (s cset : Bytes) : Bytes := (s.dropWhile (inSet cset)).rdropWhile (inSet cset)

def sdssplitlen (s : Bytes) (sep : UInt8) : List Bytes := if s.isEmpty then [] else s.splitOn sep

end Splitting

section Lengths

theorem readQuoted_length {current line token rest : Bytes}
    (read : readQuoted current line = some (token, rest)) :
    current.length ≤ token.length ∧ token.length + rest.length < current.length + line.length := by
  fun_induction readQuoted current line with
  | case1 | case2 | case7 => cases read
  | case6 =>
    cases read
    exact ⟨le_refl _, Nat.lt_succ_self _⟩
  | case3 | case4 | case5 | case8 =>
    rename_i ih
    have shorter := ih read
    simp only [List.length_cons, List.length_append, List.length_nil] at shorter ⊢
    omega

theorem readSingle_length {current line token rest : Bytes}
    (read : readSingle current line = some (token, rest)) :
    current.length ≤ token.length ∧ token.length + rest.length < current.length + line.length := by
  fun_induction readSingle current line with
  | case1 | case3 | case6 => cases read
  | case2 | case5 =>
    cases read
    exact ⟨le_refl _, Nat.lt_succ_self _⟩
  | case4 | case7 =>
    rename_i ih
    have shorter := ih read
    simp only [List.length_cons, List.length_append, List.length_nil] at shorter ⊢
    omega

theorem readQuoted_shorter {current line token rest : Bytes}
    (read : readQuoted current line = some (token, rest)) : rest.length < line.length := by
  have lengths := readQuoted_length read
  omega

theorem readSingle_shorter {current line token rest : Bytes}
    (read : readSingle current line = some (token, rest)) : rest.length < line.length := by
  have lengths := readSingle_length read
  omega

theorem readToken_length_le {current line token rest : Bytes}
    (read : readToken current line = some (token, rest)) : rest.length ≤ line.length := by
  fun_induction readToken current line with
  | case1 =>
    cases read
    exact le_refl _
  | case2 =>
    cases read
    exact Nat.le_succ _
  | case3 => exact Nat.le_succ_of_le (readQuoted_shorter read).le
  | case4 => exact Nat.le_succ_of_le (readSingle_shorter read).le
  | case5 current b rest ends quoted single ih => exact Nat.le_succ_of_le (ih read)

theorem readToken_length {current token rest : Bytes} {b : UInt8} {line : Bytes}
    (read : readToken current (b :: line) = some (token, rest)) :
    rest.length < (b :: line).length := by
  rw [readToken] at read
  refine Nat.lt_succ_of_le ?_
  split_ifs at read with ends quoted single
  · cases read
    exact le_refl _
  · exact (readQuoted_shorter read).le
  · exact (readSingle_shorter read).le
  · exact readToken_length_le read

theorem splitTokens_fuel {n m : ℕ} {line : Bytes} (hn : line.length < n) (hm : line.length < m) :
    splitTokens n line = splitTokens m line := by
  induction n generalizing m line with
  | zero => cases hn
  | succ n ih =>
    obtain ⟨m, rfl⟩ := Nat.exists_eq_succ_of_ne_zero (Nat.ne_zero_of_lt hm)
    have dropped := (List.dropWhile_sublist isspace (l := line)).length_le
    unfold splitTokens
    cases left : line.dropWhile isspace with
    | nil => rfl
    | cons b rest =>
      rw [left] at dropped
      dsimp only
      cases read : readToken [] (b :: rest) with
      | none => rfl
      | some result =>
        obtain ⟨token, after⟩ := result
        have shorter := readToken_length read
        dsimp only
        rw [ih (m := m) (by omega) (by omega)]

end Lengths

section Tokens

def tokensOf (line : Bytes) : Option (List Bytes) := splitTokens (line.length + 1) line

theorem cString_eq_self {s : Bytes} (noNul : 0 ∉ s) : cString s = s := by
  refine List.takeWhile_eq_self_iff.mpr fun b listed => ?_
  simpa using fun nul : b = 0 => noNul (nul ▸ listed)

theorem cString_noNul (s : Bytes) : 0 ∉ cString s := fun listed => by
  simpa using List.mem_takeWhile_imp listed

theorem sdssplitargs_eq {line : Bytes} (noNul : 0 ∉ line) : sdssplitargs line = tokensOf line := by
  rw [sdssplitargs, cString_eq_self noNul, tokensOf]

theorem tokensOf_nil : tokensOf [] = some [] := rfl

theorem tokensOf_space {b : UInt8} (space : isspace b = true) (line : Bytes) :
    tokensOf (b :: line) = tokensOf line := by
  have skipped : splitTokens (line.length + 2) (b :: line) =
      splitTokens (line.length + 2) line := by
    rw [splitTokens, splitTokens, List.dropWhile_cons_of_pos space]
  rw [tokensOf, List.length_cons, skipped, tokensOf]
  exact splitTokens_fuel (by omega) (by omega)

theorem tokensOf_token {b : UInt8} {line : Bytes} (solid : isspace b = false) :
    tokensOf (b :: line) =
      (readToken [] (b :: line)).bind fun read => (tokensOf read.2).map (read.1 :: ·) := by
  rw [tokensOf, splitTokens, List.dropWhile_cons_of_neg (by simp [solid])]
  dsimp only
  cases read : readToken [] (b :: line) with
  | none => rfl
  | some result =>
    obtain ⟨token, rest⟩ := result
    have shorter := readToken_length read
    dsimp only [Option.bind_some]
    rw [tokensOf, splitTokens_fuel (m := rest.length + 1) (by simpa using shorter) (by omega)]

end Tokens

section Plain

def ordinary (b : UInt8) : Bool :=
  !endsToken b && b != byte '"' && b != byte '\'' && b != 0

/-- A string that is read as one argument, itself. -/
structure Plain (w : Bytes) : Prop where
  begins : ∃ b rest, w = b :: rest ∧ isspace b = false
  ordinary : ∀ b ∈ w, ordinary b = true

instance : DecidablePred Plain
  | [] => .isFalse fun plain => by obtain ⟨b, rest, split, -⟩ := plain.begins; cases split
  | b :: rest => decidable_of_iff (isspace b = false ∧ (b :: rest).all ordinary = true)
    ⟨fun ⟨first, all⟩ => ⟨⟨b, rest, rfl, first⟩, List.all_eq_true.mp all⟩, fun plain => by
      obtain ⟨c, others, split, first⟩ := plain.begins
      cases split
      exact ⟨first, List.all_eq_true.mpr plain.ordinary⟩⟩

theorem readToken_ordinary {w : Bytes} (all : ∀ b ∈ w, ordinary b = true) (current rest : Bytes) :
    readToken current (w ++ rest) = readToken (current ++ w) rest := by
  induction w generalizing current with
  | nil => rw [List.nil_append, List.append_nil]
  | cons b w ih =>
    have own := all b List.mem_cons_self
    simp only [ordinary, Bool.and_eq_true, Bool.not_eq_true', bne_iff_ne, ne_eq] at own
    rw [List.cons_append, readToken, if_neg (by simp [own.1.1.1]), if_neg own.1.1.2,
      if_neg own.1.2, ih (fun c listed => all c (List.mem_cons_of_mem b listed)),
      List.append_assoc, List.singleton_append]

theorem tokensOf_plain_append {w : Bytes} (plain : Plain w) {sep : UInt8}
    (ends : endsToken sep = true) (rest : Bytes) :
    tokensOf (w ++ sep :: rest) = (tokensOf rest).map (w :: ·) := by
  obtain ⟨b, tail, rfl, solid⟩ := plain.begins
  have read : readToken [] (b :: tail ++ sep :: rest) = some (b :: tail, rest) := by
    rw [readToken_ordinary plain.ordinary, readToken, if_pos ends, List.nil_append]
  rw [List.cons_append] at read ⊢
  rw [tokensOf_token solid, read, Option.bind_some]

theorem tokensOf_plain {w : Bytes} (plain : Plain w) : tokensOf w = some [w] := by
  obtain ⟨b, tail, rfl, solid⟩ := plain.begins
  have read := readToken_ordinary plain.ordinary [] []
  rw [List.append_nil, List.nil_append, readToken] at read
  rw [tokensOf_token solid, read, Option.bind_some, tokensOf_nil, Option.map_some]

end Plain

section Quoted

theorem hexDigit_read : ∀ i : Fin 16,
    isHexDigit (hexDigit i) = true ∧ hexDigitToInt (hexDigit i) = i ∧
      isprint (hexDigit i) = true := by
  decide

theorem readQuoted_cons {b : UInt8} (other : b ≠ byte '\\') (current rest : Bytes) :
    readQuoted current (b :: rest) =
      if b = byte '"' then if closes rest then some (current, rest) else none
      else readQuoted (current ++ [b]) rest := by
  rw [readQuoted.eq_def]
  exact if_neg other

theorem readQuoted_escape {c : UInt8} (other : c ≠ byte 'x') (current rest : Bytes) :
    readQuoted current (byte '\\' :: c :: rest) = readQuoted (current ++ [unescape c]) rest := by
  rcases rest with _ | ⟨h, _ | ⟨l, after⟩⟩ <;> simp [readQuoted, other]

theorem readQuoted_hex (current rest : Bytes) (b : UInt8) :
    readQuoted current (byte '\\' :: byte 'x' :: hexDigit (b.toNat / 16) ::
      hexDigit (b.toNat % 16) :: rest) = readQuoted (current ++ [b]) rest := by
  have bound : b.toNat < 256 := b.toNat_lt
  have high := hexDigit_read ⟨b.toNat / 16, by omega⟩
  have low := hexDigit_read ⟨b.toNat % 16, by omega⟩
  have value : UInt8.ofNat (b.toNat / 16 * 16 + b.toNat % 16) = b := by
    rw [Nat.div_add_mod']
    exact UInt8.ofNat_toNat
  rw [readQuoted, if_pos rfl]
  dsimp only at high low ⊢
  rw [if_pos ⟨rfl, high.1, low.1⟩, high.2.1, low.2.1, value]

theorem readQuoted_reprByte (current rest : Bytes) (b : UInt8) :
    readQuoted current (reprByte b ++ rest) = readQuoted (current ++ [b]) rest := by
  unfold reprByte
  split_ifs with special feed carriage tab bell back print
  · have other : b ≠ byte 'x' ∧ unescape b = b := by
      rcases special with rfl | rfl <;> decide
    rw [List.cons_append, List.singleton_append, readQuoted_escape other.1, other.2]
  · subst feed
    exact readQuoted_escape (by decide) current rest
  · subst carriage
    exact readQuoted_escape (by decide) current rest
  · subst tab
    exact readQuoted_escape (by decide) current rest
  · subst bell
    exact readQuoted_escape (by decide) current rest
  · subst back
    exact readQuoted_escape (by decide) current rest
  · rw [not_or] at special
    rw [List.singleton_append, readQuoted_cons special.1, if_neg special.2]
  · exact readQuoted_hex current rest b

theorem readQuoted_repr (current p rest : Bytes) (closed : closes rest = true) :
    readQuoted current (p.flatMap reprByte ++ byte '"' :: rest) = some (current ++ p, rest) := by
  induction p generalizing current with
  | nil =>
    rw [List.flatMap_nil, List.nil_append, readQuoted_cons (by decide), if_pos rfl, if_pos closed,
      List.append_nil]
  | cons b p ih =>
    rw [List.flatMap_cons, List.append_assoc, readQuoted_reprByte, ih, List.append_assoc,
      List.singleton_append]

/-- A quoted string is the first argument of a line that goes on with a blank or ends. -/
theorem tokensOf_repr_append (p rest : Bytes) (closed : closes rest = true) :
    tokensOf (sdscatrepr [] p ++ rest) = (tokensOf rest).map (p :: ·) := by
  have opened : sdscatrepr [] p ++ rest = byte '"' :: (p.flatMap reprByte ++ byte '"' :: rest) := by
    simp [sdscatrepr]
  have read : readToken [] (byte '"' :: (p.flatMap reprByte ++ byte '"' :: rest)) =
      some (p, rest) := by
    rw [readToken, if_neg (by decide), if_pos rfl, readQuoted_repr [] p rest closed,
      List.nil_append]
  rw [opened, tokensOf_token (by decide), read, Option.bind_some]

theorem reprByte_isprint (b : UInt8) : (reprByte b).all isprint = true := by
  have bound : b.toNat < 256 := b.toNat_lt
  have high := (hexDigit_read ⟨b.toNat / 16, by omega⟩).2.2
  have low := (hexDigit_read ⟨b.toNat % 16, by omega⟩).2.2
  unfold reprByte
  split_ifs with special feed carriage tab bell back print
  · rcases special with rfl | rfl <;> rfl
  · rfl
  · rfl
  · rfl
  · rfl
  · rfl
  · rw [List.all_cons, print]
    rfl
  · rw [List.all_cons, List.all_cons, List.all_cons, List.all_cons, high, low]
    rfl

theorem sdscatrepr_isprint (p : Bytes) : (sdscatrepr [] p).all isprint = true := by
  have inner : (p.flatMap reprByte).all isprint = true := by
    rw [List.all_flatMap]
    exact List.all_eq_true.mpr fun b _ => reprByte_isprint b
  rw [sdscatrepr, List.nil_append, List.all_cons, List.all_append, inner]
  rfl

end Quoted

section Words

def Inline (s : Bytes) : Prop := 0 ∉ s ∧ byte '\n' ∉ s

/-- How an argument can stand on a line. -/
inductive Word : Bytes → Bytes → Prop
  | plain {a : Bytes} (plain : Plain a) : Word a a
  | quoted (a : Bytes) : Word (sdscatrepr [] a) a

variable {w a : Bytes}

theorem Word.tokensOf_append (word : Word w a) (rest : Bytes) :
    tokensOf (w ++ byte ' ' :: rest) = (tokensOf rest).map (a :: ·) := by
  cases word with
  | plain plain => exact tokensOf_plain_append plain rfl rest
  | quoted => rw [tokensOf_repr_append _ _ rfl, tokensOf_space (by decide)]

theorem Word.tokensOf_self (word : Word w a) : tokensOf w = some [a] := by
  cases word with
  | plain plain => exact tokensOf_plain plain
  | quoted =>
    have read := tokensOf_repr_append a [] rfl
    rwa [List.append_nil, tokensOf_nil, Option.map_some] at read

theorem inline_of_ordinary {s : Bytes} (all : ∀ b ∈ s, ordinary b = true) : Inline s :=
  ⟨fun nul => absurd (all 0 nul) (by decide), fun feed => absurd (all _ feed) (by decide)⟩

theorem inline_of_isprint {s : Bytes} (all : s.all isprint = true) : Inline s := by
  rw [List.all_eq_true] at all
  exact ⟨fun nul => absurd (all 0 nul) (by decide), fun feed => absurd (all _ feed) (by decide)⟩

theorem Word.inline (word : Word w a) : Inline w := by
  cases word with
  | plain plain => exact inline_of_ordinary plain.ordinary
  | quoted => exact inline_of_isprint (sdscatrepr_isprint a)

theorem Inline.subset {s t : Bytes} (inline : Inline t) (part : s ⊆ t) : Inline s :=
  ⟨fun nul => inline.1 (part nul), fun feed => inline.2 (part feed)⟩

theorem Inline.append {s t : Bytes} (hs : Inline s) (ht : Inline t) : Inline (s ++ t) := by
  simp only [Inline, List.mem_append, not_or]
  exact ⟨⟨hs.1, ht.1⟩, hs.2, ht.2⟩

def spaced (ws : List Bytes) : Bytes := [byte ' '].intercalate ws

theorem spaced_singleton (w : Bytes) : spaced [w] = w := by simp [spaced, List.intercalate]

theorem spaced_cons_cons (w w' : Bytes) (ws : List Bytes) :
    spaced (w :: w' :: ws) = w ++ byte ' ' :: spaced (w' :: ws) := by
  simp [spaced, List.intercalate]

variable {ws args : List Bytes}

theorem tokensOf_spaced (words : List.Forall₂ Word ws args) : tokensOf (spaced ws) = some args := by
  induction words with
  | nil => rfl
  | cons word words ih =>
    cases words with
    | nil => rw [spaced_singleton, word.tokensOf_self]
    | cons =>
      rw [spaced_cons_cons, word.tokensOf_append, ih, Option.map_some]

theorem spaced_inline (words : List.Forall₂ Word ws args) : Inline (spaced ws) := by
  induction words with
  | nil => exact ⟨List.not_mem_nil, List.not_mem_nil⟩
  | cons word words ih =>
    cases words with
    | nil => rw [spaced_singleton]; exact word.inline
    | cons =>
      have blank : Inline [byte ' '] := ⟨by decide, by decide⟩
      rw [spaced_cons_cons, ← List.singleton_append]
      exact word.inline.append (blank.append ih)

def quotedLine (args : List Bytes) : Bytes := spaced (args.map (sdscatrepr []))

/-- Every list of byte strings, quoted by `sdscatrepr`, is read back by `sdssplitargs`. -/
theorem sdssplitargs_quotedLine (args : List Bytes) :
    sdssplitargs (quotedLine args) = some args := by
  have words : List.Forall₂ Word (args.map (sdscatrepr [])) args :=
    List.forall₂_map_left_iff.mpr (List.forall₂_same.mpr fun a _ => .quoted a)
  rw [quotedLine, sdssplitargs_eq (spaced_inline words).1, tokensOf_spaced words]

end Words

section Trimming

def lineBlanks : Bytes := bytes " \t\r\n"

def rtrim (s : Bytes) : Bytes := s.rdropWhile (inSet lineBlanks)

theorem rtrim_subset (s : Bytes) : rtrim s ⊆ s := (List.rdropWhile_prefix _ s).subset

theorem sdstrim_subset (s cset : Bytes) : sdstrim s cset ⊆ s :=
  List.Subset.trans (List.rdropWhile_prefix _ _).subset (List.dropWhile_suffix _).subset

theorem rtrim_append (s t : Bytes) :
    rtrim (s ++ t) = if rtrim t = [] then rtrim s else s ++ rtrim t := by
  induction t using List.reverseRecOn with
  | nil => rw [List.append_nil, rtrim, rtrim, List.rdropWhile_nil, if_pos rfl]
  | append_singleton t b ih =>
    by_cases blank : inSet lineBlanks b = true
    · have cut (u : Bytes) : rtrim (u ++ [b]) = rtrim u := List.rdropWhile_concat_pos _ _ _ blank
      rw [← List.append_assoc, cut, cut, ih]
    · have kept : rtrim (t ++ [b]) = t ++ [b] := List.rdropWhile_concat_neg _ _ _ blank
      rw [kept, if_neg (by simp), ← List.append_assoc]
      exact List.rdropWhile_concat_neg _ _ _ blank

theorem inSet_false_of_ordinary {b : UInt8} (own : ordinary b = true) :
    inSet lineBlanks b = false := by
  by_contra blank
  rw [Bool.not_eq_false] at blank
  have blanks : lineBlanks = [0x20, 0x09, 0x0d, 0x0a] := by decide
  have listed : b ∈ [0, 0x20, 0x09, 0x0d, 0x0a] := by simpa [inSet, blanks] using blank
  simp only [List.mem_cons, List.not_mem_nil, or_false] at listed
  rcases listed with rfl | rfl | rfl | rfl | rfl <;> exact absurd own (by decide)

theorem sdstrim_sdstrim (s cset : Bytes) : sdstrim (sdstrim s cset) cset = sdstrim s cset := by
  have front : (sdstrim s cset).dropWhile (inSet cset) = sdstrim s cset := by
    cases trimmed : sdstrim s cset with
    | nil => rfl
    | cons b rest =>
      have part : b :: rest <+: s.dropWhile (inSet cset) := trimmed ▸ List.rdropWhile_prefix _ _
      obtain ⟨after, split⟩ := part
      have first := List.head?_dropWhile_not (inSet cset) s
      rw [← split, List.cons_append, List.head?_cons] at first
      exact List.dropWhile_cons_of_neg (by simpa using first)
  rw [sdstrim, front, sdstrim, List.rdropWhile_idempotent]

theorem sdstrim_line {name : Bytes} (plain : Plain name) (text : Bytes) :
    sdstrim (name ++ byte ' ' :: text) lineBlanks =
      if rtrim text = [] then name else name ++ byte ' ' :: rtrim text := by
  obtain ⟨b, rest, rfl, -⟩ := plain.begins
  have first := inSet_false_of_ordinary (plain.ordinary b List.mem_cons_self)
  have last : rtrim (b :: rest) = b :: rest := by
    obtain ⟨front, c, split⟩ := List.eq_nil_or_concat (b :: rest) |>.resolve_left (by simp)
    have own : ordinary c = true := plain.ordinary c (by rw [split]; simp)
    rw [split, rtrim, List.concat_eq_append]
    exact List.rdropWhile_concat_neg _ _ _ (by simp [inSet_false_of_ordinary own])
  have blank : rtrim [byte ' '] = [] := by decide
  have headed : rtrim (b :: rest ++ [byte ' ']) = b :: rest := by
    rw [rtrim_append, blank, if_pos rfl, last]
  have whole := rtrim_append (b :: rest ++ [byte ' ']) text
  rw [headed, List.append_assoc, List.append_assoc, List.singleton_append,
    List.singleton_append] at whole
  rw [sdstrim, List.cons_append, List.dropWhile_cons_of_neg (by simp [first])]
  exact whole

theorem tokensOf_line {name : Bytes} (plain : Plain name) (text : Bytes) :
    tokensOf (sdstrim (name ++ byte ' ' :: text) lineBlanks) =
      (tokensOf (rtrim text)).map (name :: ·) := by
  rw [sdstrim_line plain]
  split_ifs with empty
  · rw [empty, tokensOf_plain plain, tokensOf_nil, Option.map_some]
  · exact tokensOf_plain_append plain rfl (rtrim text)

theorem Word.last {w a : Bytes} (word : Word w a) :
    ∃ front b, w = front ++ [b] ∧ inSet lineBlanks b = false := by
  cases word with
  | plain plain =>
    obtain ⟨b, rest, rfl, -⟩ := plain.begins
    obtain ⟨front, c, split⟩ := List.eq_nil_or_concat (b :: rest) |>.resolve_left (by simp)
    rw [List.concat_eq_append] at split
    exact ⟨front, c, split, inSet_false_of_ordinary (plain.ordinary c (by rw [split]; simp))⟩
  | quoted => exact ⟨byte '"' :: a.flatMap reprByte, byte '"', rfl, by decide⟩

theorem spaced_last {ws args : List Bytes} (words : List.Forall₂ Word ws args)
    (nonempty : ws ≠ []) :
    ∃ front b, spaced ws = front ++ [b] ∧ inSet lineBlanks b = false := by
  induction words with
  | nil => exact absurd rfl nonempty
  | @cons w a ws args word words ih =>
    cases words with
    | nil => rw [spaced_singleton]; exact word.last
    | @cons w' =>
      obtain ⟨front, b, split, solid⟩ := ih (List.cons_ne_nil _ _)
      exact ⟨w ++ byte ' ' :: front, b,
        by rw [spaced_cons_cons, split, List.append_assoc, List.cons_append], solid⟩

theorem rtrim_spaced {ws args : List Bytes} (words : List.Forall₂ Word ws args)
    (nonempty : ws ≠ []) :
    rtrim (spaced ws) = spaced ws := by
  obtain ⟨front, b, split, solid⟩ := spaced_last words nonempty
  rw [split]
  exact List.rdropWhile_concat_neg _ _ _ (by simp [solid])

end Trimming

section Bare

theorem sdsneedsrepr_false {s : Bytes} (bare : sdsneedsrepr s = false) {b : UInt8}
    (listed : b ∈ s) :
    isspace b = false ∧ isprint b = true ∧ b ≠ byte '"' := by
  have own := List.any_eq_false.mp bare b listed
  simp only [Bool.or_eq_true, decide_eq_true_eq, not_or, Bool.not_eq_true,
    Bool.not_eq_false'] at own
  obtain ⟨⟨⟨⟨⟨⟨⟨⟨-, quote⟩, -⟩, -⟩, -⟩, -⟩, -⟩, print⟩, space⟩ := own
  exact ⟨space, print, quote⟩

theorem ordinary_of_bare {b : UInt8} (space : isspace b = false) (print : isprint b = true)
    (quote : b ≠ byte '"') (single : b ≠ byte '\'') : ordinary b = true := by
  have ends : endsToken b = false := by
    by_contra sep
    simp only [endsToken, Bool.not_eq_false, Bool.or_eq_true, beq_iff_eq] at sep
    rcases sep with ((rfl | rfl) | rfl) | rfl <;> exact absurd space (by decide)
  have nul : b ≠ 0 := by
    rintro rfl
    exact absurd print (by decide)
  simp [ordinary, ends, quote, single, nul]

/-- A token is no longer than what it is read from, and as long only if every byte stands for
itself. -/
theorem readToken_whole {current line token rest : Bytes}
    (read : readToken current line = some (token, rest)) :
    token.length ≤ current.length + line.length ∧
      (token.length = current.length + line.length → ∀ b ∈ line, b ≠ 0 → ordinary b = true) := by
  fun_induction readToken current line with
  | case1 current =>
    cases read
    exact ⟨Nat.le_refl _, fun _ b listed => nomatch listed⟩
  | case2 current b line ends =>
    cases read
    rw [List.length_cons]
    exact ⟨by omega, by omega⟩
  | case3 current b line =>
    have shorter := readQuoted_length read
    rw [List.length_cons]
    exact ⟨by omega, by omega⟩
  | case4 current b line =>
    have shorter := readSingle_length read
    rw [List.length_cons]
    exact ⟨by omega, by omega⟩
  | case5 current b line ends quoted single ih =>
    obtain ⟨short, whole⟩ := ih read
    rw [List.length_append, List.length_singleton] at short whole
    rw [List.length_cons]
    refine ⟨by omega, fun same => List.forall_mem_cons.mpr ⟨fun nul => ?_, whole (by omega)⟩⟩
    simp [ordinary, ends, quoted, single, nul]

theorem tokensOf_first_length {line token : Bytes} {others : List Bytes}
    (read : tokensOf line = some (token :: others)) : token.length ≤ line.length := by
  induction line with
  | nil => cases read
  | cons b line ih =>
    cases space : isspace b with
    | true =>
      rw [tokensOf_space space] at read
      exact Nat.le_succ_of_le (ih read)
    | false =>
      rw [tokensOf_token space] at read
      obtain ⟨⟨first, rest⟩, own, tokens⟩ := Option.bind_eq_some_iff.mp read
      obtain ⟨more, -, list⟩ := Option.map_eq_some_iff.mp tokens
      rw [← (List.cons.inj list).1]
      exact (readToken_whole own).1.trans (Nat.zero_add _).le

/-- The plain strings are those that are read as themselves. -/
theorem tokensOf_self_iff {s : Bytes} (noNul : 0 ∉ s) : tokensOf s = some [s] ↔ Plain s := by
  refine ⟨fun same => ?_, tokensOf_plain⟩
  cases s with
  | nil => cases same
  | cons b line =>
    cases space : isspace b with
    | true =>
      rw [tokensOf_space space] at same
      exact absurd (tokensOf_first_length same) (Nat.not_succ_le_self _)
    | false =>
      rw [tokensOf_token space] at same
      obtain ⟨⟨token, rest⟩, own, tokens⟩ := Option.bind_eq_some_iff.mp same
      obtain ⟨more, -, list⟩ := Option.map_eq_some_iff.mp tokens
      have whole : token = b :: line := (List.cons.inj list).1
      subst whole
      refine ⟨⟨b, line, rfl, space⟩, fun c listed => ?_⟩
      exact (readToken_whole own).2 (Nat.zero_add _).symm c listed fun nul => noNul (nul ▸ listed)

theorem tokensOf_rtrim_self_iff {s : Bytes} (noNul : 0 ∉ s) :
    tokensOf (rtrim s) = some [s] ↔ Plain s := by
  constructor
  · intro same
    have whole : rtrim s = s :=
      (List.rdropWhile_prefix _ s).eq_of_length_le (tokensOf_first_length same)
    rw [whole] at same
    exact (tokensOf_self_iff noNul).mp same
  · intro plain
    have whole := rtrim_spaced (.cons (.plain plain) .nil) (List.cons_ne_nil s [])
    rw [spaced_singleton] at whole
    rw [whole]
    exact tokensOf_plain plain

/-- A string that `sdsneedsrepr` says can stay as it is comes back as one argument exactly
when it is not empty and has no single quote. -/
theorem sdssplitargs_bare_iff {s : Bytes} (bare : sdsneedsrepr s = false) :
    sdssplitargs s = some [s] ↔ s ≠ [] ∧ byte '\'' ∉ s := by
  have noNul : 0 ∉ s := fun nul => absurd (sdsneedsrepr_false bare nul).2.1 (by decide)
  rw [sdssplitargs_eq noNul, tokensOf_self_iff noNul]
  constructor
  · intro plain
    refine ⟨?_, fun single => absurd (plain.ordinary _ single) (by decide)⟩
    rintro rfl
    obtain ⟨b, rest, split, -⟩ := plain.begins
    cases split
  · rintro ⟨nonempty, single⟩
    obtain ⟨b, rest, rfl⟩ := List.exists_cons_of_ne_nil nonempty
    refine ⟨⟨b, rest, rfl, (sdsneedsrepr_false bare List.mem_cons_self).1⟩, fun c listed => ?_⟩
    obtain ⟨space, print, quote⟩ := sdsneedsrepr_false bare listed
    exact ordinary_of_bare space print quote fun same => single (same ▸ listed)

theorem manifest_name_bare : sdsneedsrepr (bytes "appendonly.aof.1.base.rdb") = false ∧
    sdssplitargs (bytes "appendonly.aof.1.base.rdb") = some [bytes "appendonly.aof.1.base.rdb"] :=
  ⟨by decide, (sdssplitargs_bare_iff (by decide)).mpr ⟨by decide, by decide⟩⟩

end Bare

end LempStack.SdsStrings
