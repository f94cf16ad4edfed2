import Mathlib.Data.List.Basic
import Mathlib.Data.List.TakeWhile

/-! Texts by lines and lines by fields. A text is a list of characters, a line ends at a
line break, and the fields of a line are its runs of characters other than blanks. -/

namespace LempStack.TextFields

abbrev Text := List Char

def isBlank (c : Char) : Bool := c == ' ' || c == '\t'

structure Word (w : Text) : Prop where
  nonempty : w ≠ []
  unbroken : ∀ c ∈ w, isBlank c = false

theorem word_of_all {w : Text} (nonempty : w ≠ []) (all : (w.all fun c => !isBlank c) = true) :
    Word w where
  nonempty := nonempty
  unbroken c listed := by simpa using List.all_eq_true.mp all c listed

def fields (line : Text) : List Text := (line.splitOnP isBlank).filter fun w => !w.isEmpty

def lines (text : Text) : List Text := text.splitOn '\n'

theorem lines_append_break (a b : Text) : lines (a ++ '\n' :: b) = lines a ++ lines b :=
  List.splitOn_append_cons_self a b

theorem filter_word {w : Text} (word : Word w) (ws : List Text) :
    ((w :: ws).filter fun w => !w.isEmpty) = w :: ws.filter fun w => !w.isEmpty :=
  List.filter_cons_of_pos (by simpa using word.nonempty)

theorem fields_append_blank {w : Text} (word : Word w) {b : Char} (blank : isBlank b = true)
    (rest : Text) : fields (w ++ b :: rest) = w :: fields rest := by
  rw [fields, List.splitOnP_append_cons_of_forall_mem word.unbroken b blank, filter_word word,
    fields]

section FirstWord

def firstWord (line : Text) : Text := (line.dropWhile isBlank).takeWhile fun c => !isBlank c

theorem splitOnP_head (line : Text) :
    (line.splitOnP isBlank).head? = some (line.takeWhile fun c => !isBlank c) := by
  induction line with
  | nil => rfl
  | cons c line ih =>
    rw [List.splitOnP_cons_eq_if_modifyHead]
    by_cases blank : isBlank c = true
    · simp [blank]
    · simp [blank, ih]

theorem fields_head_iff {w : Text} (nonempty : w ≠ []) (line : Text) :
    (fields line).head? = some w ↔ firstWord line = w := by
  induction line with
  | nil => simpa [fields, firstWord] using nonempty.symm
  | cons c line ih =>
    by_cases blank : isBlank c = true
    · have skipped : fields (c :: line) = fields line := by
        rw [fields, List.splitOnP_cons_eq_if_modifyHead, if_pos blank,
          List.filter_cons_of_neg (by simp), fields]
      rw [skipped, ih, firstWord, firstWord, List.dropWhile_cons_of_pos blank]
    · have first : firstWord (c :: line) = (c :: line).takeWhile fun c => !isBlank c := by
        rw [firstWord, List.dropWhile_cons_of_neg blank]
      obtain ⟨rest, split⟩ := List.head?_eq_some_iff.mp (splitOnP_head (c :: line))
      rw [fields, split, ← first, List.filter_cons_of_pos (by simp [first, blank]),
        List.head?_cons, Option.some.injEq]

theorem firstWord_append_of_blank {a : Text} (blank : ∀ c ∈ a, isBlank c = true) (b : Text) :
    firstWord (a ++ b) = firstWord b := by
  rw [firstWord, List.dropWhile_append_of_pos blank, firstWord]

/-- What follows a line that is not blank leaves its first word or lengthens it. -/
theorem firstWord_append {a : Text} (word : ¬ ∀ c ∈ a, isBlank c = true) (b : Text) :
    firstWord a ≠ [] ∧ (firstWord (a ++ b) = firstWord a ∨
      firstWord (a ++ b) = firstWord a ++ b.takeWhile fun c => !isBlank c) := by
  have left : a.dropWhile isBlank ≠ [] := mt List.dropWhile_eq_nil_iff.mp word
  have whole : firstWord (a ++ b) =
      (a.dropWhile isBlank ++ b).takeWhile fun c => !isBlank c := by
    rw [firstWord, List.dropWhile_append, if_neg (by simpa using left)]
  rw [whole, List.takeWhile_append]
  refine ⟨?_, ?_⟩
  · have first := List.head_dropWhile_not isBlank left
    obtain ⟨c, rest, parts⟩ := List.exists_cons_of_ne_nil left
    simp only [parts, List.head_cons] at first
    rw [firstWord, parts, List.takeWhile_cons_of_pos (by simpa using first)]
    exact List.cons_ne_nil _ _
  · split_ifs with all
    · right
      rw [firstWord, (List.takeWhile_sublist _).eq_of_length all]
    · exact .inl rfl

end FirstWord

section Lines
variable (p : Text → Bool)

def countLines (text : Text) : Nat := (lines text).countP p

theorem countLines_append_break (a b : Text) :
    countLines p (a ++ '\n' :: b) = countLines p a + countLines p b := by
  rw [countLines, lines_append_break, List.countP_append, countLines, countLines]

def lastLine (text : Text) : Text := (lines text).getLastD []

def EndsBlank (text : Text) : Prop := ∀ c ∈ lastLine text, isBlank c = true

theorem lines_append_unbroken (a : Text) {b : Text} (unbroken : '\n' ∉ b) :
    lines (a ++ b) = (lines a).dropLast ++ [lastLine a ++ b] := by
  have single {text : Text} (unbroken : '\n' ∉ text) : lines text = [text] :=
    List.splitOn_eq_singleton unbroken
  by_cases broken : '\n' ∈ a
  · -- up to the last break nothing changes
    obtain ⟨last, front, parts, unbrokenLast⟩ :=
      List.eq_append_cons_of_mem (List.mem_reverse.mpr broken)
    obtain rfl : a = front.reverse ++ '\n' :: last.reverse := by
      rw [← List.reverse_reverse a, parts]
      simp
    have ends : '\n' ∉ last.reverse := by simpa using unbrokenLast
    have joined : '\n' ∉ last.reverse ++ b := by simpa using ⟨unbrokenLast, unbroken⟩
    rw [lastLine, List.append_assoc, List.cons_append, lines_append_break, lines_append_break,
      single ends, single joined]
    simp
  · have joined : '\n' ∉ a ++ b := by simpa using ⟨broken, unbroken⟩
    rw [lastLine, single broken, single joined]
    rfl

theorem lines_eq_append_lastLine (text : Text) :
    lines text = (lines text).dropLast ++ [lastLine text] := by
  simpa using lines_append_unbroken text List.not_mem_nil

/-- What is added without a break changes the last line alone. -/
theorem countLines_append_unbroken (a : Text) {b : Text} (unbroken : '\n' ∉ b) :
    countLines p (a ++ b) + (if p (lastLine a) then 1 else 0) =
      countLines p a + (if p (lastLine a ++ b) then 1 else 0) := by
  rw [countLines, lines_append_unbroken a unbroken, countLines, lines_eq_append_lastLine a]
  simp only [List.countP_append, List.countP_singleton, List.dropLast_concat]
  omega

def Terminated (text : Text) : Prop := text = [] ∨ ∃ a, text = a ++ ['\n']

/-- What is added to such a text stands on lines of its own. -/
theorem countLines_append {text : Text} (ends : Terminated text) (none : countLines p text = 0)
    (more : Text) : countLines p (text ++ more) = countLines p more := by
  rcases ends with rfl | ⟨a, rfl⟩
  · rw [List.nil_append]
  · rw [countLines_append_break] at none
    have before : countLines p a = 0 := by omega
    rw [List.append_assoc, List.singleton_append, countLines_append_break, before, Nat.zero_add]

end Lines

end LempStack.TextFields
