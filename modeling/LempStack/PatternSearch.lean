import Mathlib.Data.List.Basic
import Mathlib.Data.List.Infix

/-! The part of Perl-compatible patterns that server configurations use: literal
text, `^`, `$`, `.+` and alternation, searched anywhere in a subject. As in PCRE
without further options, `.` does not match a newline and `$` holds at the end of
the subject or before its final newline. Letter case is a parameter: both sides
are compared after `fold`, which is `id` or a case folding. -/

namespace LempStack.PatternSearch

inductive Pattern where
  | eps
  | never
  | start
  | stop
  | char (c : Char)
  | dots
  | seq (p q : Pattern)
  | alt (p q : Pattern)
  deriving DecidableEq, Repr

def lit : List Char → Pattern
  | [] => .eps
  | c :: w => .seq (.char c) (lit w)

def oneOf : List (List Char) → Pattern
  | [] => .never
  | w :: ws => .alt (lit w) (oneOf ws)

def afterDots : List Char → List (List Char)
  | [] => []
  | x :: xs => if x = '\n' then [] else xs :: afterDots xs

section
variable (fold : Char → Char)

/-- Every way the pattern can match at a position. A position is the text still
to come, with a flag that says whether it is the start of the subject. -/
def ends : Pattern → Bool → List Char → List (Bool × List Char)
  | .eps, b, s => [(b, s)]
  | .never, _, _ => []
  | .start, b, s => if b then [(b, s)] else []
  | .stop, b, s => if s = [] ∨ s = ['\n'] then [(b, s)] else []
  | .char _, _, [] => []
  | .char c, _, x :: xs => if fold x = fold c then [(false, xs)] else []
  | .dots, _, s => (afterDots s).map fun t => (false, t)
  | .seq p q, b, s => (ends p b s).flatMap fun x => ends q x.1 x.2
  | .alt p q, b, s => ends p b s ++ ends q b s

def searchFrom (p : Pattern) : Bool → List Char → Bool
  | b, [] => !(ends fold p b []).isEmpty
  | b, x :: xs => !(ends fold p b (x :: xs)).isEmpty || searchFrom p false xs

def search (p : Pattern) (s : List Char) : Bool := searchFrom fold p true s

theorem searchFrom_iff (p : Pattern) (b : Bool) (s : List Char) :
    searchFrom fold p b s = true ↔
      ∃ u t x, s = u ++ t ∧ x ∈ ends fold p (b && u.isEmpty) t := by
  induction s generalizing b with
  | nil =>
    simp only [searchFrom, Bool.not_eq_true', List.isEmpty_eq_false_iff_exists_mem]
    constructor
    · rintro ⟨x, hx⟩
      exact ⟨[], [], x, rfl, by simpa using hx⟩
    · rintro ⟨u, t, x, split, hx⟩
      obtain ⟨rfl, rfl⟩ := List.append_eq_nil_iff.mp split.symm
      exact ⟨x, by simpa using hx⟩
  | cons y ys ih =>
    simp only [searchFrom, Bool.or_eq_true, Bool.not_eq_true',
      List.isEmpty_eq_false_iff_exists_mem, ih, Bool.false_and]
    constructor
    · rintro (⟨x, hx⟩ | ⟨u, t, x, rfl, hx⟩)
      · exact ⟨[], y :: ys, x, rfl, by simpa using hx⟩
      · exact ⟨y :: u, t, x, rfl, by simpa using hx⟩
    · rintro ⟨u, t, x, split, hx⟩
      cases u with
      | nil =>
        obtain rfl : y :: ys = t := split
        exact .inl ⟨x, by simpa using hx⟩
      | cons z u =>
        obtain ⟨rfl, rfl⟩ := List.cons.inj split
        exact .inr ⟨u, t, x, rfl, by simpa using hx⟩

theorem search_iff (p : Pattern) (s : List Char) :
    search fold p s = true ↔ ∃ u t x, s = u ++ t ∧ x ∈ ends fold p u.isEmpty t := by
  simpa [search] using searchFrom_iff fold p true s

theorem mem_ends_stop {b : Bool} {s : List Char} {x : Bool × List Char} :
    x ∈ ends fold .stop b s ↔ (s = [] ∨ s = ['\n']) ∧ x = (b, s) := by
  simp only [ends]
  split_ifs with h <;> simp [h]

theorem mem_ends_seq {p q : Pattern} {b : Bool} {s : List Char} {x : Bool × List Char} :
    x ∈ ends fold (.seq p q) b s ↔ ∃ y ∈ ends fold p b s, x ∈ ends fold q y.1 y.2 := by
  simp [ends]

theorem mem_ends_char {c : Char} {b : Bool} {s : List Char} {x : Bool × List Char} :
    x ∈ ends fold (.char c) b s ↔ ∃ y, fold y = fold c ∧ s = y :: x.2 ∧ x.1 = false := by
  cases s with
  | nil => simp [ends]
  | cons y ys =>
    simp only [ends]
    split_ifs with h
    · rw [List.mem_singleton]
      constructor
      · rintro rfl
        exact ⟨y, h, rfl, rfl⟩
      · rintro ⟨z, -, split, flag⟩
        obtain ⟨rfl, tail⟩ := List.cons.inj split
        exact Prod.ext flag tail.symm
    · constructor
      · intro none
        cases none
      · rintro ⟨z, hz, split, -⟩
        obtain ⟨rfl, -⟩ := List.cons.inj split
        exact absurd hz h

theorem mem_ends_lit {w : List Char} {b : Bool} {s : List Char} {x : Bool × List Char} :
    x ∈ ends fold (lit w) b s ↔
      ∃ m, s = m ++ x.2 ∧ m.map fold = w.map fold ∧ x.1 = (b && w.isEmpty) := by
  induction w generalizing b s with
  | nil =>
    simp only [lit, ends, List.mem_singleton, List.map_nil, List.map_eq_nil_iff,
      List.isEmpty_nil, Bool.and_true]
    constructor
    · rintro rfl
      exact ⟨[], rfl, rfl, rfl⟩
    · rintro ⟨m, split, rfl, flag⟩
      exact Prod.ext flag split.symm
  | cons c w ih =>
    simp only [lit, mem_ends_seq, mem_ends_char, ih, List.isEmpty_cons, Bool.and_false]
    constructor
    · rintro ⟨y, ⟨z, hz, split, flag⟩, m, rest, same, last⟩
      exact ⟨z :: m, by rw [split, rest]; rfl, by simp [hz, same], by simp [last, flag]⟩
    · rintro ⟨m, split, same, last⟩
      cases m with
      | nil => simp at same
      | cons z m =>
        obtain ⟨hz, same⟩ := List.cons.inj same
        exact ⟨(false, m ++ x.2), ⟨z, hz, split, rfl⟩, m, rfl, same, by simp [last]⟩

theorem mem_ends_oneOf {ws : List (List Char)} {b : Bool} {s : List Char}
    {x : Bool × List Char} :
    x ∈ ends fold (oneOf ws) b s ↔ ∃ w ∈ ws, x ∈ ends fold (lit w) b s := by
  induction ws with
  | nil => simp [oneOf, ends]
  | cons w ws ih => simp [oneOf, ends, ih]

theorem afterDots_suffix {s t : List Char} (h : t ∈ afterDots s) : t <:+ s := by
  induction s with
  | nil => simp [afterDots] at h
  | cons x xs ih =>
    simp only [afterDots] at h
    split_ifs at h with nl
    · cases h
    · rcases List.mem_cons.mp h with rfl | h
      · exact List.suffix_cons x t
      · exact (ih h).trans (List.suffix_cons x xs)

theorem ends_suffix {p : Pattern} {b : Bool} {s : List Char} {x : Bool × List Char}
    (h : x ∈ ends fold p b s) : x.2 <:+ s := by
  induction p generalizing b s x with
  | eps => rw [List.mem_singleton.mp h]
  | never => cases h
  | start =>
    simp only [ends] at h
    split_ifs at h
    · rw [List.mem_singleton.mp h]
    · cases h
  | stop => rw [((mem_ends_stop fold).mp h).2]
  | char c =>
    obtain ⟨y, -, rfl, -⟩ := (mem_ends_char fold).mp h
    exact List.suffix_cons y x.2
  | dots =>
    obtain ⟨t, ht, rfl⟩ := List.mem_map.mp h
    exact afterDots_suffix ht
  | seq p q ihp ihq =>
    obtain ⟨y, hy, hx⟩ := (mem_ends_seq fold).mp h
    exact (ihq hx).trans (ihp hy)
  | alt p q ihp ihq =>
    rcases List.mem_append.mp h with h | h
    · exact ihp h
    · exact ihq h

/-- The subject ends in `w` up to `fold`, a final newline aside. -/
def EndsIn (w s : List Char) : Prop :=
  ∃ u m, (s = u ++ m ∨ s = u ++ m ++ ['\n']) ∧ m.map fold = w.map fold

theorem search_lit (w s : List Char) :
    search fold (lit w) s = true ↔ ∃ u m t, s = u ++ m ++ t ∧ m.map fold = w.map fold := by
  rw [search_iff]
  constructor
  · rintro ⟨u, t, x, rfl, hx⟩
    obtain ⟨m, rfl, same, -⟩ := (mem_ends_lit fold).mp hx
    exact ⟨u, m, x.2, by simp, same⟩
  · rintro ⟨u, m, t, rfl, same⟩
    exact ⟨u, m ++ t, (u.isEmpty && w.isEmpty, t), by simp,
      (mem_ends_lit fold).mpr ⟨m, rfl, same, rfl⟩⟩

theorem ends_lit_stop {w : List Char} {b : Bool} {s : List Char} {x : Bool × List Char}
    (h : x ∈ ends fold (.seq (lit w) .stop) b s) : EndsIn fold w s := by
  obtain ⟨y, hy, hx⟩ := (mem_ends_seq fold).mp h
  obtain ⟨m, rfl, same, -⟩ := (mem_ends_lit fold).mp hy
  obtain ⟨last, -⟩ := (mem_ends_stop fold).mp hx
  rcases last with nil | nl
  · exact ⟨[], m, .inl (by simp [nil]), same⟩
  · exact ⟨[], m, .inr (by simp [nl]), same⟩

theorem EndsIn.append {w s : List Char} (h : EndsIn fold w s) (u : List Char) :
    EndsIn fold w (u ++ s) := by
  obtain ⟨v, m, split | split, same⟩ := h
  · exact ⟨u ++ v, m, .inl (by simp [split]), same⟩
  · exact ⟨u ++ v, m, .inr (by simp [split]), same⟩

theorem search_lit_stop (w s : List Char) :
    search fold (.seq (lit w) .stop) s = true ↔ EndsIn fold w s := by
  rw [search_iff]
  constructor
  · rintro ⟨u, t, x, rfl, hx⟩
    exact (ends_lit_stop fold hx).append fold u
  · rintro ⟨u, m, rfl | rfl, same⟩
    · have mid : (u.isEmpty && w.isEmpty, []) ∈ ends fold (lit w) u.isEmpty m :=
        (mem_ends_lit fold).mpr ⟨m, by simp, same, rfl⟩
      exact ⟨u, m, _, rfl, (mem_ends_seq fold).mpr
        ⟨_, mid, (mem_ends_stop fold).mpr ⟨.inl rfl, rfl⟩⟩⟩
    · have mid : (u.isEmpty && w.isEmpty, ['\n']) ∈ ends fold (lit w) u.isEmpty (m ++ ['\n']) :=
        (mem_ends_lit fold).mpr ⟨m, rfl, same, rfl⟩
      exact ⟨u, m ++ ['\n'], _, by simp, (mem_ends_seq fold).mpr
        ⟨_, mid, (mem_ends_stop fold).mpr ⟨.inr rfl, rfl⟩⟩⟩

/-- `\.(w₁|…|wₙ)$` finds exactly the subjects with one of the extensions. -/
theorem search_extension (ws : List (List Char)) (s : List Char) :
    search fold (.seq (.char '.') (.seq (oneOf ws) .stop)) s = true ↔
      ∃ w ∈ ws, EndsIn fold ('.' :: w) s := by
  rw [search_iff]
  constructor
  · rintro ⟨u, t, x, rfl, hx⟩
    obtain ⟨y, dot, rest⟩ := (mem_ends_seq fold).mp hx
    obtain ⟨z, word, last⟩ := (mem_ends_seq fold).mp rest
    obtain ⟨w, hw, word⟩ := (mem_ends_oneOf fold).mp word
    have whole : z ∈ ends fold (lit ('.' :: w)) u.isEmpty t :=
      (mem_ends_seq fold).mpr ⟨y, dot, word⟩
    exact ⟨w, hw, (ends_lit_stop fold ((mem_ends_seq fold).mpr ⟨z, whole, last⟩)).append fold u⟩
  · rintro ⟨w, hw, h⟩
    obtain ⟨u, t, x, split, hx⟩ := (search_iff fold _ _).mp ((search_lit_stop fold _ s).mpr h)
    obtain ⟨z, whole, last⟩ := (mem_ends_seq fold).mp hx
    obtain ⟨y, dot, word⟩ := (mem_ends_seq fold).mp whole
    exact ⟨u, t, x, split, (mem_ends_seq fold).mpr ⟨y, dot, (mem_ends_seq fold).mpr
      ⟨z, (mem_ends_oneOf fold).mpr ⟨w, hw, word⟩, last⟩⟩⟩

/-- `a(w₁|…|wₙ)b` finds exactly the subjects that have one of the words so enclosed. -/
theorem search_enclosed (a b : Char) (ws : List (List Char)) (s : List Char) :
    search fold (.seq (.char a) (.seq (oneOf ws) (.char b))) s = true ↔
      ∃ w ∈ ws, ∃ u m t, s = u ++ m ++ t ∧ m.map fold = (a :: w ++ [b]).map fold := by
  rw [search_iff]
  constructor
  · rintro ⟨u, t, x, rfl, hx⟩
    obtain ⟨y, first, rest⟩ := (mem_ends_seq fold).mp hx
    obtain ⟨z, word, last⟩ := (mem_ends_seq fold).mp rest
    obtain ⟨w, hw, word⟩ := (mem_ends_oneOf fold).mp word
    obtain ⟨c, ha, rfl, -⟩ := (mem_ends_char fold).mp first
    obtain ⟨m, middle, same, -⟩ := (mem_ends_lit fold).mp word
    obtain ⟨d, hb, close, -⟩ := (mem_ends_char fold).mp last
    exact ⟨w, hw, u, c :: m ++ [d], x.2, by simp [middle, close], by simp [ha, hb, same]⟩
  · rintro ⟨w, hw, u, m, t, rfl, same⟩
    rw [List.map_append] at same
    obtain ⟨m, last, rfl, inner, close⟩ := List.map_eq_append_iff.mp same
    obtain ⟨c, m, rfl, ha, inner⟩ := List.map_eq_cons_iff.mp inner
    obtain ⟨d, end?, rfl, hb, none⟩ := List.map_eq_cons_iff.mp close
    obtain rfl := List.map_eq_nil_iff.mp none
    refine ⟨u, c :: (m ++ d :: t), (false, t), by simp, (mem_ends_seq fold).mpr
      ⟨(false, m ++ d :: t), (mem_ends_char fold).mpr ⟨c, ha, rfl, rfl⟩, (mem_ends_seq fold).mpr
        ⟨(false, d :: t), (mem_ends_oneOf fold).mpr ⟨w, hw, (mem_ends_lit fold).mpr
          ⟨m, rfl, inner, rfl⟩⟩, (mem_ends_char fold).mpr ⟨d, hb, rfl, rfl⟩⟩⟩⟩

theorem EndsIn.getLast? {w s : List Char} (h : EndsIn fold w s) (ne : w ≠ []) :
    ∃ c, s.getLast? = some c ∧ (c = '\n' ∨ fold c ∈ w.map fold) := by
  obtain ⟨u, m, rfl | rfl, same⟩ := h
  · have hm : m ≠ [] := by
      rintro rfl
      exact ne (List.map_eq_nil_iff.mp same.symm)
    refine ⟨m.getLast hm, ?_, .inr ?_⟩
    · rw [List.getLast?_append_of_ne_nil _ hm, List.getLast?_eq_some_getLast hm]
    · rw [← same]
      exact List.mem_map_of_mem (List.getLast_mem hm)
  · exact ⟨'\n', by simp, .inl rfl⟩

private theorem last_of_endsIn {w s : List Char} {m u : List Char}
    (clean : fold '\n' ∉ w.map fold) (ne : w ≠ []) (same : m.map fold = w.map fold) :
    u ++ m ≠ s ++ ['\n'] := by
  intro split
  have hm : m ≠ [] := by
    rintro rfl
    exact ne (List.map_eq_nil_iff.mp same.symm)
  have last := congrArg List.getLast? split
  rw [List.getLast?_append_of_ne_nil _ hm, List.getLast?_append_of_ne_nil _ (by simp)] at last
  apply clean
  rw [← same]
  exact List.mem_map_of_mem (List.mem_of_getLast? last)

theorem EndsIn.comparable {v w s : List Char} (hv : EndsIn fold v s) (hw : EndsIn fold w s)
    (cv : fold '\n' ∉ v.map fold) (cw : fold '\n' ∉ w.map fold) (nv : v ≠ []) (nw : w ≠ []) :
    v.map fold <:+ w.map fold ∨ w.map fold <:+ v.map fold := by
  have compare : ∀ {t a b m n : List Char}, t = a ++ m → t = b ++ n →
      m.map fold = v.map fold → n.map fold = w.map fold →
      v.map fold <:+ w.map fold ∨ w.map fold <:+ v.map fold := by
    intro t a b m n ha hb hm hn
    have sm : v.map fold <:+ t.map fold := ⟨a.map fold, by rw [ha, List.map_append, hm]⟩
    have sn : w.map fold <:+ t.map fold := ⟨b.map fold, by rw [hb, List.map_append, hn]⟩
    exact List.suffix_or_suffix_of_suffix sm sn
  obtain ⟨a, m, ha | ha, hm⟩ := hv <;> obtain ⟨b, n, hb | hb, hn⟩ := hw
  · exact compare ha hb hm hn
  · exact absurd (ha.symm.trans hb) (last_of_endsIn fold cv nv hm)
  · exact absurd (hb.symm.trans ha) (last_of_endsIn fold cw nw hn)
  · have split : a ++ m = b ++ n := List.append_cancel_right (ha.symm.trans hb)
    exact compare rfl split hm hn

theorem search_extension_disjoint {vs ws : List (List Char)}
    (clean : ∀ x ∈ vs ++ ws, fold '\n' ∉ ('.' :: x).map fold)
    (apart : ∀ x ∈ vs, ∀ y ∈ ws, ¬ (('.' :: x).map fold <:+ ('.' :: y).map fold ∨
      ('.' :: y).map fold <:+ ('.' :: x).map fold)) {s : List Char}
    (found : search fold (.seq (.char '.') (.seq (oneOf vs) .stop)) s = true) :
    search fold (.seq (.char '.') (.seq (oneOf ws) .stop)) s = false := by
  rw [Bool.eq_false_iff]
  intro other
  obtain ⟨v, hv, endsV⟩ := (search_extension fold vs s).mp found
  obtain ⟨w, hw, endsW⟩ := (search_extension fold ws s).mp other
  exact apart v hv w hw (endsV.comparable fold endsW (clean v (List.mem_append_left _ hv))
    (clean w (List.mem_append_right _ hw)) (List.cons_ne_nil _ _) (List.cons_ne_nil _ _))

end

end LempStack.PatternSearch
