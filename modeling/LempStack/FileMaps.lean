import Mathlib.Logic.Function.Iterate
import Mathlib.Tactic.TypeStar

/-! Sets of files as maps from paths to contents, and what copying, removing and
writing do to the contents one wants to keep. The last section is the cycle of a
script that saves files, removes them and writes one of them anew: run again, it
saves what it wrote itself. -/

namespace LempStack.FileMaps

abbrev Tree (P C : Type*) := P → Option C

section
variable {P C : Type*}

def Holds (D t : Tree P C) : Prop := ∀ p c, D p = some c → t p = some c

def copyOver (sel : P → Bool) (src dst : Tree P C) : Tree P C := fun p =>
  if sel p then (src p).or (dst p) else dst p

def remove (sel : P → Bool) (t : Tree P C) : Tree P C := fun p => if sel p then none else t p

def noFiles : Tree P C := fun _ => none

theorem holds_refl (D : Tree P C) : Holds D D := fun _ _ h => h

theorem Holds.or {D t : Tree P C} (h : Holds D t) (new : Tree P C) :
    Holds D fun p => (t p).or (new p) := by
  intro p c orig
  simp [h p c orig]

theorem copyOver_selected {sel : P → Bool} {src dst : Tree P C} {p : P} {c : C}
    (picked : sel p = true) (orig : src p = some c) : copyOver sel src dst p = some c := by
  simp [copyOver, picked, orig]

theorem copyOver_unselected {sel : P → Bool} {src dst : Tree P C} {p : P}
    (left : sel p = false) : copyOver sel src dst p = dst p := by
  simp [copyOver, left]

theorem copyOver_absent {sel : P → Bool} {src dst : Tree P C} {p : P}
    (absent : src p = none) : copyOver sel src dst p = dst p := by
  simp [copyOver, absent]

theorem holds_copy_iff (D : Tree P C) (sel : P → Bool) :
    Holds D (copyOver sel D noFiles) ↔ ∀ p, D p ≠ none → sel p = true := by
  constructor
  · intro all p present
    obtain ⟨c, orig⟩ := Option.ne_none_iff_exists'.mp present
    by_contra left
    have copied := all p c orig
    rw [copyOver_unselected (Bool.not_eq_true _ ▸ left)] at copied
    cases copied
  · intro all p c orig
    exact copyOver_selected (all p (by simp [orig])) orig

theorem holds_remove_iff (D : Tree P C) (sel : P → Bool) :
    Holds D (remove sel D) ↔ ∀ p, D p ≠ none → sel p = false := by
  constructor
  · intro all p present
    obtain ⟨c, orig⟩ := Option.ne_none_iff_exists'.mp present
    by_contra picked
    have kept := all p c orig
    simp [remove, Bool.not_eq_false _ ▸ picked] at kept
  · intro all p c orig
    simp [remove, all p (by simp [orig]), orig]

variable [DecidableEq P]

def write (q : P) (c : C) (t : Tree P C) : Tree P C := fun p => if p = q then some c else t p

theorem write_self (q : P) (c : C) (t : Tree P C) : write q c t q = some c := by
  simp [write]

end

section Cycle
variable {P C : Type*} [DecidableEq P]

@[ext] structure Saved (P C : Type*) where
  live : Tree P C
  bak : Tree P C

variable (sel gone : P → Bool) (g : P) (text : C)

theorem foldl_view {σ ι ν : Type*} {run : σ → ι → σ} (view : σ → ν) (F : ν → ν)
    (step : ∀ s i, view (run s i) = F (view s)) (is : List ι) (s : σ) :
    view (is.foldl run s) = F^[is.length] (view s) := by
  induction is generalizing s with
  | nil => rfl
  | cons i is ih => rw [List.foldl_cons, ih, step, List.length_cons, Function.iterate_succ_apply]

/-- Save the selected files, remove some of them and write one anew. -/
def cycle (s : Saved P C) : Saved P C :=
  ⟨write g text (remove gone s.live), copyOver sel s.live s.bak⟩

theorem cycle_live_written (s : Saved P C) : (cycle sel gone g text s).live g = some text :=
  write_self g text _

theorem cycle_live_gone (s : Saved P C) {p : P} (removed : gone p = true) (other : p ≠ g) :
    (cycle sel gone g text s).live p = none := by
  simp [cycle, write, remove, removed, other]

theorem cycles_bak_gone (s : Saved P C) {p : P} (picked : sel p = true) (removed : gone p = true)
    (other : p ≠ g) {c : C} (orig : s.live p = some c) (n : ℕ) :
    ((cycle sel gone g text)^[n + 1] s).bak p = some c := by
  induction n with
  | zero => exact copyOver_selected picked orig
  | succ n ih =>
    rw [Function.iterate_succ_apply']
    refine (copyOver_absent ?_).trans ih
    rw [Function.iterate_succ_apply']
    exact cycle_live_gone sel gone g text _ removed other

theorem cycles_bak_kept (s : Saved P C) {p : P} (picked : sel p = true) (left : gone p = false)
    (other : p ≠ g) (n : ℕ) :
    ((cycle sel gone g text)^[n + 1] s).bak p = (s.live p).or (s.bak p) := by
  induction n generalizing s with
  | zero => simp [cycle, copyOver, picked]
  | succ n ih =>
    rw [Function.iterate_succ_apply, ih]
    have stays : (cycle sel gone g text s).live p = s.live p := by
      simp [cycle, write, remove, left, other]
    have saved : (cycle sel gone g text s).bak p = (s.live p).or (s.bak p) := by
      simp [cycle, copyOver, picked]
    rw [stays, saved]
    cases s.live p <;> rfl

theorem cycles_bak_written (s : Saved P C) (picked : sel g = true) (n : ℕ) :
    ((cycle sel gone g text)^[n + 2] s).bak g = some text := by
  rw [Function.iterate_succ_apply']
  refine copyOver_selected picked ?_
  rw [Function.iterate_succ_apply']
  exact cycle_live_written sel gone g text _

/-- Every removed file is still held after `n + 1` runs exactly when there was one
run, or the file that is written anew was missing or had the new text already. -/
theorem cycles_hold_iff (kept : ∀ p, gone p = true → sel p = true) (anew : gone g = true)
    (s : Saved P C) (n : ℕ) :
    (∀ p, gone p = true → ∀ c, s.live p = some c →
        ((cycle sel gone g text)^[n + 1] s).bak p = some c) ↔
      n = 0 ∨ ∀ c, s.live g = some c → c = text := by
  constructor
  · intro all
    cases n with
    | zero => exact .inl rfl
    | succ n =>
      right
      intro c orig
      have held := all g anew c orig
      rw [cycles_bak_written sel gone g text s (kept g anew)] at held
      exact (Option.some.inj held).symm
  · intro cond p removed c orig
    by_cases other : p = g
    · subst other
      cases n with
      | zero => exact copyOver_selected (kept p removed) orig
      | succ n =>
        have same := cond.resolve_left (Nat.succ_ne_zero n) c orig
        rw [cycles_bak_written sel gone p text s (kept p removed), same]
    · exact cycles_bak_gone sel gone g text s (kept p removed) removed other orig n

/-- The same for a state that goes through one cycle with every run. -/
theorem runs_hold_iff {σ ι : Type*} {run : σ → ι → σ} (view : σ → Saved P C)
    (kept : ∀ p, gone p = true → sel p = true) (anew : gone g = true)
    (step : ∀ s i, view (run s i) = cycle sel gone g text (view s)) (s : σ) (i : ι)
    (is : List ι) :
    (∀ p, gone p = true → ∀ c, (view s).live p = some c →
        (view ((i :: is).foldl run s)).bak p = some c) ↔
      is = [] ∨ ∀ c, (view s).live g = some c → c = text := by
  rw [foldl_view view _ step, List.length_cons, cycles_hold_iff sel gone g text kept anew,
    List.length_eq_zero_iff]

end Cycle

end LempStack.FileMaps
