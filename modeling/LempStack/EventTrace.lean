import Mathlib.Data.List.Basic
import Mathlib.Tactic.TypeStar

/-! Event machines: a step turns a state and an event into the next state and the
outputs it gives off. Safety along a run is stated for the event and the state it
meets, so a law and the condition it needs speak of the same places. What comes in
and is not given off is held, which is the conservation rule. The last section is the
unwinding rule: two runs with the same low parts, from states of the same view, show
the same and end with the same view. -/

namespace LempStack.EventTrace

section Runs
variable {σ ε ω : Type*} (step : σ → ε → σ × List ω)

def finalState : σ → List ε → σ
  | s, [] => s
  | s, e :: es => finalState (step s e).1 es

def outputs : σ → List ε → List ω
  | _, [] => []
  | s, e :: es => (step s e).2 ++ outputs (step s e).1 es

def Along (P : σ → ε → Prop) : σ → List ε → Prop
  | _, [] => True
  | s, e :: es => P s e ∧ Along P (step s e).1 es

def Throughout (P : σ → Prop) : σ → List ε → Prop
  | s, [] => P s
  | s, e :: es => P s ∧ Throughout P (step s e).1 es

def Reachable (start s : σ) : Prop := ∃ es, finalState step start es = s

@[simp] theorem outputs_nil (s : σ) : outputs step s [] = [] := rfl

@[simp] theorem outputs_cons (s : σ) (e : ε) (es : List ε) :
    outputs step s (e :: es) = (step s e).2 ++ outputs step (step s e).1 es := rfl

theorem Throughout.head {P : σ → Prop} {s : σ} {es : List ε}
    (h : Throughout step P s es) : P s := by
  cases es with
  | nil => exact h
  | cons e es => exact h.1

theorem Throughout.final {P : σ → Prop} {s : σ} {es : List ε}
    (h : Throughout step P s es) : P (finalState step s es) := by
  induction es generalizing s with
  | nil => exact h
  | cons e es ih => exact ih h.2

theorem Throughout.mono {P Q : σ → Prop} (imp : ∀ s, P s → Q s) {s : σ} {es : List ε}
    (h : Throughout step P s es) : Throughout step Q s es := by
  induction es generalizing s with
  | nil => exact imp s h
  | cons e es ih => exact ⟨imp s h.1, ih h.2⟩

theorem along_true (s : σ) (es : List ε) : Along step (fun _ _ => True) s es := by
  induction es generalizing s with
  | nil => trivial
  | cons e es ih => exact ⟨trivial, ih _⟩

/-- Invariant rule: steps that meet `C` keep `I`. -/
theorem throughout_of_step {I : σ → Prop} {C : σ → ε → Prop}
    (keep : ∀ s e, I s → C s e → I (step s e).1) {s : σ} {es : List ε}
    (start : I s) (cond : Along step C s es) : Throughout step I s es := by
  induction es generalizing s with
  | nil => exact start
  | cons e es ih => exact ⟨start, ih (keep s e start cond.1) cond.2⟩

theorem along_of_throughout {I P : σ → Prop} {C : σ → ε → Prop}
    (keep : ∀ s e, I s → I (step s e).1) (need : ∀ s e, I s → P (step s e).1 → C s e)
    {s : σ} {es : List ε} (start : I s) (h : Throughout step P s es) : Along step C s es := by
  induction es generalizing s with
  | nil => trivial
  | cons e es ih => exact ⟨need s e start h.2.head, ih (keep s e start) h.2⟩

theorem reachable_of_step {I : σ → Prop} (keep : ∀ s e, I s → I (step s e).1)
    {start s : σ} (hs : I start) (h : Reachable step start s) : I s := by
  obtain ⟨es, rfl⟩ := h
  exact (throughout_of_step step (fun s e hs _ => keep s e hs) hs
    (along_true step start es)).final

theorem throughout_and {P Q : σ → Prop} {s : σ} {es : List ε} :
    Throughout step (fun s => P s ∧ Q s) s es ↔
      Throughout step P s es ∧ Throughout step Q s es := by
  induction es generalizing s with
  | nil => exact Iff.rfl
  | cons e es ih =>
    simp only [Throughout, ih]
    exact and_and_and_comm

theorem outputs_of_step {I : σ → Prop} {R : ω → Prop}
    (keep : ∀ s e, I s → I (step s e).1) (give : ∀ s e, I s → ∀ o ∈ (step s e).2, R o)
    {s : σ} (hs : I s) (es : List ε) : ∀ o ∈ outputs step s es, R o := by
  induction es generalizing s with
  | nil => simp
  | cons e es ih =>
    intro o ho
    rcases List.mem_append.mp ho with now | later
    · exact give s e hs o now
    · exact ih (keep s e hs) o later

end Runs

section Custody
variable {σ ε ω ι : Type*} (step : σ → ε → σ × List ω)

theorem finalState_append (s : σ) (es later : List ε) :
    finalState step s (es ++ later) = finalState step (finalState step s es) later := by
  induction es generalizing s with
  | nil => rfl
  | cons e es ih => exact ih _

/-- Conservation rule: what comes in with an event, and what is held ahead of it, is given
off by the step or held after it. -/
theorem outputs_conserved {I : σ → Prop} {came : ε → List ι} {given : ω → Option ι}
    {held : σ → List ι} (keep : ∀ s e, I s → I (step s e).1)
    (conserve : ∀ s e, I s →
      (came e ++ held s).Perm ((step s e).2.filterMap given ++ held (step s e).1))
    {s : σ} (start : I s) (es : List ε) :
    (es.flatMap came ++ held s).Perm
      ((outputs step s es).filterMap given ++ held (finalState step s es)) := by
  induction es generalizing s with
  | nil => exact List.Perm.refl _
  | cons e es ih =>
    rw [List.flatMap_cons, outputs_cons, List.filterMap_append, List.append_assoc,
      List.append_assoc]
    calc List.Perm (came e ++ (es.flatMap came ++ held s))
          (es.flatMap came ++ (came e ++ held s)) :=
        List.perm_append_comm_assoc _ _ _
      List.Perm _ (es.flatMap came ++ ((step s e).2.filterMap given ++ held (step s e).1)) :=
        (conserve s e start).append_left _
      List.Perm _ ((step s e).2.filterMap given ++ (es.flatMap came ++ held (step s e).1)) :=
        List.perm_append_comm_assoc _ _ _
      List.Perm _ ((step s e).2.filterMap given ++
          ((outputs step (step s e).1 es).filterMap given ++
            held (finalState step (step s e).1 es))) :=
        (ih (keep s e start)).append_left _

end Custody

section Projection
variable {σ ε ω ν : Type*} (step : σ → ε → σ × List ω)

theorem throughout_project (view : σ → ν) (move : ν → ε → ν) (active : ε → Bool)
    (moves : ∀ s e, active e = true → view (step s e).1 = move (view s) e)
    (rests : ∀ s e, active e = false → view (step s e).1 = view s)
    (Q : ν → Prop) (s : σ) (es : List ε) :
    Throughout step (fun s => Q (view s)) s es ↔
      Throughout (fun v e => (move v e, ([] : List ω))) Q (view s) (es.filter active) := by
  induction es generalizing s with
  | nil => exact Iff.rfl
  | cons e es ih =>
    rw [Throughout, ih]
    cases h : active e with
    | true => rw [List.filter_cons_of_pos h, moves s e h, Throughout]
    | false =>
      rw [List.filter_cons_of_neg (by simp [h]), rests s e h]
      exact and_iff_right_of_imp (Throughout.head _)

end Projection

section Unwinding
variable {σ ε ω ν ℓ κ : Type*} (step : σ → ε → σ × List ω) (low : ε → Option ℓ)
  (see : ω → Option κ)

/-- A machine seen from outside: an event without a low part leaves the view alone and shows
nothing, another one acts on the view and shows what the view machine shows. -/
structure Unwinds (I : σ → Prop) (view : σ → ν) (viewStep : ν → ℓ → ν × List κ) : Prop where
  keep : ∀ s e, I s → I (step s e).1
  silent : ∀ s e, I s → low e = none →
    view (step s e).1 = view s ∧ (step s e).2.filterMap see = []
  acts : ∀ s e l, I s → low e = some l →
    viewStep (view s) l = (view (step s e).1, (step s e).2.filterMap see)

variable {step low see} {I : σ → Prop} {view : σ → ν} {viewStep : ν → ℓ → ν × List κ}

theorem Unwinds.outputs_eq (h : Unwinds step low see I view viewStep) {s : σ} (start : I s)
    (es : List ε) :
    (outputs step s es).filterMap see = outputs viewStep (view s) (es.filterMap low) := by
  induction es generalizing s with
  | nil => rfl
  | cons e es ih =>
    rw [outputs_cons, List.filterMap_append, ih (h.keep s e start)]
    cases part : low e with
    | none =>
      obtain ⟨same, nothing⟩ := h.silent s e start part
      rw [List.filterMap_cons_none part, same, nothing, List.nil_append]
    | some l => rw [List.filterMap_cons_some part, outputs_cons, h.acts s e l start part]

theorem Unwinds.finalState_eq (h : Unwinds step low see I view viewStep) {s : σ} (start : I s)
    (es : List ε) :
    view (finalState step s es) = finalState viewStep (view s) (es.filterMap low) := by
  induction es generalizing s with
  | nil => rfl
  | cons e es ih =>
    rw [finalState, ih (h.keep s e start)]
    cases part : low e with
    | none => rw [List.filterMap_cons_none part, (h.silent s e start part).1]
    | some l => rw [List.filterMap_cons_some part, finalState, h.acts s e l start part]

end Unwinding

end LempStack.EventTrace
