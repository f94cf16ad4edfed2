import Mathlib.Data.List.Basic
import Mathlib.Tactic.TypeStar

/-! Sequential plays whose tasks may fail. A play is a list of tasks executed in
order; the first failed task ends it and leaves the state it had reached. What
interferes with a task is an explicit input, one optional fault for each task, so
a run is a function and every failure point is a value of its fault plan.
Nothing below knows which tasks there are. -/

namespace LempStack.PlayRun

inductive Outcome (σ : Type*) where
  | ok (s : σ)
  | failed (s : σ)
  deriving DecidableEq, Repr

namespace Outcome
variable {σ υ : Type*}

def state : Outcome σ → σ
  | ok s => s
  | failed s => s

def completed : Outcome σ → Bool
  | ok _ => true
  | failed _ => false

def Meets (good bad : σ → Prop) : Outcome σ → Prop
  | ok s => good s
  | failed s => bad s

def map (f : σ → υ) : Outcome σ → Outcome υ
  | ok s => ok (f s)
  | failed s => failed (f s)

@[simp] theorem state_ok (s : σ) : (ok s).state = s := rfl

@[simp] theorem state_failed (s : σ) : (failed s).state = s := rfl

@[simp] theorem completed_ok (s : σ) : (ok s).completed = true := rfl

@[simp] theorem completed_failed (s : σ) : (failed s).completed = false := rfl

@[simp] theorem state_map (f : σ → υ) (o : Outcome σ) : (o.map f).state = f o.state := by
  cases o <;> rfl

theorem Meets.state {good bad Q : σ → Prop} {o : Outcome σ} (h : o.Meets good bad)
    (fromGood : ∀ s, good s → Q s) (fromBad : ∀ s, bad s → Q s) : Q o.state := by
  cases o with
  | ok s => exact fromGood s h
  | failed s => exact fromBad s h

theorem map_eq_ok {f : σ → υ} {o : Outcome σ} {r : υ} :
    o.map f = ok r ↔ ∃ s, o = ok s ∧ f s = r := by
  cases o <;> simp [map]

theorem ok_eq_ok {s r : σ} : ok s = ok r ↔ r = s := by
  rw [ok.injEq, eq_comm]

theorem completed_iff (o : Outcome σ) : o.completed = true ↔ o = ok o.state := by
  cases o <;> simp

end Outcome

section Tasks
variable {τ φ σ : Type*} (exec : τ → Option φ → σ → Outcome σ) (faults : τ → Option φ)

def runTasks : List τ → σ → Outcome σ
  | [], s => .ok s
  | t :: ts, s =>
    match exec t (faults t) s with
    | .ok s' => runTasks ts s'
    | .failed s' => .failed s'

@[simp] theorem runTasks_nil (s : σ) : runTasks exec faults [] s = .ok s := rfl

theorem runTasks_cons_ok {t : τ} {ts : List τ} {s s' : σ} (h : exec t (faults t) s = .ok s') :
    runTasks exec faults (t :: ts) s = runTasks exec faults ts s' := by
  rw [runTasks, h]

theorem runTasks_cons_failed {t : τ} {ts : List τ} {s s' : σ}
    (h : exec t (faults t) s = .failed s') :
    runTasks exec faults (t :: ts) s = .failed s' := by
  rw [runTasks, h]

theorem runTasks_cons_eq_ok {t : τ} {ts : List τ} {s r : σ} :
    runTasks exec faults (t :: ts) s = .ok r ↔
      ∃ s', exec t (faults t) s = .ok s' ∧ runTasks exec faults ts s' = .ok r := by
  cases h : exec t (faults t) s with
  | ok s' => simp [runTasks_cons_ok exec faults h]
  | failed s' => simp [runTasks_cons_failed exec faults h]

theorem runTasks_append (ts us : List τ) (s : σ) :
    runTasks exec faults (ts ++ us) s =
      match runTasks exec faults ts s with
      | .ok s' => runTasks exec faults us s'
      | .failed s' => .failed s' := by
  induction ts generalizing s with
  | nil => rfl
  | cons t ts ih =>
    cases h : exec t (faults t) s with
    | ok s' => rw [List.cons_append, runTasks_cons_ok exec faults h,
        runTasks_cons_ok exec faults h, ih]
    | failed s' => rw [List.cons_append, runTasks_cons_failed exec faults h,
        runTasks_cons_failed exec faults h]

theorem runTasks_append_eq_ok {ts us : List τ} {s r : σ} :
    runTasks exec faults (ts ++ us) s = .ok r ↔
      ∃ s', runTasks exec faults ts s = .ok s' ∧ runTasks exec faults us s' = .ok r := by
  rw [runTasks_append]
  cases runTasks exec faults ts s <;> simp

theorem runTasks_cons_meets {good bad : σ → Prop} (mid : σ → Prop) {t : τ} {ts : List τ} {s : σ}
    (first : (exec t (faults t) s).Meets mid bad)
    (rest : ∀ s', mid s' → (runTasks exec faults ts s').Meets good bad) :
    (runTasks exec faults (t :: ts) s).Meets good bad := by
  cases h : exec t (faults t) s with
  | ok s' =>
    rw [h] at first
    rw [runTasks_cons_ok exec faults h]
    exact rest s' first
  | failed s' =>
    rw [h] at first
    rwa [runTasks_cons_failed exec faults h]

theorem runTasks_preserves (I : σ → Prop) (ts : List τ)
    (step : ∀ t ∈ ts, ∀ s, I s → I (exec t (faults t) s).state) (s : σ) (hs : I s) :
    I (runTasks exec faults ts s).state := by
  induction ts generalizing s with
  | nil => exact hs
  | cons t ts ih =>
    have next := step t List.mem_cons_self s hs
    cases h : exec t (faults t) s with
    | ok s' =>
      rw [h] at next
      rw [runTasks_cons_ok exec faults h]
      exact ih (fun u hu => step u (List.mem_cons_of_mem t hu)) s' next
    | failed s' =>
      rw [h] at next
      rwa [runTasks_cons_failed exec faults h]

def EveryTask (C : τ → σ → Prop) : List τ → σ → Prop
  | [], _ => True
  | t :: ts, s => C t s ∧ ∀ s', exec t (faults t) s = .ok s' → EveryTask C ts s'

theorem EveryTask.of_forall {C : τ → σ → Prop} {ts : List τ} (all : ∀ t ∈ ts, ∀ s, C t s)
    (s : σ) : EveryTask exec faults C ts s := by
  induction ts generalizing s with
  | nil => trivial
  | cons t ts ih =>
    exact ⟨all t List.mem_cons_self s,
      fun s' _ => ih (fun u hu => all u (List.mem_cons_of_mem t hu)) s'⟩

theorem EveryTask.append {C : τ → σ → Prop} {ts us : List τ} {s : σ}
    (h : EveryTask exec faults C (ts ++ us) s) :
    EveryTask exec faults C ts s ∧
      ∀ s', runTasks exec faults ts s = .ok s' → EveryTask exec faults C us s' := by
  induction ts generalizing s with
  | nil => exact ⟨trivial, fun s' done => by cases done; exact h⟩
  | cons t ts ih =>
    obtain ⟨now, later⟩ := h
    refine ⟨⟨now, fun s' done => (ih (later s' done)).1⟩, ?_⟩
    intro r done
    obtain ⟨s', first, rest⟩ := (runTasks_cons_eq_ok exec faults).mp done
    exact (ih (later s' first)).2 r rest

theorem EveryTask.mono {C D : τ → σ → Prop} {ts : List τ} {s : σ}
    (imp : ∀ t ∈ ts, ∀ s, C t s → D t s) (h : EveryTask exec faults C ts s) :
    EveryTask exec faults D ts s := by
  induction ts generalizing s with
  | nil => trivial
  | cons t ts ih =>
    obtain ⟨now, later⟩ := h
    exact ⟨imp t List.mem_cons_self s now, fun s' done =>
      ih (fun u hu => imp u (List.mem_cons_of_mem t hu)) (later s' done)⟩

/-- Invariant rule with a condition on the tasks: `I` is kept by every task that
goes through, and a failed one leaves at least `J`. -/
theorem runTasks_everyTask (C : τ → σ → Prop) (I J : σ → Prop) (ts : List τ)
    (go : ∀ t ∈ ts, ∀ s s', I s → C t s → exec t (faults t) s = .ok s' → I s')
    (halt : ∀ t ∈ ts, ∀ s s', I s → C t s → exec t (faults t) s = .failed s' → J s')
    (s : σ) (hs : I s) (hc : EveryTask exec faults C ts s) :
    (∀ r, runTasks exec faults ts s = .ok r → I r) ∧
      (∀ r, runTasks exec faults ts s = .failed r → J r) := by
  induction ts generalizing s with
  | nil => exact ⟨fun r h => by cases h; exact hs, fun r h => by cases h⟩
  | cons t ts ih =>
    obtain ⟨now, later⟩ := hc
    cases h : exec t (faults t) s with
    | ok s' =>
      rw [runTasks_cons_ok exec faults h]
      exact ih (fun u hu => go u (List.mem_cons_of_mem t hu))
        (fun u hu => halt u (List.mem_cons_of_mem t hu)) s'
        (go t List.mem_cons_self s s' hs now h) (later s' h)
    | failed s' =>
      rw [runTasks_cons_failed exec faults h]
      exact ⟨fun r hr => (by cases hr), fun r hr => by
        cases hr
        exact halt t List.mem_cons_self s s' hs now h⟩

theorem runTasks_ok_keeps (I : σ → Prop) {ts : List τ} {s r : σ}
    (step : ∀ t ∈ ts, ∀ s s', I s → exec t (faults t) s = .ok s' → I s') (hs : I s)
    (ok : runTasks exec faults ts s = .ok r) : I r := by
  have kept := runTasks_everyTask exec faults (fun _ _ => True) I (fun _ => True) ts
    (fun t ht s s' hi _ => step t ht s s' hi) (fun _ _ _ _ _ _ _ => trivial) s hs
    (EveryTask.of_forall exec faults (fun _ _ _ => trivial) s)
  exact kept.1 r ok

theorem EveryTask.cons {C : τ → σ → Prop} (mid : σ → Prop) {t : τ} {ts : List τ} {s : σ}
    (now : C t s) (first : ∀ s', exec t (faults t) s = .ok s' → mid s')
    (rest : ∀ s', mid s' → EveryTask exec faults C ts s') : EveryTask exec faults C (t :: ts) s :=
  ⟨now, fun s' done => rest s' (first s' done)⟩

/-- A play goes through exactly when all its tasks can, each in the state it meets. -/
theorem runTasks_completes_iff (C : τ → Prop) {ts : List τ} {s : σ}
    (each : EveryTask exec faults (fun t s => (∃ s', exec t (faults t) s = .ok s') ↔ C t) ts s) :
    (∃ r, runTasks exec faults ts s = .ok r) ↔ ∀ t ∈ ts, C t := by
  induction ts generalizing s with
  | nil => simp
  | cons t ts ih =>
    obtain ⟨now, later⟩ := each
    rw [List.forall_mem_cons, ← now]
    cases h : exec t (faults t) s with
    | ok s' => simp [runTasks_cons_ok exec faults h, ih (later s' h)]
    | failed s' => simp [runTasks_cons_failed exec faults h]

end Tasks

section Items
variable {ι σ : Type*}

/-- An item of a task under a possible fault, which says whether the item had taken
effect when the task failed. -/
def attempt (fault : Option (ι → Bool)) (i : ι) (act : σ → Outcome σ) (s : σ) : Outcome σ :=
  match fault with
  | none => act s
  | some done => .failed (if done i then (act s).state else s)

/-- A loop goes on over its items after one of them failed, and has then failed. -/
def withItems (act : ι → σ → Outcome σ) : List ι → σ → Outcome σ
  | [], s => .ok s
  | i :: is, s =>
    match act i s with
    | .ok s' => withItems act is s'
    | .failed s' => .failed (withItems act is s').state

theorem attempt_eq_ok {fault : Option (ι → Bool)} {i : ι} {act : σ → Outcome σ} {s r : σ} :
    attempt fault i act s = .ok r ↔ fault = none ∧ act s = .ok r := by
  cases fault <;> simp [attempt]

theorem attempt_meets {good bad : σ → Prop} {fault : Option (ι → Bool)} {i : ι}
    {act : σ → Outcome σ} {s : σ} (through : (act s).Meets good bad)
    (halt : ∀ done, fault = some done → bad (if done i then (act s).state else s)) :
    (attempt fault i act s).Meets good bad := by
  cases fault with
  | none => exact through
  | some done => exact halt done rfl

theorem attempt_meets_either {good bad : σ → Prop} {fault : Option (ι → Bool)} {i : ι}
    {act : σ → Outcome σ} {s : σ} (through : (act s).Meets good bad)
    (done : bad (act s).state) (undone : bad s) : (attempt fault i act s).Meets good bad := by
  refine attempt_meets through fun part _ => ?_
  split_ifs
  · exact done
  · exact undone

theorem withItems_cons_eq_ok {act : ι → σ → Outcome σ} {i : ι} {is : List ι} {s r : σ} :
    withItems act (i :: is) s = .ok r ↔
      ∃ s', act i s = .ok s' ∧ withItems act is s' = .ok r := by
  rw [withItems]
  cases act i s <;> simp

theorem withItems_singleton (act : ι → σ → Outcome σ) (i : ι) (s : σ) :
    withItems act [i] s = act i s := by
  rw [withItems]
  cases act i s <;> rfl

theorem withItems_preserves (act : ι → σ → Outcome σ) (I : σ → Prop)
    (step : ∀ i s, I s → I (act i s).state) (is : List ι) (s : σ) (hs : I s) :
    I (withItems act is s).state := by
  induction is generalizing s with
  | nil => exact hs
  | cons i is ih =>
    have next := step i s hs
    rw [withItems]
    cases h : act i s with
    | ok s' =>
      rw [h] at next
      exact ih s' next
    | failed s' =>
      rw [h] at next
      exact ih s' next

theorem withItems_eq_foldl {act : ι → σ → Outcome σ} (f : ι → σ → σ) {is : List ι} {s r : σ}
    (each : ∀ i ∈ is, ∀ s s', act i s = .ok s' → s' = f i s)
    (ok : withItems act is s = .ok r) : r = is.foldl (fun s i => f i s) s := by
  induction is generalizing s with
  | nil => exact (Outcome.ok.inj ok).symm
  | cons i is ih =>
    obtain ⟨next, first, rest⟩ := withItems_cons_eq_ok.mp ok
    have changed := each i List.mem_cons_self s next first
    rw [ih (fun j hj => each j (List.mem_cons_of_mem i hj)) rest, List.foldl_cons, changed]

/-- A loop goes through exactly when all its items can, and has then folded over them what
each of them does; `I` is what the items need to find. -/
theorem withItems_ok_iff {act : ι → σ → Outcome σ} (C : ι → Prop) (f : ι → σ → σ) (I : σ → Prop)
    {is : List ι} (each : ∀ i ∈ is, ∀ s, I s → ∀ r, act i s = .ok r ↔ C i ∧ r = f i s)
    (keep : ∀ i ∈ is, ∀ s, I s → I (f i s)) {s r : σ} (start : I s) :
    withItems act is s = .ok r ↔ (∀ i ∈ is, C i) ∧ r = is.foldl (fun s i => f i s) s := by
  induction is generalizing s with
  | nil => simp [withItems, eq_comm]
  | cons i is ih =>
    have rest := ih (fun j hj => each j (List.mem_cons_of_mem i hj))
      (fun j hj => keep j (List.mem_cons_of_mem i hj)) (keep i List.mem_cons_self s start)
    simp only [withItems_cons_eq_ok, each i List.mem_cons_self s start, List.forall_mem_cons,
      List.foldl_cons]
    constructor
    · rintro ⟨next, ⟨now, rfl⟩, later⟩
      exact ⟨⟨now, (rest.mp later).1⟩, (rest.mp later).2⟩
    · rintro ⟨⟨now, later⟩, done⟩
      exact ⟨f i s, ⟨now, rfl⟩, rest.mpr ⟨later, done⟩⟩

end Items

section Runs
variable {ρ η : Type*} (run : ρ → η → Outcome η)

def EveryRun (Q : ρ → η → Prop) : η → List ρ → Prop
  | _, [] => True
  | h, r :: rs => Q r h ∧ EveryRun Q (run r h).state rs

def EveryCompleted (P : η → Prop) : η → List ρ → Prop :=
  EveryRun run fun r h => ∀ h', run r h = .ok h' → P h'

theorem EveryRun.congr_invariant {Q R : ρ → η → Prop} (I : η → Prop) {rs : List ρ}
    (keep : ∀ r ∈ rs, ∀ h, I h → Q r h → I (run r h).state)
    (same : ∀ r ∈ rs, ∀ h, I h → (Q r h ↔ R r h)) (h : η) (start : I h) :
    EveryRun run Q h rs ↔ EveryRun run R h rs := by
  induction rs generalizing h with
  | nil => exact Iff.rfl
  | cons r rs ih =>
    rw [EveryRun, EveryRun, ← same r List.mem_cons_self h start]
    refine and_congr_right fun now => ih (fun r hr => keep r (List.mem_cons_of_mem _ hr))
      (fun r hr => same r (List.mem_cons_of_mem _ hr)) _ ?_
    exact keep r List.mem_cons_self h start now

/-- When a run that completes leaves `P` exactly if `C` held at its start, `P` holds after
every such run exactly if `C` holds ahead of every such run. -/
theorem everyCompleted_iff {P : η → Prop} {C : ρ → η → Prop} (I : η → Prop) {rs : List ρ}
    (keep : ∀ r h, I h → I (run r h).state)
    (same : ∀ r ∈ rs, ∀ h h', I h → run r h = .ok h' → (P h' ↔ C r h)) (h : η) (start : I h) :
    EveryCompleted run P h rs ↔
      EveryRun run (fun r h => (run r h).completed = true → C r h) h rs := by
  refine EveryRun.congr_invariant run I (fun r _ h inv _ => keep r h inv)
    (fun r listed h inv => ?_) h start
  rw [Outcome.completed_iff]
  constructor
  · intro all ok
    exact (same r listed h _ inv ok).mp (all _ ok)
  · intro cond h' ok
    refine (same r listed h h' inv ok).mpr (cond ?_)
    rw [ok, Outcome.state_ok]

theorem EveryRun.of_forall {Q : ρ → η → Prop} {rs : List ρ} (all : ∀ r ∈ rs, ∀ h, Q r h) (h : η) :
    EveryRun run Q h rs := by
  induction rs generalizing h with
  | nil => trivial
  | cons r rs ih =>
    exact ⟨all r List.mem_cons_self h, ih (fun r hr => all r (List.mem_cons_of_mem _ hr)) _⟩

/-- Invariant rule for sequences of runs: under the condition `C` on the runs the
invariant `I` of the host is kept, and it gives `Q`. -/
theorem EveryRun.of_invariant {C Q : ρ → η → Prop} (I : η → Prop)
    (keep : ∀ r h, I h → C r h → I (run r h).state)
    (give : ∀ r h, I h → C r h → Q r h) (h : η) (rs : List ρ)
    (start : I h) (cond : EveryRun run C h rs) : EveryRun run Q h rs := by
  induction rs generalizing h with
  | nil => trivial
  | cons r rs ih =>
    obtain ⟨now, later⟩ := cond
    exact ⟨give r h start now, ih _ (keep r h start now) later⟩

end Runs

end LempStack.PlayRun
