import LempStack.PlayRun

/-! Services, their configuration files and what their processes have loaded. A play
writes files, works on packages, starts and stops services, and its writes notify
handlers that restart services at its end. A run that fails drops its notifications.
The last section is the rule this gives: while every write notifies a handler of its
service and no task fails over a pending one, each play ends with every running
service on the files it has on disk. -/

namespace LempStack.ServiceConfig
open PlayRun

-- `loaded` is what the running process has read; none for a service that does not run
structure Host (S P C : Type*) where
  conf : S → P → Option C
  loaded : S → Option (P → Option C)

structure Item (S P C : Type*) where
  service : S
  path : P
  content : C

/-- What a package operation leaves: new files where there were none, and a service
that has been started on them or does not run. -/
structure PackageWork (S P C : Type*) where
  service : S
  dropped : P → Option C
  starts : Bool

inductive Body (S P C H : Type*) where
  | write (items : List (Item S P C)) (notify : List H)
  | package (works : List (PackageWork S P C))
  -- its failure is ignored
  | tolerant (works : List (PackageWork S P C))
  | start (services : List S)
  | stop (services : List S)
  | restart (handler : H)
  | other

structure Task (N S P C H : Type*) where
  name : N
  body : Body S P C H

structure Play (S P C H : Type*) where
  host : Host S P C
  notified : H → Bool

/-- The items a failed task had got done, by their positions. -/
def part {α : Type*} (sel : ℕ → Bool) (xs : List α) : List α :=
  (xs.zipIdx.filter fun x => sel x.2).map Prod.fst

theorem mem_of_mem_part {α : Type*} {sel : ℕ → Bool} {xs : List α} {x : α}
    (h : x ∈ part sel xs) : x ∈ xs := by
  obtain ⟨⟨y, n⟩, kept, rfl⟩ := List.mem_map.mp h
  exact List.fst_mem_of_mem_zipIdx (List.mem_filter.mp kept).1

theorem part_all {α : Type*} (xs : List α) : part (fun _ => true) xs = xs := by
  simp [part]

section Processes
variable {S P C : Type*} [DecidableEq S]

def Current (h : Host S P C) (s : S) : Prop :=
  ∀ snapshot, h.loaded s = some snapshot → snapshot = h.conf s

def restart (s : S) (h : Host S P C) : Host S P C :=
  { h with loaded := fun t => if t = s then some (h.conf s) else h.loaded t }

def stop (s : S) (h : Host S P C) : Host S P C :=
  { h with loaded := fun t => if t = s then none else h.loaded t }

def start (s : S) (h : Host S P C) : Host S P C :=
  match h.loaded s with
  | some _ => h
  | none => restart s h

def package (w : PackageWork S P C) (h : Host S P C) : Host S P C :=
  let h' := { h with conf := fun s p =>
    if s = w.service then (h.conf s p).or (w.dropped p) else h.conf s p }
  if w.starts then restart w.service h' else stop w.service h'

theorem current_restart_self (s : S) (h : Host S P C) : Current (restart s h) s := by
  intro snapshot running
  simp only [restart, if_true, Option.some.injEq] at running
  exact running.symm

theorem current_restart (s : S) {h : Host S P C} {t : S} (current : Current h t) :
    Current (restart s h) t := by
  by_cases same : t = s
  · rw [same]
    exact current_restart_self s h
  · intro snapshot running
    simp only [restart, same, if_false] at running
    exact current snapshot running

theorem current_stop (s : S) {h : Host S P C} {t : S} (current : Current h t) :
    Current (stop s h) t := by
  intro snapshot running
  by_cases same : t = s
  · simp [stop, same] at running
  · simp only [stop, same, if_false] at running
    exact current snapshot running

theorem current_start (s : S) {h : Host S P C} {t : S} (current : Current h t) :
    Current (start s h) t := by
  unfold start
  split
  · exact current
  · exact current_restart s current

theorem current_package (w : PackageWork S P C) {h : Host S P C} {t : S}
    (current : Current h t) : Current (package w h) t := by
  intro snapshot running
  by_cases mine : t = w.service
  · subst mine
    cases starts : w.starts <;> simp [package, starts, restart, stop] at running ⊢
    exact running.symm
  · have kept : h.loaded t = some snapshot := by
      cases starts : w.starts <;> simpa [package, starts, restart, stop, mine] using running
    rw [current snapshot kept]
    funext p
    cases starts : w.starts <;> simp [package, starts, restart, stop, mine]

omit [DecidableEq S] in
theorem foldl_current {α : Type*} {f : Host S P C → α → Host S P C} {s : S}
    (keep : ∀ h a, Current h s → Current (f h a) s) (xs : List α) {h : Host S P C}
    (current : Current h s) : Current (xs.foldl f h) s :=
  List.foldlRecOn (motive := fun h => Current h s) xs f current fun h hs a _ => keep h a hs

theorem foldl_restart_current (services : List S) (h : Host S P C) {s : S}
    (listed : s ∈ services) : Current (services.foldl (fun h s => restart s h) h) s := by
  induction services generalizing h with
  | nil => cases listed
  | cons t ts ih =>
    by_cases later : s ∈ ts
    · exact ih _ later
    · have same : s = t := (List.mem_cons.mp listed).resolve_right later
      subst same
      exact foldl_current (fun h t => current_restart t) ts (current_restart_self s h)

end Processes

section Files
variable {S P C : Type*} [DecidableEq S] [DecidableEq P]

def writeItem (i : Item S P C) (h : Host S P C) : Host S P C :=
  { h with conf := fun s p => if s = i.service ∧ p = i.path then some i.content else h.conf s p }

theorem writeItem_same {i : Item S P C} {h : Host S P C}
    (same : h.conf i.service i.path = some i.content) : (writeItem i h).conf = h.conf := by
  funext s p
  simp only [writeItem]
  split_ifs with here
  · rw [here.1, here.2, same]
  · rfl

theorem writeItem_other {i : Item S P C} {h : Host S P C} {s : S} (other : i.service ≠ s) :
    (writeItem i h).conf s = h.conf s := by
  funext p
  have ne : ¬ s = i.service := fun same => other same.symm
  simp [writeItem, ne]

def Quiet (items : List (Item S P C)) (h : Host S P C) : Prop :=
  ∀ i ∈ items, (h.loaded i.service).isSome = true → h.conf i.service i.path = some i.content

variable [DecidableEq C]

def writeAll : List (Item S P C) → Host S P C → Host S P C × Bool
  | [], h => (h, false)
  | i :: is, h =>
    let rest := writeAll is (writeItem i h)
    (rest.1, decide (h.conf i.service i.path ≠ some i.content) || rest.2)

theorem writeAll_loaded (items : List (Item S P C)) (h : Host S P C) :
    (writeAll items h).1.loaded = h.loaded := by
  induction items generalizing h with
  | nil => rfl
  | cons i is ih => exact ih (writeItem i h)

theorem writeAll_unchanged (items : List (Item S P C)) (h : Host S P C)
    (flag : (writeAll items h).2 = false) : (writeAll items h).1.conf = h.conf := by
  induction items generalizing h with
  | nil => rfl
  | cons i is ih =>
    obtain ⟨first, rest⟩ := Bool.or_eq_false_iff.mp flag
    have same : h.conf i.service i.path = some i.content := by simpa using first
    exact (ih _ rest).trans (writeItem_same same)

theorem writeAll_untouched (items : List (Item S P C)) (h : Host S P C) (s : S)
    (same : ∀ i ∈ items, i.service = s → h.conf s i.path = some i.content) :
    (writeAll items h).1.conf s = h.conf s := by
  induction items generalizing h with
  | nil => rfl
  | cons i is ih =>
    have first : (writeItem i h).conf s = h.conf s := by
      by_cases mine : i.service = s
      · subst mine
        rw [writeItem_same (same i List.mem_cons_self rfl)]
      · exact writeItem_other mine
    refine (ih (writeItem i h) fun j hj mine => ?_).trans first
    rw [first]
    exact same j (List.mem_cons_of_mem i hj) mine

theorem current_writeAll_of_same {items : List (Item S P C)} {h : Host S P C} {s : S}
    (same : ∀ i ∈ items, i.service = s → (h.loaded s).isSome = true →
      h.conf s i.path = some i.content) (current : Current h s) :
    Current (writeAll items h).1 s := by
  intro snapshot running
  rw [writeAll_loaded] at running
  rw [current snapshot running]
  refine (writeAll_untouched items h s fun i hi mine => ?_).symm
  exact same i hi mine (by rw [running]; rfl)

theorem current_writeAll_quiet {items : List (Item S P C)} {h : Host S P C}
    (quiet : Quiet items h) {s : S} (current : Current h s) :
    Current (writeAll items h).1 s := by
  refine current_writeAll_of_same (fun i hi mine => ?_) current
  subst mine
  exact quiet i hi

end Files

section Plays
variable {N S P C H : Type*} [DecidableEq S] [DecidableEq P] [DecidableEq C] [DecidableEq H]
variable (targets : H → List S)

def perform (sel : ℕ → Bool) (b : Body S P C H) (p : Play S P C H) : Play S P C H :=
  match b with
  | .write items notify =>
    let written := writeAll (part sel items) p.host
    ⟨written.1, fun hd => p.notified hd || (written.2 && decide (hd ∈ notify))⟩
  | .package works => { p with host := (part sel works).foldl (fun h w => package w h) p.host }
  | .tolerant works => { p with host := (part sel works).foldl (fun h w => package w h) p.host }
  | .start services => { p with host := (part sel services).foldl (fun h s => start s h) p.host }
  | .stop services => { p with host := (part sel services).foldl (fun h s => stop s h) p.host }
  | .restart hd =>
    if p.notified hd then
      { p with host := (part sel (targets hd)).foldl (fun h s => restart s h) p.host }
    else p
  | .other => p

/-- Nothing to do, or nothing that ends the play. -/
def skipped (p : Play S P C H) : Body S P C H → Bool
  | .write items _ => items.isEmpty
  | .package _ => false
  | .tolerant _ => true
  | .start services => services.isEmpty
  | .stop services => services.isEmpty
  | .restart hd => !p.notified hd
  | .other => false

def exec (t : Task N S P C H) (fault : Option (ℕ → Bool)) (p : Play S P C H) :
    Outcome (Play S P C H) :=
  match fault with
  | none => .ok (perform targets (fun _ => true) t.body p)
  | some sel =>
    if skipped p t.body then .ok p else .failed (perform targets sel t.body p)

def Body.writes : Body S P C H → List (Item S P C)
  | .write items _ => items
  | _ => []

/-- Every file that is written belongs to a service some notified handler restarts. -/
def Covered (handlers : List H) : Body S P C H → Prop
  | .write items notify =>
    ∀ i ∈ items, ∃ hd ∈ notify, hd ∈ handlers ∧ i.service ∈ targets hd
  | _ => True

def Pending (handlers : List H) (p : Play S P C H) (s : S) : Prop :=
  ∃ hd ∈ handlers, p.notified hd = true ∧ s ∈ targets hd

/-- Writes notify or are quiet, and a fault that ends the play comes only while no service
waits for a restart and changes no file of a running one. -/
def Careful (handlers : List H) (fault : Option (ℕ → Bool)) (b : Body S P C H)
    (p : Play S P C H) : Prop :=
  (Covered targets handlers b ∨ Quiet b.writes p.host) ∧
    (fault.isSome = true → skipped p b = false →
      (∀ s, Current p.host s) ∧ Quiet b.writes p.host)

theorem perform_current (sel : ℕ → Bool) (b : Body S P C H) (p : Play S P C H)
    (quiet : Quiet b.writes p.host) {s : S} (current : Current p.host s) :
    Current (perform targets sel b p).host s := by
  cases b with
  | write items notify =>
    exact current_writeAll_quiet (fun i hi => quiet i (mem_of_mem_part hi)) current
  | package works => exact foldl_current (fun h w => current_package w) _ current
  | tolerant works => exact foldl_current (fun h w => current_package w) _ current
  | start services => exact foldl_current (fun h t => current_start t) _ current
  | stop services => exact foldl_current (fun h t => current_stop t) _ current
  | restart hd =>
    simp only [perform]
    split_ifs
    · exact foldl_current (fun h t => current_restart t) _ current
    · exact current
  | other => exact current

theorem perform_notified (sel : ℕ → Bool) (b : Body S P C H) (p : Play S P C H) {hd : H}
    (h : p.notified hd = true) : (perform targets sel b p).notified hd = true := by
  cases b with
  | write items notify => simp [perform, h]
  | restart other =>
    simp only [perform]
    split_ifs <;> exact h
  | _ => exact h

theorem write_pending (handlers : List H) (items : List (Item S P C)) (notify : List H)
    (p : Play S P C H) (covered : Covered targets handlers (.write items notify)) {s : S}
    (current : Current p.host s) :
    Current (perform targets (fun _ => true) (.write items notify) p).host s ∨
      Pending targets handlers (perform targets (fun _ => true) (.write items notify) p) s := by
  by_cases mine : ∃ i ∈ items, i.service = s
  · cases flag : (writeAll items p.host).2 with
    | true =>
      obtain ⟨i, hi, rfl⟩ := mine
      obtain ⟨hd, listed, known, restarts⟩ := covered i hi
      refine .inr ⟨hd, known, ?_, restarts⟩
      simp [perform, part_all, flag, listed]
    | false =>
      left
      intro snapshot running
      simp only [perform, part_all] at running ⊢
      rw [writeAll_loaded] at running
      rw [writeAll_unchanged items p.host flag]
      exact current snapshot running
  · left
    simp only [perform, part_all]
    exact current_writeAll_of_same (fun i hi same => absurd ⟨i, hi, same⟩ mine) current

theorem perform_pending (handlers : List H) (b : Body S P C H) (p : Play S P C H)
    (ready : Covered targets handlers b ∨ Quiet b.writes p.host) {s : S}
    (h : Current p.host s ∨ Pending targets handlers p s) :
    Current (perform targets (fun _ => true) b p).host s ∨
      Pending targets handlers (perform targets (fun _ => true) b p) s := by
  rcases h with current | ⟨hd, known, notified, restarts⟩
  · by_cases quiet : Quiet b.writes p.host
    · exact .inl (perform_current targets _ b p quiet current)
    · have covered := ready.resolve_right quiet
      cases b with
      | write items notify => exact write_pending targets handlers items notify p covered current
      | _ => exact absurd (fun i hi => by cases hi) quiet
  · exact .inr ⟨hd, known, perform_notified targets _ b p notified, restarts⟩

theorem exec_ok {t : Task N S P C H} {fault : Option (ℕ → Bool)} {p q : Play S P C H}
    (ok : exec targets t fault p = .ok q) :
    q = perform targets (fun _ => true) t.body p ∨ q = p ∧ skipped p t.body = true := by
  cases fault with
  | none => exact .inl (Outcome.ok.inj ok).symm
  | some sel =>
    simp only [exec] at ok
    split_ifs at ok with idle
    exact .inr ⟨(Outcome.ok.inj ok).symm, idle⟩

theorem exec_failed {t : Task N S P C H} {fault : Option (ℕ → Bool)} {p q : Play S P C H}
    (failed : exec targets t fault p = .failed q) :
    (fault.isSome = true ∧ skipped p t.body = false) ∧
      ∃ sel, q = perform targets sel t.body p := by
  cases fault with
  | none => cases failed
  | some sel =>
    simp only [exec] at failed
    split_ifs at failed with idle
    exact ⟨⟨rfl, by simpa using idle⟩, sel, (Outcome.failed.inj failed).symm⟩

theorem failed_current {handlers : List H} {t : Task N S P C H} {fault : Option (ℕ → Bool)}
    {p q : Play S P C H} (careful : Careful targets handlers fault t.body p)
    (failed : exec targets t fault p = .failed q) (s : S) : Current q.host s := by
  obtain ⟨⟨faulty, active⟩, sel, rfl⟩ := exec_failed targets failed
  obtain ⟨current, quiet⟩ := careful.2 faulty active
  exact perform_current targets sel t.body p quiet (current s)

/-- The tasks of a play leave every service current or with a restart to come, and
current when one of them fails. -/
theorem tasks_pending (handlers : List H) (faults : Task N S P C H → Option (ℕ → Bool))
    (tasks : List (Task N S P C H)) (p : Play S P C H) (current : ∀ s, Current p.host s)
    (careful : EveryTask (exec targets) faults
      (fun t p => Careful targets handlers (faults t) t.body p) tasks p) :
    (∀ q, runTasks (exec targets) faults tasks p = .ok q →
        ∀ s, Current q.host s ∨ Pending targets handlers q s) ∧
      (∀ q, runTasks (exec targets) faults tasks p = .failed q → ∀ s, Current q.host s) := by
  refine runTasks_everyTask (exec targets) faults
    (fun t p => Careful targets handlers (faults t) t.body p)
    (fun q => ∀ s, Current q.host s ∨ Pending targets handlers q s)
    (fun q => ∀ s, Current q.host s) tasks ?_ ?_ p (fun s => .inl (current s)) careful
  · intro t _ p q inv careful ok s
    rcases exec_ok targets ok with rfl | ⟨rfl, -⟩
    · exact perform_pending targets handlers t.body p careful.1 (inv s)
    · exact inv s
  · intro t _ p q _ careful failed s
    exact failed_current targets careful failed s

variable (handlerName : H → N)

def handlerTask (hd : H) : Task N S P C H := ⟨handlerName hd, .restart hd⟩

theorem handler_settles (faults : Task N S P C H → Option (ℕ → Bool)) {hd : H}
    {handlers : List H} {p q : Play S P C H}
    (ok : exec targets (handlerTask handlerName hd) (faults (handlerTask handlerName hd)) p = .ok q)
    {s : S} (waiting : Current p.host s ∨ Pending targets (hd :: handlers) p s) :
    Current q.host s ∨ Pending targets handlers q s := by
  rcases exec_ok targets ok with rfl | ⟨rfl, idle⟩
  · rcases waiting with current | ⟨other, listed, notified, restarts⟩
    · exact .inl (perform_current targets _ _ p (fun i hi => by cases hi) current)
    · rcases List.mem_cons.mp listed with rfl | rest
      · left
        simp only [handlerTask, perform, notified, if_true, part_all]
        exact foldl_restart_current _ _ restarts
      · exact .inr ⟨other, rest, perform_notified targets _ _ p notified, restarts⟩
  · refine waiting.imp id ?_
    rintro ⟨other, listed, notified, restarts⟩
    rcases List.mem_cons.mp listed with rfl | rest
    · -- it was notified, so it was not skipped
      simp [handlerTask, skipped, notified] at idle
    · exact ⟨other, rest, notified, restarts⟩

theorem handlers_current (faults : Task N S P C H → Option (ℕ → Bool)) (all handlers : List H)
    (p : Play S P C H) (waiting : ∀ s, Current p.host s ∨ Pending targets handlers p s)
    (careful : EveryTask (exec targets) faults
      (fun t p => Careful targets all (faults t) t.body p)
      (handlers.map (handlerTask handlerName)) p) (s : S) :
    Current (runTasks (exec targets) faults (handlers.map (handlerTask handlerName)) p).state.host
      s := by
  induction handlers generalizing p with
  | nil =>
    refine (waiting s).resolve_right ?_
    rintro ⟨hd, listed, -⟩
    cases listed
  | cons hd handlers ih =>
    obtain ⟨now, later⟩ := careful
    rw [List.map_cons]
    cases h : exec targets (handlerTask handlerName hd) (faults (handlerTask handlerName hd)) p with
    | failed q =>
      rw [runTasks_cons_failed (exec targets) faults h]
      exact failed_current targets now h s
    | ok q =>
      rw [runTasks_cons_ok (exec targets) faults h]
      exact ih q (fun t => handler_settles targets handlerName faults h (waiting t)) (later q h)

def play (tasks : List (Task N S P C H)) (handlers : List H) : List (Task N S P C H) :=
  tasks ++ handlers.map (handlerTask handlerName)

def runPlay (tasks : List (Task N S P C H)) (handlers : List H)
    (faults : Task N S P C H → Option (ℕ → Bool)) (h : Host S P C) : Outcome (Host S P C) :=
  (runTasks (exec targets) faults (play handlerName tasks handlers) ⟨h, fun _ => false⟩).map
    Play.host

/-- A careful run that starts with every service current ends so, failed or not. -/
theorem runPlay_current (tasks : List (Task N S P C H)) (handlers : List H)
    (faults : Task N S P C H → Option (ℕ → Bool)) (h : Host S P C)
    (current : ∀ s, Current h s)
    (careful : EveryTask (exec targets) faults
      (fun t p => Careful targets handlers (faults t) t.body p)
      (play handlerName tasks handlers) ⟨h, fun _ => false⟩) (s : S) :
    Current (runPlay targets handlerName tasks handlers faults h).state s := by
  obtain ⟨before, after⟩ := careful.append
  obtain ⟨done, ended⟩ := tasks_pending targets handlers faults tasks ⟨h, fun _ => false⟩
    current before
  rw [runPlay, Outcome.state_map, play, runTasks_append]
  cases r : runTasks (exec targets) faults tasks ⟨h, fun _ => false⟩ with
  | failed q => exact ended q r s
  | ok q =>
    exact handlers_current targets handlerName faults handlers handlers q (done q r) (after q r) s

end Plays

end LempStack.ServiceConfig
