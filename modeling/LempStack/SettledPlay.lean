import LempStack.ServiceConfig

/-! Plays that nothing disturbs. Such a play is a fold over its tasks; when its writes agree
on every place and nothing is stopped or installed, what it leaves is a state in which it has
nothing more to do. A service that a task does not concern is as the task found it. -/

namespace LempStack.SettledPlay
open PlayRun ServiceConfig

section Writing
variable {S P C : Type*}

def SamePlace (i j : Item S P C) : Prop := i.service = j.service ∧ i.path = j.path

/-- No two of the items want different contents at one place. -/
def Agreeing (is : List (Item S P C)) : Prop :=
  ∀ i ∈ is, ∀ j ∈ is, SamePlace i j → i.content = j.content

theorem Agreeing.subset {is js : List (Item S P C)} (agree : Agreeing js) (sub : is ⊆ js) :
    Agreeing is :=
  fun i hi j hj => agree i (sub hi) j (sub hj)

def OnDisk (h : Host S P C) (i : Item S P C) : Prop := h.conf i.service i.path = some i.content

theorem onDisk_congr {h : Host S P C} {i j : Item S P C} (place : SamePlace i j)
    (same : i.content = j.content) : OnDisk h i ↔ OnDisk h j := by
  rw [OnDisk, OnDisk, place.1, place.2, same]

variable [DecidableEq S] [DecidableEq P]

theorem onDisk_writeItem {i j : Item S P C} (same : SamePlace i j → i.content = j.content)
    (h : Host S P C) : OnDisk (writeItem j h) i ↔ SamePlace i j ∨ OnDisk h i := by
  by_cases place : SamePlace i j
  · refine iff_of_true ?_ (.inl place)
    rw [onDisk_congr place (same place)]
    exact if_pos ⟨rfl, rfl⟩
  · rw [or_iff_right place, OnDisk, OnDisk]
    exact iff_of_eq (congrArg (· = some i.content) (if_neg place))

variable [DecidableEq C]

theorem onDisk_writeAll {items : List (Item S P C)} {i : Item S P C}
    (same : ∀ j ∈ items, SamePlace i j → i.content = j.content) (h : Host S P C) :
    OnDisk (writeAll items h).1 i ↔ (∃ j ∈ items, SamePlace i j) ∨ OnDisk h i := by
  induction items generalizing h with
  | nil => simp [writeAll]
  | cons j items ih =>
    obtain ⟨first, rest⟩ := List.forall_mem_cons.mp same
    rw [writeAll, ih rest, onDisk_writeItem first, List.exists_mem_cons_iff, or_left_comm, or_assoc]

theorem writeAll_keeps {items : List (Item S P C)} {h : Host S P C} {i : Item S P C}
    (same : ∀ j ∈ items, SamePlace i j → i.content = j.content) (on : OnDisk h i) :
    OnDisk (writeAll items h).1 i :=
  (onDisk_writeAll same h).mpr (.inr on)

theorem writeAll_onDisk {items : List (Item S P C)} (agree : Agreeing items) (h : Host S P C)
    {i : Item S P C} (listed : i ∈ items) : OnDisk (writeAll items h).1 i :=
  (onDisk_writeAll (agree i listed) h).mpr (.inl ⟨i, listed, rfl, rfl⟩)

theorem writeAll_other {items : List (Item S P C)} {s : S} {path : P}
    (other : ∀ i ∈ items, i.service = s → i.path ≠ path) (h : Host S P C) :
    (writeAll items h).1.conf s path = h.conf s path := by
  induction items generalizing h with
  | nil => rfl
  | cons i items ih =>
    obtain ⟨first, rest⟩ := List.forall_mem_cons.mp other
    rw [writeAll, ih rest]
    exact if_neg fun here => first here.1.symm here.2.symm

theorem writeAll_still {items : List (Item S P C)} {h : Host S P C} (on : ∀ i ∈ items, OnDisk h i) :
    writeAll items h = (h, false) := by
  induction items with
  | nil => rfl
  | cons i items ih =>
    obtain ⟨first, rest⟩ := List.forall_mem_cons.mp on
    have same : writeItem i h = h := congrArg (Host.mk · h.loaded) (writeItem_same first)
    rw [writeAll, same, ih rest]
    simp [show h.conf i.service i.path = some i.content from first]

theorem writeAll_flag {items : List (Item S P C)} (agree : Agreeing items) (h : Host S P C) :
    (writeAll items h).2 = true ↔ ∃ i ∈ items, ¬ OnDisk h i := by
  induction items generalizing h with
  | nil => simp [writeAll]
  | cons j items ih =>
    have rest := ih (agree.subset (List.subset_cons_self j items)) (writeItem j h)
    rw [writeAll, Bool.or_eq_true, decide_eq_true_eq, rest, List.exists_mem_cons_iff]
    constructor
    · rintro (first | ⟨i, listed, off⟩)
      · exact .inl first
      · have same := agree i (List.mem_cons_of_mem j listed) j List.mem_cons_self
        rw [onDisk_writeItem same, not_or] at off
        exact .inr ⟨i, listed, off.2⟩
    · rintro (first | ⟨i, listed, off⟩)
      · exact .inl first
      · have same := agree i (List.mem_cons_of_mem j listed) j List.mem_cons_self
        by_cases place : SamePlace i j
        · rw [onDisk_congr place (same place)] at off
          exact .inl off
        · refine .inr ⟨i, listed, ?_⟩
          rw [onDisk_writeItem same, not_or]
          exact ⟨place, off⟩

end Writing

section Processes
variable {S P C : Type*}

theorem foldl_conf {α : Type*} {f : Host S P C → α → Host S P C}
    (keep : ∀ h a, (f h a).conf = h.conf)
    (xs : List α) (h : Host S P C) : (xs.foldl f h).conf = h.conf := by
  induction xs generalizing h with
  | nil => rfl
  | cons x xs ih => exact (ih _).trans (keep h x)

theorem foldl_running {α : Type*} {f : Host S P C → α → Host S P C} {s : S}
    (keep : ∀ h a, (h.loaded s).isSome = true → ((f h a).loaded s).isSome = true) (xs : List α)
    {h : Host S P C} (running : (h.loaded s).isSome = true) :
    ((xs.foldl f h).loaded s).isSome = true :=
  List.foldlRecOn (motive := fun h => (h.loaded s).isSome = true) xs f running fun h hs a _ =>
    keep h a hs

variable [DecidableEq S]

theorem start_conf (h : Host S P C) (s : S) : (start s h).conf = h.conf := by
  unfold start
  split <;> rfl

theorem restart_conf (h : Host S P C) (s : S) : (restart s h).conf = h.conf := rfl

theorem stop_conf (h : Host S P C) (s : S) : (stop s h).conf = h.conf := rfl

theorem foldl_restart_running_iff (services : List S) (h : Host S P C) (s : S) :
    ((services.foldl (fun h s => restart s h) h).loaded s).isSome = true ↔
      (h.loaded s).isSome = true ∨ s ∈ services := by
  induction services generalizing h with
  | nil => simp
  | cons t ts ih =>
    rw [List.foldl_cons, ih, List.mem_cons, ← or_assoc]
    refine or_congr_left ?_
    rcases eq_or_ne s t with rfl | other
    · simp [restart]
    · simp [restart, other]

theorem restart_running {h : Host S P C} {s : S} (t : S) (running : (h.loaded s).isSome = true) :
    ((restart t h).loaded s).isSome = true := by
  simp only [restart]
  split_ifs
  · rfl
  · exact running

theorem start_running {h : Host S P C} {s : S} (t : S) (running : (h.loaded s).isSome = true) :
    ((start t h).loaded s).isSome = true := by
  unfold start
  split
  · exact running
  · exact restart_running t running

theorem start_self (h : Host S P C) (s : S) : ((start s h).loaded s).isSome = true := by
  unfold start
  split
  · rename_i loaded
    rw [loaded]
    rfl
  · simp [restart]

theorem foldl_start_running {services : List S} {s : S} (listed : s ∈ services) (h : Host S P C) :
    ((services.foldl (fun h s => start s h) h).loaded s).isSome = true := by
  induction services generalizing h with
  | nil => cases listed
  | cons t ts ih =>
    rcases List.mem_cons.mp listed with rfl | later
    · exact foldl_running (fun h t => start_running t) ts (start_self h s)
    · exact ih later _

theorem foldl_package_conf (works : List (PackageWork S P C)) (h : Host S P C) (s : S) (path : P) :
    (works.foldl (fun h w => package w h) h).conf s path =
      (h.conf s path).or
        (works.findSome? fun w => if w.service = s then w.dropped path else none) := by
  induction works generalizing h with
  | nil => simp
  | cons w works ih =>
    have one : (package w h).conf s path =
        (h.conf s path).or (if w.service = s then w.dropped path else none) := by
      unfold package
      by_cases own : w.service = s
      · subst own
        cases w.starts <;> simp [restart, stop]
      · have other : ¬ s = w.service := fun same => own same.symm
        cases w.starts <;> simp [restart, stop, own, other]
    rw [List.foldl_cons, ih, one, Option.or_assoc, List.findSome?_cons]
    congr 1
    cases (if w.service = s then w.dropped path else none) <;> rfl

section Others
variable {s : S}

def SameService (s : S) (h k : Host S P C) : Prop := k.conf s = h.conf s ∧ k.loaded s = h.loaded s

omit [DecidableEq S] in
theorem foldl_sameService {α : Type*} {f : Host S P C → α → Host S P C} {xs : List α}
    (keep : ∀ h, ∀ a ∈ xs, SameService s h (f h a)) (h : Host S P C) :
    SameService s h (xs.foldl f h) :=
  List.foldlRecOn (motive := SameService s h) xs f ⟨rfl, rfl⟩ fun k same a listed =>
    ⟨(keep k a listed).1.trans same.1, (keep k a listed).2.trans same.2⟩

theorem restart_sameService {t : S} (other : s ≠ t) (h : Host S P C) :
    SameService s h (restart t h) :=
  ⟨rfl, if_neg other⟩

theorem stop_sameService {t : S} (other : s ≠ t) (h : Host S P C) : SameService s h (stop t h) :=
  ⟨rfl, if_neg other⟩

theorem start_sameService {t : S} (other : s ≠ t) (h : Host S P C) :
    SameService s h (start t h) := by
  unfold start
  split
  · exact ⟨rfl, rfl⟩
  · exact restart_sameService other h

theorem package_sameService {w : PackageWork S P C} (other : s ≠ w.service) (h : Host S P C) :
    SameService s h (package w h) := by
  unfold package SameService
  cases w.starts <;> simp [restart, stop, other]

end Others

end Processes

section Sweeps
variable {N S P C H : Type*} [DecidableEq S] [DecidableEq P] [DecidableEq C] [DecidableEq H]
variable (targets : H → List S)

/-- The tasks one after the other, with nothing in their way. -/
def sweep (tasks : List (Task N S P C H)) (p : Play S P C H) : Play S P C H :=
  tasks.foldl (fun p t => perform targets (fun _ => true) t.body p) p

theorem runTasks_undisturbed {faults : Task N S P C H → Option (ℕ → Bool)}
    (calm : ∀ t, faults t = none)
    (tasks : List (Task N S P C H)) (p : Play S P C H) :
    runTasks (exec targets) faults tasks p = .ok (sweep targets tasks p) := by
  induction tasks generalizing p with
  | nil => rfl
  | cons t tasks ih =>
    have first : exec targets t (faults t) p = .ok (perform targets (fun _ => true) t.body p) := by
      rw [calm t]
      rfl
    rw [runTasks_cons_ok (exec targets) faults first, ih]
    rfl

def itemsOf (tasks : List (Task N S P C H)) : List (Item S P C) :=
  tasks.flatMap fun t => t.body.writes

def starts : Body S P C H → List S
  | .start services => services
  | _ => []

def Installed : Body S P C H → Prop
  | .package works | .tolerant works => works = []
  | _ => True

def Unstopped : Body S P C H → Prop
  | .stop services => services = []
  | _ => True

variable {targets}

theorem perform_conf {b : Body S P C H} (installed : Installed b) (p : Play S P C H) :
    (perform targets (fun _ => true) b p).host.conf = (writeAll b.writes p.host).1.conf := by
  cases b with
  | write items notify => simp only [perform, part_all, Body.writes]
  | package works | tolerant works =>
    rw [show works = [] from installed]
    rfl
  | start services => exact foldl_conf start_conf _ _
  | stop services => exact foldl_conf stop_conf _ _
  | restart hd =>
    simp only [perform]
    split_ifs
    · exact foldl_conf restart_conf _ _
    · rfl
  | other => rfl

theorem perform_running {b : Body S P C H} (installed : Installed b) (unstopped : Unstopped b)
    {p : Play S P C H} {s : S} (running : (p.host.loaded s).isSome = true) :
    ((perform targets (fun _ => true) b p).host.loaded s).isSome = true := by
  cases b with
  | write items notify =>
    simp only [perform, writeAll_loaded]
    exact running
  | package works | tolerant works =>
    rw [show works = [] from installed]
    exact running
  | start services => exact foldl_running (fun h t => start_running t) _ running
  | stop services =>
    rw [show services = [] from unstopped]
    exact running
  | restart hd =>
    simp only [perform]
    split_ifs
    · exact foldl_running (fun h t => restart_running t) _ running
    · exact running
  | other => exact running

theorem perform_starts {b : Body S P C H} {s : S} (listed : s ∈ starts b) (p : Play S P C H) :
    ((perform targets (fun _ => true) b p).host.loaded s).isSome = true := by
  cases b with
  | start services =>
    simp only [perform, part_all]
    exact foldl_start_running listed p.host
  | _ => cases listed

/-- A task that finds its files and its services as it wants them, and no notification, does
nothing. -/
theorem perform_still {b : Body S P C H} (installed : Installed b) (unstopped : Unstopped b)
    {p : Play S P C H} (on : ∀ i ∈ b.writes, OnDisk p.host i)
    (running : ∀ s ∈ starts b, (p.host.loaded s).isSome = true)
    (silent : ∀ hd, p.notified hd = false) :
    perform targets (fun _ => true) b p = p := by
  cases b with
  | write items notify =>
    have still : writeAll items p.host = (p.host, false) := writeAll_still on
    simp only [perform, part_all, still, Bool.false_and, Bool.or_false]
  | package works | tolerant works =>
    rw [show works = [] from installed]
    rfl
  | start services =>
    have each : ∀ s ∈ services, start s p.host = p.host := by
      intro s listed
      obtain ⟨snapshot, loaded⟩ := Option.isSome_iff_exists.mp (running s listed)
      rw [start, loaded]
    have all : services.foldl (fun h s => start s h) p.host = p.host :=
      List.foldlRecOn (motive := fun h => h = p.host) services _ rfl fun h same s listed => by
        rw [same, each s listed]
    simp only [perform, part_all, all]
  | stop services =>
    rw [show services = [] from unstopped]
    rfl
  | restart hd => simp only [perform, silent hd, Bool.false_eq_true, if_false]
  | other => rfl

section Runs
variable {tasks : List (Task N S P C H)}

theorem sweep_keeps_onDisk {i : Item S P C} (installed : ∀ t ∈ tasks, Installed t.body)
    (same : ∀ j ∈ itemsOf tasks, SamePlace i j → i.content = j.content) {p : Play S P C H}
    (on : OnDisk p.host i) : OnDisk (sweep targets tasks p).host i := by
  refine List.foldlRecOn (motive := fun p : Play S P C H => OnDisk p.host i) tasks _ on
    fun p on t listed => ?_
  rw [OnDisk, perform_conf (installed t listed)]
  exact writeAll_keeps (fun j own => same j (List.mem_flatMap.mpr ⟨t, listed, own⟩)) on

theorem sweep_onDisk (installed : ∀ t ∈ tasks, Installed t.body) (agree : Agreeing (itemsOf tasks))
    (p : Play S P C H) : ∀ i ∈ itemsOf tasks, OnDisk (sweep targets tasks p).host i := by
  induction tasks generalizing p with
  | nil => exact List.forall_mem_nil _
  | cons t tasks ih =>
    obtain ⟨first, rest⟩ := List.forall_mem_cons.mp installed
    have own : itemsOf (t :: tasks) = t.body.writes ++ itemsOf tasks := rfl
    rw [own] at agree ⊢
    refine List.forall_mem_append.mpr ⟨fun i written => ?_, ?_⟩
    · refine sweep_keeps_onDisk rest (fun j later => ?_) ?_
      · exact agree i (List.mem_append_left _ written) j (List.mem_append_right _ later)
      · rw [OnDisk, perform_conf first]
        exact writeAll_onDisk (agree.subset (List.subset_append_left _ _)) p.host written
    · exact ih rest (agree.subset (List.subset_append_right _ _)) _

theorem sweep_keeps_other {s : S} {path : P} (installed : ∀ t ∈ tasks, Installed t.body)
    (other : ∀ i ∈ itemsOf tasks, i.service = s → i.path ≠ path) (p : Play S P C H) :
    (sweep targets tasks p).host.conf s path = p.host.conf s path := by
  refine List.foldlRecOn
    (motive := fun q : Play S P C H => q.host.conf s path = p.host.conf s path) tasks _ rfl
    fun q same t listed => ?_
  rw [perform_conf (installed t listed), ← same]
  exact writeAll_other (fun i own => other i (List.mem_flatMap.mpr ⟨t, listed, own⟩)) q.host

theorem sweep_running (installed : ∀ t ∈ tasks, Installed t.body)
    (unstopped : ∀ t ∈ tasks, Unstopped t.body)
    {p : Play S P C H} {s : S} (running : (p.host.loaded s).isSome = true) :
    ((sweep targets tasks p).host.loaded s).isSome = true :=
  List.foldlRecOn (motive := fun p : Play S P C H => (p.host.loaded s).isSome = true) tasks _
    running
    fun _ running t listed => perform_running (installed t listed) (unstopped t listed) running

theorem sweep_starts (installed : ∀ t ∈ tasks, Installed t.body)
    (unstopped : ∀ t ∈ tasks, Unstopped t.body)
    (p : Play S P C H) : ∀ t ∈ tasks, ∀ s ∈ starts t.body,
      ((sweep targets tasks p).host.loaded s).isSome = true := by
  induction tasks generalizing p with
  | nil => exact List.forall_mem_nil _
  | cons t tasks ih =>
    obtain ⟨first, rest⟩ := List.forall_mem_cons.mp installed
    obtain ⟨first', rest'⟩ := List.forall_mem_cons.mp unstopped
    refine List.forall_mem_cons.mpr ⟨fun s started => ?_, ih rest rest' _⟩
    exact sweep_running rest rest' (perform_starts started p)

theorem sweep_still (installed : ∀ t ∈ tasks, Installed t.body)
    (unstopped : ∀ t ∈ tasks, Unstopped t.body)
    {p : Play S P C H} (on : ∀ i ∈ itemsOf tasks, OnDisk p.host i)
    (running : ∀ t ∈ tasks, ∀ s ∈ starts t.body, (p.host.loaded s).isSome = true)
    (silent : ∀ hd, p.notified hd = false) : sweep targets tasks p = p := by
  refine List.foldlRecOn (motive := fun q => q = p) tasks _ rfl fun q same t listed => ?_
  rw [same]
  exact perform_still (installed t listed) (unstopped t listed)
    (fun i own => on i (List.mem_flatMap.mpr ⟨t, listed, own⟩)) (running t listed) silent

theorem handlers_running_iff (handlerName : H → N) (handlers : List H) (p : Play S P C H) (s : S) :
    ((sweep targets (handlers.map (handlerTask handlerName)) p).host.loaded s).isSome = true ↔
      (p.host.loaded s).isSome = true ∨ ∃ hd ∈ handlers, p.notified hd = true ∧ s ∈ targets hd := by
  induction handlers generalizing p with
  | nil => simp [sweep]
  | cons hd handlers ih =>
    have notified (other : H) :
        (perform targets (fun _ => true) (.restart hd : Body S P C H) p).notified other =
        p.notified other := by
      simp only [perform]
      split_ifs <;> rfl
    have first :
        ((perform targets (fun _ => true) (.restart hd : Body S P C H) p).host.loaded s).isSome =
          true ↔
        (p.host.loaded s).isSome = true ∨ p.notified hd = true ∧ s ∈ targets hd := by
      simp only [perform, part_all]
      split_ifs with waiting
      · rw [foldl_restart_running_iff, and_iff_right waiting]
      · simp [waiting]
    have rest := ih (perform targets (fun _ => true) (.restart hd : Body S P C H) p)
    simp only [notified, first] at rest
    rw [List.map_cons, sweep, List.foldl_cons, ← sweep]
    refine rest.trans ?_
    rw [List.exists_mem_cons_iff, or_assoc]

end Runs

section Aside
variable {s : S} {hd : H}

/-- The task is about other services, and its writes notify other handlers. -/
def Aside (targets : H → List S) (s : S) (hd : H) : Body S P C H → Prop
  | .write items notify => (∀ i ∈ items, i.service ≠ s) ∧ hd ∉ notify
  | .package works | .tolerant works => ∀ w ∈ works, w.service ≠ s
  | .start services | .stop services => s ∉ services
  | .restart other => s ∉ targets other
  | .other => True

def Alike (s : S) (hd : H) (p q : Play S P C H) : Prop :=
  q.host.conf s = p.host.conf s ∧ q.host.loaded s = p.host.loaded s ∧ q.notified hd = p.notified hd

omit [DecidableEq S] [DecidableEq P] [DecidableEq C] [DecidableEq H] in
theorem Alike.trans {p q r : Play S P C H} (first : Alike s hd p q) (next : Alike s hd q r) :
    Alike s hd p r :=
  ⟨next.1.trans first.1, next.2.1.trans first.2.1, next.2.2.trans first.2.2⟩

theorem perform_aside {b : Body S P C H} (aside : Aside targets s hd b) (p : Play S P C H) :
    Alike s hd p (perform targets (fun _ => true) b p) := by
  have lift {h : Host S P C} (same : SameService s p.host h) : Alike s hd p { p with host := h } :=
    ⟨same.1, same.2, rfl⟩
  cases b with
  | write items notify =>
    simp only [Aside] at aside
    refine ⟨?_, ?_, ?_⟩
    · simp only [perform, part_all]
      exact writeAll_untouched items p.host s fun i listed own => absurd own (aside.1 i listed)
    · simp only [perform, part_all, writeAll_loaded]
    · simp [perform, aside.2]
  | package works | tolerant works =>
    simp only [perform, part_all]
    exact lift (foldl_sameService (fun h w listed =>
      package_sameService (Ne.symm (aside w listed)) h) p.host)
  | start services =>
    simp only [perform, part_all]
    exact lift (foldl_sameService (fun h t listed =>
      start_sameService (fun same : s = t => aside (same ▸ listed)) h) p.host)
  | stop services =>
    simp only [perform, part_all]
    exact lift (foldl_sameService (fun h t listed =>
      stop_sameService (fun same : s = t => aside (same ▸ listed)) h) p.host)
  | restart other =>
    simp only [perform, part_all]
    split_ifs
    · exact lift (foldl_sameService (fun h t listed =>
        restart_sameService (fun same : s = t => aside (same ▸ listed)) h) p.host)
    · exact ⟨rfl, rfl, rfl⟩
  | other => exact ⟨rfl, rfl, rfl⟩

theorem runTasks_aside {tasks : List (Task N S P C H)} {faults : Task N S P C H → Option (ℕ → Bool)}
    (aside : ∀ t ∈ tasks, Aside targets s hd t.body) {p q : Play S P C H}
    (ok : runTasks (exec targets) faults tasks p = .ok q) : Alike s hd p q := by
  refine runTasks_ok_keeps (exec targets) faults (Alike s hd p)
    (fun t listed r r' same step => ?_) ⟨rfl, rfl, rfl⟩ ok
  rcases exec_ok targets step with rfl | ⟨rfl, -⟩
  · exact same.trans (perform_aside (aside t listed) r)
  · exact same

/-- A fault ends the play at the task, unless there is nothing to do. -/
def Strict : Body S P C H → Prop
  | .tolerant _ => False
  | _ => True

theorem exec_strict {t : Task N S P C H} (strict : Strict t.body) {fault : Option (ℕ → Bool)}
    {p q : Play S P C H} (ok : exec targets t fault p = .ok q) :
    q = perform targets (fun _ => true) t.body p := by
  rcases exec_ok targets ok with rfl | ⟨rfl, idle⟩
  · rfl
  · cases body : t.body with
    | write items notify =>
      rw [body, skipped, List.isEmpty_iff] at idle
      simp [perform, idle, part, writeAll]
    | package works => simp [body, skipped] at idle
    | tolerant works => rw [body] at strict; cases strict
    | start services | stop services =>
      rw [body, skipped, List.isEmpty_iff] at idle
      simp [perform, idle, part]
    | restart other =>
      rw [body, skipped, Bool.not_eq_true'] at idle
      simp [perform, idle]
    | other => rfl

/-- Tasks that a fault ends have, once they are through, all done their work. -/
theorem runTasks_strict {tasks : List (Task N S P C H)}
    {faults : Task N S P C H → Option (ℕ → Bool)} (strict : ∀ t ∈ tasks, Strict t.body)
    {p q : Play S P C H} (ok : runTasks (exec targets) faults tasks p = .ok q) :
    q = sweep targets tasks p := by
  induction tasks generalizing p with
  | nil => exact (Outcome.ok.inj ok).symm
  | cons t tasks ih =>
    obtain ⟨first, rest⟩ := List.forall_mem_cons.mp strict
    obtain ⟨next, done, later⟩ := (runTasks_cons_eq_ok _ _).mp ok
    rw [ih rest later, exec_strict first done]
    rfl

end Aside

section Plays
variable (handlerName : H → N) {tasks : List (Task N S P C H)} (handlers : List H)

omit [DecidableEq S] [DecidableEq P] [DecidableEq C] [DecidableEq H] in
theorem itemsOf_play : itemsOf (play handlerName tasks handlers) = itemsOf tasks := by
  simp [play, itemsOf, handlerTask, Body.writes]

omit [DecidableEq S] [DecidableEq P] [DecidableEq C] [DecidableEq H] in
theorem play_forall {Q : Body S P C H → Prop} (own : ∀ t ∈ tasks, Q t.body)
    (restart : ∀ hd, Q (.restart hd)) :
    ∀ t ∈ play handlerName tasks handlers, Q t.body := by
  refine List.forall_mem_append.mpr ⟨own, fun t listed => ?_⟩
  obtain ⟨hd, -, rfl⟩ := List.mem_map.mp listed
  exact restart hd

variable {handlerName handlers}

theorem runPlay_undisturbed {faults : Task N S P C H → Option (ℕ → Bool)}
    (calm : ∀ t, faults t = none)
    (h : Host S P C) : runPlay targets handlerName tasks handlers faults h =
      .ok (sweep targets (play handlerName tasks handlers) ⟨h, fun _ => false⟩).host := by
  rw [runPlay, runTasks_undisturbed targets calm]
  rfl

/-- A play that nothing disturbs writes its items and leaves all other files. -/
theorem runPlay_files {faults : Task N S P C H → Option (ℕ → Bool)} (calm : ∀ t, faults t = none)
    (installed : ∀ t ∈ tasks, Installed t.body) (agree : Agreeing (itemsOf tasks))
    (h : Host S P C) :
    ∃ h', runPlay targets handlerName tasks handlers faults h = .ok h' ∧
      (∀ i ∈ itemsOf tasks, OnDisk h' i) ∧
      ∀ s path, (∀ i ∈ itemsOf tasks, i.service = s → i.path ≠ path) →
        h'.conf s path = h.conf s path := by
  have installed' := play_forall handlerName handlers installed fun _ => trivial
  refine ⟨_, runPlay_undisturbed calm h, ?_⟩
  rw [← itemsOf_play handlerName handlers] at agree ⊢
  exact ⟨sweep_onDisk installed' agree _,
    fun s path other => sweep_keeps_other installed' other _⟩

/-- A play that has gone through has nothing left to do. -/
theorem runPlay_settled {faults : Task N S P C H → Option (ℕ → Bool)} (calm : ∀ t, faults t = none)
    (installed : ∀ t ∈ tasks, Installed t.body) (unstopped : ∀ t ∈ tasks, Unstopped t.body)
    (agree : Agreeing (itemsOf tasks)) {h h' : Host S P C}
    (ok : runPlay targets handlerName tasks handlers faults h = .ok h') :
    runPlay targets handlerName tasks handlers faults h' = .ok h' := by
  have installed' := play_forall handlerName handlers installed fun _ => trivial
  have unstopped' := play_forall handlerName handlers unstopped fun _ => trivial
  rw [← itemsOf_play handlerName handlers] at agree
  rw [runPlay_undisturbed calm] at ok ⊢
  have written : ∀ i ∈ itemsOf (play handlerName tasks handlers),
      OnDisk (sweep targets (play handlerName tasks handlers) ⟨h, fun _ => false⟩).host i :=
    sweep_onDisk installed' agree _
  have started : ∀ t ∈ play handlerName tasks handlers, ∀ s ∈ starts t.body,
      ((sweep targets (play handlerName tasks handlers)
        ⟨h, fun _ => false⟩).host.loaded s).isSome = true :=
    sweep_starts installed' unstopped' _
  rw [Outcome.ok.inj ok] at written started
  have still : sweep targets (play handlerName tasks handlers) ⟨h', fun _ => false⟩ =
      ⟨h', fun _ => false⟩ :=
    sweep_still installed' unstopped' written started fun _ => rfl
  rw [still]

end Plays

end Sweeps

end LempStack.SettledPlay
