import LempStack.PlayRun
import LempStack.TextFields

/-! The swap script of the common role. The task is skipped once `/swapfile` exists, the
script goes on after a command that fails, and the status it reports is that of its last
command, the one that adds the line to `/etc/fstab`. A half-done set-up is therefore
taken for a finished one, by the report or by the next run. -/

namespace LempStack.SwapSetup
open PlayRun TextFields

structure SwapFile where
  megabytes : Nat
  mode600 : Bool
  initialised : Bool
  active : Bool
  deriving DecidableEq, Repr

-- the total memory in MB, `/swapfile` and `/etc/fstab`
structure Host where
  memory : Nat
  swapfile : Option SwapFile
  fstab : Text
  deriving DecidableEq, Repr

def fstabLine : Text := "/swapfile none swap sw 0 0\n".toList

def namesSwapfile (line : Text) : Bool := (fields line).head? == some "/swapfile".toList

def swapLines : Text → Nat := countLines namesSwapfile

inductive Command where
  | dd
  | chmod
  | mkswap
  | swapon
  | appendFstab
  deriving DecidableEq, Repr

/-- How far a command had come when it failed. For `dd` nought is no file at all, and
one more the megabytes in it; for the append it is the characters written; for the others
nought is no effect. -/
abbrev Fault := Option Nat

def onFile (possible : SwapFile → Bool) (effect : SwapFile → SwapFile) (fault : Fault) (h : Host) :
    Host × Bool :=
  match h.swapfile with
  | none => (h, false)
  | some f =>
    if possible f then
      (if fault = some 0 then h else { h with swapfile := some (effect f) }, fault.isNone)
    else (h, false)

def exec (c : Command) (fault : Fault) (h : Host) : Host × Bool :=
  match c with
  | .dd =>
    match fault with
    | none => ({ h with swapfile := some ⟨2048, false, false, false⟩ }, true)
    | some 0 => (h, false)
    | some (n + 1) => ({ h with swapfile := some ⟨min n 2048, false, false, false⟩ }, false)
  | .chmod => onFile (fun _ => true) (fun f => { f with mode600 := true }) fault h
  | .mkswap => onFile (fun f => 0 < f.megabytes) (fun f => { f with initialised := true }) fault h
  | .swapon =>
    onFile (fun f => f.initialised && !f.active) (fun f => { f with active := true }) fault h
  | .appendFstab =>
    ({ h with fstab := h.fstab ++ fstabLine.take (fault.getD fstabLine.length) }, fault.isNone)

def script : List Command := [.dd, .chmod, .mkswap, .swapon, .appendFstab]

/-- Without `set -e` a command follows on a failed one, and the last status counts. -/
def runScript (faults : Command → Fault) (cs : List Command) (h : Host) : Host × Bool :=
  cs.foldl (fun s c => exec c (faults c) s.1) (h, true)

-- `reached`: the tasks ahead of the script go through; `killed`: the number of commands that
-- were over when the script was killed
structure Run where
  reached : Bool
  faults : Command → Fault
  killed : Option Nat

def executed (r : Run) : List Command := script.take (r.killed.getD script.length)

def starts (r : Run) (h : Host) : Bool := r.reached && decide (h.memory < 2048) && h.swapfile.isNone

/-- A run is through when its swap task is reported successful or skipped. -/
def run (r : Run) (h : Host) : Outcome Host :=
  if starts r h then
    if r.killed.isNone && (runScript r.faults (executed r) h).2 then
      .ok (runScript r.faults (executed r) h).1
    else .failed (runScript r.faults (executed r) h).1
  else if r.reached then .ok h
  else .failed h

section Moments

def moments (c : Command) (fault : Fault) (h : Host) : List Text :=
  match c with
  | .appendFstab => (List.range (fault.getD fstabLine.length + 1)).map fun n =>
      h.fstab ++ fstabLine.take n
  | _ => [h.fstab]

def scriptMoments (faults : Command → Fault) : List Command → Host → List Text
  | [], h => [h.fstab]
  | c :: cs, h => moments c (faults c) h ++ scriptMoments faults cs (exec c (faults c) h).1

def runMoments (r : Run) (h : Host) : List Text :=
  if starts r h then scriptMoments r.faults (executed r) h else [h.fstab]

end Moments

def Ready (h : Host) : Prop :=
  ∃ f, h.swapfile = some f ∧ f.initialised = true ∧ f.active = true ∧ swapLines h.fstab = 1

/-- A run that is through leaves the swap file set up, and at no time are there two
lines for it. -/
structure Law (r : Run) (h : Host) : Prop where
  ready : ∀ h', run r h = .ok h' → Ready h'
  oneLine : ∀ t ∈ runMoments r h, swapLines t ≤ 1

section Commands

theorem onFile_swapfile (possible : SwapFile → Bool) (effect : SwapFile → SwapFile) (fault : Fault)
    (h : Host) :
    (onFile possible effect fault h).1.swapfile =
      h.swapfile.map fun f => if possible f = true ∧ fault ≠ some 0 then effect f else f := by
  unfold onFile
  cases file : h.swapfile with
  | none => exact file
  | some f =>
    by_cases can : possible f = true <;> by_cases idle : fault = some 0 <;> simp [can, idle, file]

theorem onFile_fields (possible : SwapFile → Bool) (effect : SwapFile → SwapFile) (fault : Fault)
    (h : Host) :
    (onFile possible effect fault h).1.fstab = h.fstab ∧
      (onFile possible effect fault h).1.memory = h.memory := by
  unfold onFile
  cases h.swapfile with
  | none => exact ⟨rfl, rfl⟩
  | some f =>
    dsimp only
    split_ifs <;> exact ⟨rfl, rfl⟩

theorem exec_memory (c : Command) (fault : Fault) (h : Host) :
    (exec c fault h).1.memory = h.memory := by
  cases c with
  | dd => rcases fault with _ | _ | n <;> rfl
  | appendFstab => rfl
  | _ => exact (onFile_fields _ _ _ _).2

theorem exec_fstab {c : Command} (other : c ≠ .appendFstab) (fault : Fault) (h : Host) :
    (exec c fault h).1.fstab = h.fstab := by
  cases c with
  | dd => rcases fault with _ | _ | n <;> rfl
  | appendFstab => contradiction
  | _ => exact (onFile_fields _ _ _ _).1

theorem exec_noFile {c : Command} (other : c ≠ .appendFstab) {fault : Fault}
    (noDd : c = .dd → fault = some 0) {h : Host} (bare : h.swapfile = none) :
    (exec c fault h).1 = h := by
  cases c with
  | dd => rw [noDd rfl]; rfl
  | appendFstab => contradiction
  | _ => simp [exec, onFile, bare]

end Commands

section Script

def fileCommands : List Command := [.dd, .chmod, .mkswap, .swapon]

theorem fileCommands_ne : ∀ c ∈ fileCommands, c ≠ .appendFstab := by decide

theorem runScript_append (faults : Command → Fault) (cs : List Command) (c : Command) (h : Host) :
    runScript faults (cs ++ [c]) h = exec c (faults c) (runScript faults cs h).1 := by
  rw [runScript, List.foldl_append, List.foldl_cons, List.foldl_nil, runScript]

theorem executed_cases (r : Run) :
    (r.killed ≠ none ∧ ∃ n, executed r = fileCommands.take n) ∨
      executed r = fileCommands ++ [.appendFstab] := by
  have whole : script = fileCommands ++ [.appendFstab] := rfl
  cases killed : r.killed with
  | none => exact .inr (by rw [executed, killed]; rfl)
  | some n =>
    by_cases early : n ≤ 4
    · refine .inl ⟨by simp, n, ?_⟩
      rw [executed, killed, Option.getD_some, whole]
      exact List.take_append_of_le_length early
    · right
      rw [executed, killed, Option.getD_some, ← whole]
      exact List.take_of_length_le (by simp [script]; omega)

theorem runScript_memory (faults : Command → Fault) (cs : List Command) (h : Host) :
    (runScript faults cs h).1.memory = h.memory :=
  List.foldlRecOn (motive := fun s : Host × Bool => s.1.memory = h.memory) cs _ rfl
    fun s same c _ => (exec_memory c _ s.1).trans same

theorem runScript_fstab (faults : Command → Fault) {cs : List Command}
    (others : ∀ c ∈ cs, c ≠ .appendFstab) (h : Host) :
    (runScript faults cs h).1.fstab = h.fstab :=
  List.foldlRecOn (motive := fun s : Host × Bool => s.1.fstab = h.fstab) cs _ rfl
    fun s same c listed => (exec_fstab (others c listed) _ s.1).trans same

theorem runScript_noFile {faults : Command → Fault} {cs : List Command}
    (noDd : .dd ∈ cs → faults .dd = some 0) (others : ∀ c ∈ cs, c ≠ .appendFstab) {h : Host}
    (bare : h.swapfile = none) : (runScript faults cs h).1 = h := by
  refine List.foldlRecOn (motive := fun s : Host × Bool => s.1 = h) cs _ rfl
    fun s same c listed => ?_
  rw [same]
  refine exec_noFile (others c listed) (fun isDd => ?_) bare
  rw [isDd]
  exact noDd (isDd ▸ listed)

/-- What of the faults matters for the file: `dd` made one with something in it, and the
header and the activation took effect. -/
structure Goes (faults : Command → Fault) : Prop where
  made : faults .dd ≠ some 0
  filled : faults .dd ≠ some 1
  formatted : faults .mkswap ≠ some 0
  activated : faults .swapon ≠ some 0

theorem afterDd_file_iff {faults : Command → Fault} {h : Host} (size : Nat)
    (file : h.swapfile = some ⟨size, false, false, false⟩) :
    (∃ f, (runScript faults [.chmod, .mkswap, .swapon] h).1.swapfile = some f ∧
      f.initialised = true ∧ f.active = true) ↔
      0 < size ∧ faults .mkswap ≠ some 0 ∧ faults .swapon ≠ some 0 := by
  have stages : (runScript faults [.chmod, .mkswap, .swapon] h).1.swapfile =
      ((h.swapfile.map fun f => if true = true ∧ faults .chmod ≠ some 0 then
          { f with mode600 := true } else f).map fun f =>
        if decide (0 < f.megabytes) = true ∧ faults .mkswap ≠ some 0 then
          { f with initialised := true } else f).map fun f =>
        if (f.initialised && !f.active) = true ∧ faults .swapon ≠ some 0 then
          { f with active := true } else f := by
    simp only [runScript, List.foldl_cons, List.foldl_nil, exec, onFile_swapfile]
  rw [stages, file]
  by_cases filled : 0 < size <;> by_cases formatted : faults .mkswap = some 0 <;>
    by_cases activated : faults .swapon = some 0 <;> by_cases mode : faults .chmod = some 0 <;>
    simp [filled, formatted, activated, mode]

theorem fileCommands_file_iff (faults : Command → Fault) {h : Host} (bare : h.swapfile = none) :
    (∃ f, (runScript faults fileCommands h).1.swapfile = some f ∧ f.initialised = true ∧
      f.active = true) ↔ Goes faults := by
  have first : runScript faults fileCommands h =
      runScript faults [.chmod, .mkswap, .swapon] (exec .dd (faults .dd) h).1 := rfl
  rcases made : faults .dd with _ | _ | n
  · rw [first, made, afterDd_file_iff 2048 rfl]
    constructor
    · rintro ⟨-, formatted, activated⟩
      exact ⟨by simp [made], by simp [made], formatted, activated⟩
    · intro goes
      exact ⟨by decide, goes.formatted, goes.activated⟩
  · rw [runScript_noFile (fun _ => made) fileCommands_ne bare, bare]
    constructor
    · rintro ⟨f, file, -⟩
      cases file
    · intro goes
      exact absurd made goes.made
  · rw [first, made, afterDd_file_iff (min n 2048) rfl]
    constructor
    · rintro ⟨size, formatted, activated⟩
      have filled : n ≠ 0 := by omega
      exact ⟨by simp [made], by simp [made, filled], formatted, activated⟩
    · intro goes
      have filled : n ≠ 0 := fun empty => goes.filled (by rw [made, empty])
      exact ⟨by omega, goes.formatted, goes.activated⟩

end Script

section Moments
variable (faults : Command → Fault) (P : Text → Prop)

theorem moments_file {c : Command} (other : c ≠ .appendFstab) (fault : Fault) (h : Host) :
    moments c fault h = [h.fstab] := by
  cases c with
  | appendFstab => contradiction
  | _ => rfl

theorem scriptMoments_file_iff {cs : List Command} (others : ∀ c ∈ cs, c ≠ .appendFstab)
    (h : Host) :
    (∀ t ∈ scriptMoments faults cs h, P t) ↔ P h.fstab := by
  induction cs generalizing h with
  | nil => simp [scriptMoments]
  | cons c cs ih =>
    have other := others c List.mem_cons_self
    rw [scriptMoments, moments_file other, List.forall_mem_append, List.forall_mem_singleton,
      ih (fun c hc => others c (List.mem_cons_of_mem _ hc)), exec_fstab other, and_self]

theorem scriptMoments_append_iff {cs : List Command} (others : ∀ c ∈ cs, c ≠ .appendFstab)
    (h : Host) :
    (∀ t ∈ scriptMoments faults (cs ++ [.appendFstab]) h, P t) ↔
      ∀ n ≤ (faults .appendFstab).getD fstabLine.length, P (h.fstab ++ fstabLine.take n) := by
  induction cs generalizing h with
  | nil =>
    simp only [List.nil_append, scriptMoments, moments, exec, List.forall_mem_append,
      List.forall_mem_map, List.mem_range, Nat.lt_succ_iff, List.forall_mem_singleton]
    exact and_iff_left_of_imp fun all => all _ (Nat.le_refl _)
  | cons c cs ih =>
    have other := others c List.mem_cons_self
    rw [List.cons_append, scriptMoments, moments_file other, List.forall_mem_append,
      List.forall_mem_singleton, ih (fun c hc => others c (List.mem_cons_of_mem _ hc)),
      exec_fstab other]
    refine and_iff_right_of_imp fun all => ?_
    have first := all 0 (Nat.zero_le _)
    rwa [List.take_zero, List.append_nil] at first

end Moments

section Lines

theorem namesSwapfile_iff (line : Text) :
    namesSwapfile line = true ↔ firstWord line = "/swapfile".toList := by
  rw [namesSwapfile, beq_iff_eq, fields_head_iff (by decide)]

theorem namesSwapfile_part (n : Nat) : namesSwapfile (fstabLine.take n) = decide (9 ≤ n) := by
  by_cases early : n < 28
  · revert n
    decide
  · have length : fstabLine.length = 27 := by decide
    rw [List.take_of_length_le (by omega), decide_eq_true (by omega)]
    decide

/-- On a line with a word on it the added text names no file that it did not name before. -/
theorem namesSwapfile_joined {line : Text} (word : ¬ ∀ c ∈ line, isBlank c = true) (n : Nat)
    (named : namesSwapfile (line ++ fstabLine.take n) = true) : namesSwapfile line = true := by
  cases n with
  | zero => simpa using named
  | succ n =>
    rw [namesSwapfile_iff] at named ⊢
    obtain ⟨nonempty, same | longer⟩ := firstWord_append word (fstabLine.take (n + 1))
    · rwa [← same]
    · -- a second slash, and the name has only the one it begins with
      obtain ⟨c, rest, parts⟩ := List.exists_cons_of_ne_nil nonempty
      obtain ⟨more, slash⟩ : ∃ more, (fstabLine.take (n + 1)).takeWhile (fun c => !isBlank c) =
          '/' :: more := ⟨_, rfl⟩
      rw [named, parts, slash, List.cons_append] at longer
      have tail : "swapfile".toList = rest ++ '/' :: more := (List.cons.inj longer).2
      have slashed : '/' ∈ "swapfile".toList := by simp [tail]
      exact absurd slashed (by decide)

theorem swapLines_unbroken (text : Text) (n : Nat) :
    swapLines (text ++ fstabLine.take n) = swapLines (text ++ fstabLine.take (min n 26)) := by
  by_cases early : n ≤ 26
  · rw [Nat.min_eq_left early]
  · have length : fstabLine.length = 27 := by decide
    have whole : fstabLine = fstabLine.take 26 ++ '\n' :: [] := by decide
    rw [List.take_of_length_le (by omega), Nat.min_eq_right (by omega)]
    nth_rewrite 1 [whole]
    rw [← List.append_assoc, swapLines, countLines_append_break]
    rfl

theorem swapLines_part (text : Text) (n : Nat) :
    swapLines (text ++ fstabLine.take n) +
        (if namesSwapfile (lastLine text) then 1 else 0) =
      swapLines text +
        (if namesSwapfile (lastLine text ++ fstabLine.take (min n 26)) then 1 else 0) := by
  have unbroken : '\n' ∉ fstabLine.take (min n 26) := by
    intro broken
    have front : fstabLine.take (min n 26) = (fstabLine.take 26).take n := by
      rw [List.take_take]
    rw [front] at broken
    exact absurd (List.mem_of_mem_take broken) (by decide)
  rw [swapLines_unbroken, swapLines, countLines_append_unbroken namesSwapfile text unbroken]

theorem swapLines_part_blank {text : Text} (blank : EndsBlank text) (n : Nat) :
    swapLines (text ++ fstabLine.take n) = swapLines text + (if 9 ≤ n then 1 else 0) := by
  have added := swapLines_part text n
  have unnamed : namesSwapfile (lastLine text) = false := by
    rw [← Bool.not_eq_true, namesSwapfile_iff, ← List.append_nil (lastLine text),
      firstWord_append_of_blank blank]
    decide
  have named : namesSwapfile (lastLine text ++ fstabLine.take (min n 26)) = decide (9 ≤ n) := by
    rw [Bool.eq_iff_iff, namesSwapfile_iff, firstWord_append_of_blank blank, ← namesSwapfile_iff,
      namesSwapfile_part, decide_eq_true_iff, decide_eq_true_iff]
    omega
  simpa [unnamed, named] using added

theorem swapLines_part_joined {text : Text} (joined : ¬ EndsBlank text) (n : Nat) :
    swapLines (text ++ fstabLine.take n) ≤ swapLines text := by
  have added := swapLines_part text n
  have named := namesSwapfile_joined joined (min n 26)
  split_ifs at added with old new new
  · omega
  · omega
  · exact absurd (named new) old
  · omega

/-- While the line is written there is at most one, unless there was one and the new one
stands on a line of its own. -/
theorem swapLines_growth {text : Text} (one : swapLines text ≤ 1) (written : Nat) :
    (∀ n ≤ written, swapLines (text ++ fstabLine.take n) ≤ 1) ↔
      (EndsBlank text → 9 ≤ written → swapLines text = 0) := by
  constructor
  · intro all blank enough
    have last := all written (Nat.le_refl _)
    rw [swapLines_part_blank blank, if_pos enough] at last
    omega
  · intro bare n part
    by_cases blank : EndsBlank text
    · rw [swapLines_part_blank blank]
      split_ifs with enough
      · rw [bare blank (by omega)]
      · exact one
    · exact (swapLines_part_joined blank n).trans one

end Lines

section Runs

theorem appendFstab_not_mem (n : Nat) : Command.appendFstab ∉ fileCommands.take n := fun listed =>
  fileCommands_ne _ (List.mem_of_mem_take listed) rfl

theorem runMoments_iff (r : Run) (h : Host) (P : Text → Prop) :
    (∀ t ∈ runMoments r h, P t) ↔ P h.fstab ∧
      (starts r h = true → .appendFstab ∈ executed r →
        ∀ n ≤ (r.faults .appendFstab).getD fstabLine.length, P (h.fstab ++ fstabLine.take n)) := by
  unfold runMoments
  cases started : starts r h with
  | false => simp
  | true =>
    rw [if_pos rfl]
    rcases executed_cases r with ⟨-, n, early⟩ | whole
    · have absent : Command.appendFstab ∉ executed r := by
        rw [early]
        exact appendFstab_not_mem n
      rw [early, scriptMoments_file_iff _ _ fun c listed =>
        fileCommands_ne c (List.mem_of_mem_take listed), ← early]
      exact (and_iff_left fun _ listed => absurd listed absent).symm
    · rw [whole, scriptMoments_append_iff _ _ fileCommands_ne]
      constructor
      · intro all
        have first := all 0 (Nat.zero_le _)
        rw [List.take_zero, List.append_nil] at first
        exact ⟨first, fun _ _ => all⟩
      · intro cond
        exact cond.2 rfl (by simp)

theorem run_started {r : Run} {h : Host} (started : starts r h = true) (alive : r.killed = none) :
    run r h =
      (if (r.faults .appendFstab).isNone then Outcome.ok else Outcome.failed)
        ⟨h.memory, (runScript r.faults fileCommands h).1.swapfile,
          h.fstab ++ fstabLine.take ((r.faults .appendFstab).getD fstabLine.length)⟩ := by
  have whole : executed r = fileCommands ++ [.appendFstab] := by rw [executed, alive]; rfl
  unfold run
  rw [if_pos started, whole, runScript_append, alive, exec,
    runScript_fstab r.faults fileCommands_ne, runScript_memory]
  cases r.faults .appendFstab <;> rfl

theorem run_killed {r : Run} {h : Host} (started : starts r h = true) (killed : r.killed ≠ none) :
    run r h = .failed (runScript r.faults (executed r) h).1 := by
  unfold run
  rw [if_pos started, if_neg]
  simpa using fun none => absurd none killed

theorem run_idle {r : Run} {h : Host} (idle : starts r h = false) :
    run r h = (if r.reached then Outcome.ok else Outcome.failed) h := by
  unfold run
  rw [idle, if_neg Bool.false_ne_true]
  split_ifs <;> rfl

theorem run_state (r : Run) (h : Host) :
    (run r h).state = if starts r h then (runScript r.faults (executed r) h).1 else h := by
  unfold run
  split_ifs <;> rfl

theorem scriptMoments_last (faults : Command → Fault) (cs : List Command) (h : Host) :
    (runScript faults cs h).1.fstab ∈ scriptMoments faults cs h := by
  induction cs generalizing h with
  | nil => exact List.mem_singleton_self _
  | cons c cs ih =>
    have next : (runScript faults (c :: cs) h).1 =
        (runScript faults cs (exec c (faults c) h).1).1 := by
      cases cs <;> rfl
    rw [next]
    exact List.mem_append_right _ (ih _)

theorem runMoments_last (r : Run) (h : Host) : (run r h).state.fstab ∈ runMoments r h := by
  rw [run_state, runMoments]
  split_ifs
  · exact scriptMoments_last r.faults (executed r) h
  · exact List.mem_singleton_self _

theorem run_memory (r : Run) (h : Host) : (run r h).state.memory = h.memory := by
  rw [run_state]
  split_ifs
  · exact runScript_memory r.faults (executed r) h
  · rfl

end Runs

section Law

/-- What has to be true of a run and of the host it finds: a swap file that is found is set up;
a script that is reported successful has set it up, with the one line for it; and a new line
of its own that comes as far as the name of the file is the first. -/
structure Fits (r : Run) (h : Host) : Prop where
  found : r.reached = true → h.swapfile ≠ none → Ready h
  made : starts r h = true → r.killed = none → r.faults .appendFstab = none →
    Goes r.faults ∧ swapLines (h.fstab ++ fstabLine) = 1
  line : starts r h = true → .appendFstab ∈ executed r → EndsBlank h.fstab →
    9 ≤ (r.faults .appendFstab).getD fstabLine.length → swapLines h.fstab = 0

theorem ready_iff (r : Run) {h : Host} (low : h.memory < 2048) :
    (∀ h', run r h = .ok h' → Ready h') ↔
      (r.reached = true → h.swapfile ≠ none → Ready h) ∧
        (starts r h = true → r.killed = none → r.faults .appendFstab = none →
          Goes r.faults ∧ swapLines (h.fstab ++ fstabLine) = 1) := by
  cases started : starts r h with
  | false =>
    rw [run_idle started]
    cases reached : r.reached with
    | false => simp
    | true =>
      have file : h.swapfile ≠ none := by
        intro none
        simp [starts, reached, low, none] at started
      simp [file]
  | true =>
    have bare : h.swapfile = none := by
      simp only [starts, Bool.and_eq_true, Option.isNone_iff_eq_none] at started
      exact started.2
    by_cases killed : r.killed = none
    · rw [run_started started killed]
      cases status : r.faults .appendFstab with
      | some n => simp [bare]
      | none =>
        have ready : Ready ⟨h.memory, (runScript r.faults fileCommands h).1.swapfile,
            h.fstab ++ fstabLine⟩ ↔ Goes r.faults ∧ swapLines (h.fstab ++ fstabLine) = 1 := by
          rw [← fileCommands_file_iff r.faults bare]
          constructor
          · rintro ⟨f, file, formatted, activated, one⟩
            exact ⟨⟨f, file, formatted, activated⟩, one⟩
          · rintro ⟨⟨f, file, formatted, activated⟩, one⟩
            exact ⟨f, file, formatted, activated, one⟩
        simp [bare, killed, ready]
    · rw [run_killed started killed]
      simp [bare, killed]

theorem law_iff_fits (r : Run) {h : Host} (low : h.memory < 2048) (one : swapLines h.fstab ≤ 1) :
    Law r h ↔ Fits r h := by
  have moments : (∀ t ∈ runMoments r h, swapLines t ≤ 1) ↔
      (starts r h = true → .appendFstab ∈ executed r → EndsBlank h.fstab →
        9 ≤ (r.faults .appendFstab).getD fstabLine.length → swapLines h.fstab = 0) := by
    rw [runMoments_iff, and_iff_right one, swapLines_growth one]
  constructor
  · intro law
    obtain ⟨found, made⟩ := (ready_iff r low).mp law.ready
    exact ⟨found, made, moments.mp law.oneLine⟩
  · intro fits
    exact ⟨(ready_iff r low).mpr ⟨fits.found, fits.made⟩, moments.mpr fits.line⟩

end Law

section Converging

structure Through (r : Run) : Prop where
  alive : r.killed = none
  works : ∀ c, r.faults c = none

structure NothingDone (r : Run) : Prop where
  noFile : .dd ∈ executed r → r.faults .dd = some 0
  noText : .appendFstab ∈ executed r → r.faults .appendFstab = some 0

structure Bare (h : Host) : Prop where
  noFile : h.swapfile = none
  noLine : swapLines h.fstab = 0
  ends : Terminated h.fstab

theorem Bare.fits {r : Run} {h : Host} (bare : Bare h)
    (made : starts r h = true → r.killed = none → r.faults .appendFstab = none → Goes r.faults) :
    Fits r h where
  found _ file := absurd bare.noFile file
  made started alive works := by
    refine ⟨made started alive works, ?_⟩
    rw [swapLines, countLines_append _ bare.ends bare.noLine]
    decide
  line _ _ _ _ := bare.noLine

theorem Through.goes {r : Run} (through : Through r) : Goes r.faults :=
  ⟨by simp [through.works], by simp [through.works], by simp [through.works],
    by simp [through.works]⟩

theorem Through.ready {r : Run} {h : Host} (through : Through r) (bare : Bare h)
    (started : starts r h = true) : Ready (run r h).state := by
  have fits : Fits r h := bare.fits fun _ _ _ => through.goes
  have low : h.memory < 2048 := by
    simp only [starts, Bool.and_eq_true, decide_eq_true_eq] at started
    exact started.1.2
  have law := (law_iff_fits r low (by simp [bare.noLine])).mpr fits
  rw [run_started started through.alive, through.works]
  refine law.ready _ ?_
  rw [run_started started through.alive, through.works]
  rfl

theorem NothingDone.unchanged {r : Run} {h : Host} (nothing : NothingDone r) (bare : Bare h) :
    (runScript r.faults (executed r) h).1 = h := by
  have early : ∀ cs, (∀ c ∈ cs, c ∈ executed r) → (∀ c ∈ cs, c ≠ .appendFstab) →
      (runScript r.faults cs h).1 = h := fun cs part others =>
    runScript_noFile (fun listed => nothing.noFile (part _ listed)) others bare.noFile
  rcases executed_cases r with ⟨-, n, files⟩ | whole
  · refine early _ (fun _ listed => listed) fun c listed => ?_
    rw [files] at listed
    exact fileCommands_ne c (List.mem_of_mem_take listed)
  · have last := nothing.noText (by simp [whole])
    have front : ∀ c ∈ fileCommands, c ∈ executed r := by
      rw [whole]
      exact fun c listed => List.mem_append_left _ listed
    rw [whole, runScript_append, early fileCommands front fileCommands_ne, last, exec]
    simp

theorem NothingDone.state {r : Run} {h : Host} (nothing : NothingDone r) (bare : Bare h) :
    (run r h).state = h := by
  rw [run_state, nothing.unchanged bare, ite_self]

theorem NothingDone.fits {r : Run} {h : Host} (nothing : NothingDone r) (bare : Bare h) :
    Fits r h := by
  refine bare.fits fun _ alive works => ?_
  have whole : executed r = script := by rw [executed, alive]; rfl
  have failed := nothing.noText (by rw [whole]; decide)
  rw [works] at failed
  cases failed

theorem Ready.fits {r : Run} {h : Host} (ready : Ready h) : Fits r h := by
  obtain ⟨f, file, -⟩ := id ready
  have idle : starts r h = false := by simp [starts, file]
  refine ⟨fun _ _ => ready, fun started => ?_, fun started => ?_⟩
  · rw [idle] at started
    cases started
  · rw [idle] at started
    cases started

def Gentle (r : Run) : Prop := r.reached = false ∨ Through r ∨ NothingDone r

theorem Gentle.fits {r : Run} {h : Host} (calm : Gentle r) (bare : Bare h) : Fits r h := by
  rcases calm with ahead | through | nothing
  · refine bare.fits fun started => ?_
    simp [starts, ahead] at started
  · exact bare.fits fun _ _ _ => through.goes
  · exact nothing.fits bare

theorem gentle_keeps {r : Run} {h : Host} (calm : Gentle r) (inv : Bare h ∨ Ready h) :
    Bare (run r h).state ∨ Ready (run r h).state := by
  cases started : starts r h with
  | false =>
    rwa [run_state, started, if_neg Bool.false_ne_true]
  | true =>
    have bare : Bare h := by
      refine inv.resolve_right fun ready => ?_
      obtain ⟨f, file, -⟩ := ready
      simp [starts, file] at started
    rcases calm with ahead | through | nothing
    · simp [starts, ahead] at started
    · exact .inr (through.ready bare started)
    · left
      rwa [nothing.state bare]

/-- From a host with little memory and no swap file, the law holds in every run exactly
when every run fits the host it finds. Where `/etc/fstab` ends with a line break it is
enough that every run goes all the way or fails before it has done anything. -/
theorem swap_setup_converges_iff (h : Host) (low : h.memory < 2048) (noFile : h.swapfile = none)
    (noLine : swapLines h.fstab = 0) (rs : List Run) :
    (EveryRun run Law h rs ↔ EveryRun run Fits h rs) ∧
      (Terminated h.fstab → (∀ r ∈ rs, Gentle r) → EveryRun run Law h rs) := by
  have keepMemory : ∀ r h, h.memory < 2048 → (run r h).state.memory < 2048 := by
    intro r h low
    rw [run_memory]
    exact low
  have law_iff : EveryRun run Law h rs ↔ EveryRun run Fits h rs := by
    refine EveryRun.congr_invariant run (fun h => h.memory < 2048 ∧ swapLines h.fstab ≤ 1)
      (fun r _ h inv law => ?_) (fun r _ h inv => law_iff_fits r inv.1 inv.2) h
      ⟨low, by simp [noLine]⟩
    exact ⟨keepMemory r h inv.1, law.oneLine _ (runMoments_last r h)⟩
  refine ⟨law_iff, fun ends gentle => law_iff.mpr ?_⟩
  refine EveryRun.of_invariant run (fun h => h.memory < 2048 ∧ (Bare h ∨ Ready h)) ?_ ?_ h rs
    ⟨low, .inl ⟨noFile, noLine, ends⟩⟩
    (EveryRun.of_forall run (fun r listed _ => gentle r listed) h)
  · intro r h inv calm
    exact ⟨keepMemory r h inv.1, gentle_keeps calm inv.2⟩
  · intro r h inv calm
    rcases inv.2 with bare | ready
    · exact calm.fits bare
    · exact ready.fits

end Converging

section Examples

def smallHost : Host := ⟨1024, none, "UUID=1 / ext4 defaults 0 1\n".toList⟩

def undisturbed : Run := ⟨true, fun _ => none, none⟩

def killedAfterDd : Run := ⟨true, fun _ => none, some 1⟩

def withoutFile : Run := ⟨true, fun c => if c = .dd then some 0 else none, none⟩

theorem undisturbed_runs_converge :
    EveryRun run Law smallHost [⟨false, fun _ => none, none⟩, undisturbed, undisturbed] := by
  refine (swap_setup_converges_iff smallHost (by decide) rfl (by decide) _).2
    (.inr ⟨"UUID=1 / ext4 defaults 0 1".toList, rfl⟩) ?_
  intro r listed
  simp only [List.mem_cons, List.not_mem_nil, or_false] at listed
  rcases listed with rfl | rfl | rfl
  · exact .inl rfl
  · exact .inr (.inl ⟨rfl, fun _ => rfl⟩)
  · exact .inr (.inl ⟨rfl, fun _ => rfl⟩)

/-- After a kill the next run is skipped with the file not formatted; and without a
file a second line follows the first. -/
theorem half_done_setup_taken_for_done :
    (¬ ∀ (h : Host) (rs : List Run), h.memory < 2048 → h.swapfile = none →
      swapLines h.fstab = 0 → EveryCompleted run Ready h rs) ∧
    ¬ ∀ (h : Host) (rs : List Run), h.memory < 2048 → h.swapfile = none →
      swapLines h.fstab = 0 →
        EveryRun run (fun r h => ∀ t ∈ runMoments r h, swapLines t ≤ 1) h rs := by
  constructor
  · intro all
    have ready := (all smallHost [killedAfterDd, undisturbed] (by decide) rfl (by decide)).2.1 _ rfl
    obtain ⟨f, file, formatted, -⟩ := ready
    cases file
    cases formatted
  · intro all
    have moments := (all smallHost [withoutFile, withoutFile] (by decide) rfl (by decide)).2.1
    have two := moments (smallHost.fstab ++ fstabLine ++ fstabLine) (by decide)
    revert two
    decide

end Examples

end LempStack.SwapSetup
