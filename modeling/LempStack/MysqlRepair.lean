import LempStack.EventTrace
import LempStack.FileMaps

/-! `fix-mysql-only.sh`, command by command. The script has no `set -e`: whatever
fails, the next command runs. A failed command leaves what its residue says, the
files it had got through and, for a file written through `tee`, the text left in it.
The backup of the data directory is named by the second of the run and is new. The
data directory may be a symbolic link, as where the data is on another disk; links
inside the two directories are left out. `mysqld --initialize-insecure` adds files and
replaces none. What the server itself writes while it runs is not the script's doing
and is left out. -/

namespace LempStack.MysqlRepair
open EventTrace FileMaps

abbrev Path := List String

abbrev Files := Tree Path String

def myCnf : Path := ["my.cnf"]

def mysqldCnf : Path := ["mysql.conf.d", "mysqld.cnf"]

def minimalConfig : String :=
"[mysqld]
# 基本设置
datadir = /var/lib/mysql
socket = /var/run/mysqld/mysqld.sock
port = 3306
user = mysql

# InnoDB设置
innodb_buffer_pool_size = 256M
innodb_file_per_table = 1

# 日志设置
log_error = /var/log/mysql/error.log

# 字符集
character_set_server = utf8mb4

[client]
port = 3306
socket = /var/run/mysqld/mysqld.sock
"

def visible : Path → Bool
  | [] => true
  | name :: _ => name.toList.head? != some '.'

-- `/etc/mysql` and `/etc/mysql.bak`
structure ConfFiles where
  live : Files
  bakDir : Bool
  bak : Files

-- `/var/lib/mysql` and the directories `/var/lib/mysql.bak.<timestamp>`
structure DataFiles where
  live : Files
  linked : Bool
  backups : List Files

-- the last is `/etc/default/mysql`
structure State where
  conf : ConfFiles
  data : DataFiles
  default : Option String

inductive Command where
  | makeConfBak
  | copyConf
  | removeMyCnf
  | removeMysqldCnf
  | writeMyCnf
  | makeLogDir
  | chownLogDir
  | makeRunDir
  | chownRunDir
  | clearDefault
  | stopMysql
  | copyData
  | clearData
  | makeDataDir
  | chownDataDir
  | chmodDataDir
  | initializeData
  | daemonReload
  | restartMysql
  | statusMysql
  deriving DecidableEq, Repr

/-- What a failed command leaves: the files it got through, and the text in a file that
`tee` had opened. -/
structure Residue where
  done : Path → Bool
  text : Option String

abbrev Faults := Command → Option Residue

def Faults.through (faults : Faults) (c : Command) (p : Path) : Bool :=
  match faults c with
  | none => true
  | some r => r.done p

def Faults.teed (faults : Faults) (c : Command) (text : String) : Option String :=
  match faults c with
  | none => some text
  | some r => r.text

section Steps
variable (faults : Faults)

def confStep (s : ConfFiles) : Command → ConfFiles
  | .makeConfBak => { s with bakDir := s.bakDir || (faults .makeConfBak).isNone }
  | .copyConf =>
    if s.bakDir then
      { s with bak := copyOver (fun p => visible p && faults.through .copyConf p) s.live s.bak }
    else s
  | .removeMyCnf =>
    { s with live := remove (fun p => p = myCnf && faults.through .removeMyCnf p) s.live }
  | .removeMysqldCnf =>
    { s with live := remove (fun p => p = mysqldCnf && faults.through .removeMysqldCnf p) s.live }
  | .writeMyCnf =>
    match faults.teed .writeMyCnf minimalConfig with
    | some text => { s with live := write myCnf text s.live }
    | none => s
  | _ => s

/-- `fresh` is what `mysqld --initialize-insecure` creates in an empty directory. -/
def dataStep (fresh : Files) (s : DataFiles) : Command → DataFiles
  | .copyData =>
    -- `cp -r` copies a link as a link, and the new one leads to the same files
    if s.linked then s
    else { s with backups := copyOver (faults.through .copyData) s.live noFiles :: s.backups }
  | .clearData =>
    { s with live := remove (fun p => visible p && faults.through .clearData p) s.live }
  | .initializeData =>
    let created : Files := fun p => if faults.through .initializeData p then fresh p else none
    { s with live := fun p => (s.live p).or (created p) }
  | _ => s

def defaultStep (text : Option String) : Command → Option String
  | .clearDefault => (faults.teed .clearDefault "\n").or text
  | _ => text

def step (fresh : Files) (s : State) (c : Command) : State × List Unit :=
  (⟨confStep faults s.conf c, dataStep faults fresh s.data c, defaultStep faults s.default c⟩, [])

end Steps

def configCommands : List Command :=
  [.makeConfBak, .copyConf, .removeMyCnf, .removeMysqldCnf, .writeMyCnf, .makeLogDir,
    .chownLogDir, .makeRunDir, .chownRunDir, .clearDefault]

def dataCommands : List Command :=
  [.stopMysql, .copyData, .clearData, .makeDataDir, .chownDataDir, .chmodDataDir, .initializeData]

/-- What `read` without `-r` takes of the input, with the characters that a backslash
protects marked. -/
def readLine : List Char → List (Char × Bool)
  | [] => []
  | '\n' :: _ => []
  | ['\\'] => []
  | '\\' :: '\n' :: cs => readLine cs
  | '\\' :: c :: cs => (c, true) :: readLine cs
  | c :: cs => (c, false) :: readLine cs

def blank (c : Char × Bool) : Bool := !c.2 && (c.1 == ' ' || c.1 == '\t')

def readAnswer (typed : String) : String :=
  let line := (readLine typed.toList).dropWhile blank
  String.ofList ((line.reverse.dropWhile blank).reverse.map Prod.fst)

example : readAnswer " \\y \n" = "y" := by decide

/-- The commands run, given `[ -d /var/lib/mysql ]` and the input at the prompt. -/
def script (dataDir : Bool) (typed : String) : List Command :=
  configCommands ++ (if dataDir && readAnswer typed == "y" then dataCommands else []) ++
    [.daemonReload, .restartMysql, .statusMysql]

def DataSafe (D : Files) (s : DataFiles) : Prop :=
  Holds D s.live ∨ ∃ b ∈ s.backups, Holds D b

def ConfSafe (C : Files) (s : ConfFiles) : Prop :=
  ∀ p c, C p = some c → s.live p ≠ some c → s.bak p = some c

section Data
variable (faults : Faults) (fresh : Files)

def movesData : Command → Bool
  | .copyData | .clearData | .initializeData => true
  | _ => false

/-- The data directory is emptied only after a full copy, or is not emptied of
anything, or an older backup holds it all. -/
def DataKept (s : DataFiles) : Prop :=
  (s.linked = false ∧ ∀ p, s.live p ≠ none → faults.through .copyData p = true) ∨
    (∀ p, s.live p ≠ none → (visible p && faults.through .clearData p) = false) ∨
    ∃ b ∈ s.backups, Holds s.live b

theorem script_dataCommands (dataDir : Bool) (typed : String) :
    (script dataDir typed).filter movesData =
      if dataDir && readAnswer typed == "y" then [.copyData, .clearData, .initializeData]
      else [] := by
  unfold script
  split_ifs <;> rfl

theorem dataStep_rests (s : DataFiles) (c : Command) (h : movesData c = false) :
    dataStep faults fresh s c = s := by
  cases c <;> first | rfl | cases h

theorem emptied_safe_iff (s : DataFiles) :
    DataSafe s.live (dataStep faults fresh (dataStep faults fresh s .copyData) .clearData) ↔
      DataKept faults s := by
  cases link : s.linked with
  | false =>
    simp only [dataStep, link, Bool.false_eq_true, if_false, DataSafe,
      List.exists_mem_cons_iff, DataKept, holds_copy_iff, holds_remove_iff, true_and]
    exact or_left_comm
  | true =>
    simp only [dataStep, link, if_true, DataSafe, DataKept, holds_remove_iff,
      Bool.true_eq_false, false_and, false_or]

theorem dataCommands_safe_iff (s : DataFiles) :
    Throughout (fun v c => (dataStep faults fresh v c, ([] : List Unit))) (DataSafe s.live) s
        [.copyData, .clearData, .initializeData] ↔ DataKept faults s := by
  have copied : (dataStep faults fresh s .copyData).live = s.live := by
    cases link : s.linked <;> simp [dataStep, link]
  rw [← emptied_safe_iff faults fresh]
  constructor
  · exact fun all => all.2.2.1
  · intro safe
    refine ⟨.inl (holds_refl _), .inl ?_, safe, safe.imp (fun held => held.or _) id⟩
    rw [copied]
    exact holds_refl _

theorem script_dataSafe_iff (s : State) (dataDir : Bool) (typed : String) :
    Throughout (step faults fresh) (fun t => DataSafe s.data.live t.data) s
        (script dataDir typed) ↔
      (dataDir = true → readAnswer typed = "y" → DataKept faults s.data) := by
  rw [throughout_project (step faults fresh) State.data (dataStep faults fresh) movesData
    (fun _ _ _ => rfl) (fun s c h => dataStep_rests faults fresh s.data c h)
    (DataSafe s.data.live), script_dataCommands]
  split_ifs with asked
  · simp only [Bool.and_eq_true, beq_iff_eq] at asked
    rw [dataCommands_safe_iff]
    exact ⟨fun kept _ _ => kept, fun all => all asked.1 asked.2⟩
  · simp only [Bool.and_eq_true, beq_iff_eq, not_and] at asked
    exact ⟨fun _ dir yes => absurd yes (asked dir), fun _ => .inl (holds_refl _)⟩

end Data

section Conf
variable (faults : Faults) (fresh : Files)

def movesConf : Command → Bool
  | .makeConfBak | .copyConf | .removeMyCnf | .removeMysqldCnf | .writeMyCnf => true
  | _ => false

def SavedConf (s : ConfFiles) (p : Path) (c : String) : Prop :=
  (s.bakDir = true ∨ faults .makeConfBak = none) ∧ faults.through .copyConf p = true ∨
    s.bak p = some c

def newMyCnf : Option String := faults.teed .writeMyCnf minimalConfig

/-- The two files the script replaces are saved, or escape it. -/
def ConfKept (s : ConfFiles) : Prop :=
  (∀ c, s.live myCnf = some c →
    SavedConf faults s myCnf c ∨
      faults.through .removeMyCnf myCnf = false ∧
        (newMyCnf faults = none ∨ newMyCnf faults = some c)) ∧
  (∀ c, s.live mysqldCnf = some c →
    SavedConf faults s mysqldCnf c ∨ faults.through .removeMysqldCnf mysqldCnf = false)

theorem script_confCommands (dataDir : Bool) (typed : String) :
    (script dataDir typed).filter movesConf =
      [.makeConfBak, .copyConf, .removeMyCnf, .removeMysqldCnf, .writeMyCnf] := by
  unfold script
  split_ifs <;> rfl

theorem confStep_rests (s : ConfFiles) (c : Command) (h : movesConf c = false) :
    confStep faults s c = s := by
  cases c <;> first | rfl | cases h

theorem visible_myCnf : visible myCnf = true := by decide

theorem visible_mysqldCnf : visible mysqldCnf = true := by decide

def copiedConf (s : ConfFiles) : ConfFiles :=
  confStep faults (confStep faults s .makeConfBak) .copyConf

theorem copiedConf_bak_iff (s : ConfFiles) {p : Path} {c : String} (glob : visible p = true)
    (orig : s.live p = some c) :
    (copiedConf faults s).bak p = some c ↔ SavedConf faults s p c := by
  have ready : (s.bakDir || (faults .makeConfBak).isNone) = true ↔
      s.bakDir = true ∨ faults .makeConfBak = none := by
    simp
  unfold SavedConf copiedConf
  rw [← ready]
  cases dir : s.bakDir || (faults .makeConfBak).isNone with
  | false => simp [confStep, dir]
  | true =>
    simp only [confStep, dir, if_true, true_and]
    cases through : faults.through .copyConf p with
    | true =>
      have copied : copyOver (fun p => visible p && faults.through .copyConf p) s.live s.bak p =
          some c := copyOver_selected (by simp [glob, through]) orig
      simp [copied]
    | false =>
      have kept : copyOver (fun p => visible p && faults.through .copyConf p) s.live s.bak p =
          s.bak p := copyOver_unselected (by simp [through])
      simp [kept]

theorem confSafe_iff_two {C : Files} {s : ConfFiles}
    (same : ∀ p, p ≠ myCnf → p ≠ mysqldCnf → s.live p = C p) :
    ConfSafe C s ↔
      (∀ c, C myCnf = some c → s.live myCnf ≠ some c → s.bak myCnf = some c) ∧
        ∀ c, C mysqldCnf = some c → s.live mysqldCnf ≠ some c → s.bak mysqldCnf = some c := by
  constructor
  · exact fun all => ⟨all myCnf, all mysqldCnf⟩
  · rintro ⟨first, second⟩ p c orig changed
    by_cases mine : p = myCnf
    · subst mine
      exact first c orig changed
    · by_cases server : p = mysqldCnf
      · subst server
        exact second c orig changed
      · exact absurd ((same p mine server).trans orig) changed

theorem copiedConf_live (s : ConfFiles) : (copiedConf faults s).live = s.live := by
  cases dir : s.bakDir || (faults .makeConfBak).isNone <;> simp [copiedConf, confStep, dir]

def removedConf (s : ConfFiles) : ConfFiles :=
  confStep faults (copiedConf faults s) .removeMyCnf

def strippedConf (s : ConfFiles) : ConfFiles :=
  confStep faults (removedConf faults s) .removeMysqldCnf

def writtenConf (s : ConfFiles) : ConfFiles :=
  confStep faults (strippedConf faults s) .writeMyCnf

theorem removedConf_live (s : ConfFiles) (p : Path) :
    (removedConf faults s).live p =
      if p = myCnf ∧ faults.through .removeMyCnf p = true then none else s.live p := by
  simp [removedConf, confStep, remove, copiedConf_live]

theorem strippedConf_live (s : ConfFiles) (p : Path) :
    (strippedConf faults s).live p =
      if p = mysqldCnf ∧ faults.through .removeMysqldCnf p = true then none
      else (removedConf faults s).live p := by
  simp [strippedConf, confStep, remove]

theorem writtenConf_live (s : ConfFiles) (p : Path) :
    (writtenConf faults s).live p =
      if p = myCnf then (newMyCnf faults).or ((strippedConf faults s).live p)
      else (strippedConf faults s).live p := by
  simp only [writtenConf, confStep, newMyCnf]
  cases faults.teed .writeMyCnf minimalConfig with
  | none => simp
  | some text => simp [write]

theorem writtenConf_bak (s : ConfFiles) :
    (writtenConf faults s).bak = (copiedConf faults s).bak := by
  simp only [writtenConf, confStep]
  cases faults.teed .writeMyCnf minimalConfig <;> rfl

theorem confCommands_states (s : ConfFiles) :
    Throughout (fun v c => (confStep faults v c, ([] : List Unit))) (ConfSafe s.live) s
        [.makeConfBak, .copyConf, .removeMyCnf, .removeMysqldCnf, .writeMyCnf] ↔
      ConfSafe s.live (removedConf faults s) ∧ ConfSafe s.live (strippedConf faults s) ∧
        ConfSafe s.live (writtenConf faults s) := by
  have unchanged : ∀ t : ConfFiles, t.live = s.live → ConfSafe s.live t :=
    fun t same p c orig changed => absurd (same ▸ orig) changed
  constructor
  · exact fun all => all.2.2.2
  · exact fun harm =>
      ⟨unchanged s rfl, unchanged _ rfl, unchanged _ (copiedConf_live faults s), harm⟩

theorem confSafe_of_kept {s t : ConfFiles} (kept : ConfKept faults s)
    (same : ∀ p, p ≠ myCnf → p ≠ mysqldCnf → t.live p = s.live p)
    (bak : t.bak = (copiedConf faults s).bak)
    (first : ∀ c, s.live myCnf = some c → t.live myCnf ≠ some c →
      faults.through .removeMyCnf myCnf = true ∨ ∃ text, newMyCnf faults = some text ∧ text ≠ c)
    (second : ∀ c, s.live mysqldCnf = some c → t.live mysqldCnf ≠ some c →
      faults.through .removeMysqldCnf mysqldCnf = true) : ConfSafe s.live t := by
  refine (confSafe_iff_two same).mpr ⟨?_, ?_⟩
  · intro c orig changed
    rw [bak, copiedConf_bak_iff faults s visible_myCnf orig]
    refine (kept.1 c orig).resolve_right ?_
    rintro ⟨through, escaped⟩
    rcases first c orig changed with removed | ⟨text, teed, other⟩
    · rw [through] at removed
      cases removed
    · simp [teed, other] at escaped
  · intro c orig changed
    rw [bak, copiedConf_bak_iff faults s visible_mysqldCnf orig]
    refine (kept.2 c orig).resolve_right ?_
    rw [second c orig changed]
    simp

theorem myCnf_ne : myCnf ≠ mysqldCnf := by decide

theorem removedConf_safe {s : ConfFiles} (kept : ConfKept faults s) :
    ConfSafe s.live (removedConf faults s) := by
  refine confSafe_of_kept faults kept ?_ rfl ?_ ?_
  · intro p mine _
    simp [removedConf_live, mine]
  · intro c orig changed
    left
    by_contra spared
    simp [removedConf_live, spared, orig] at changed
  · intro c orig changed
    simp [removedConf_live, myCnf_ne.symm, orig] at changed

theorem strippedConf_safe {s : ConfFiles} (kept : ConfKept faults s) :
    ConfSafe s.live (strippedConf faults s) := by
  refine confSafe_of_kept faults kept ?_ rfl ?_ ?_
  · intro p mine server
    simp [strippedConf_live, removedConf_live, mine, server]
  · intro c orig changed
    left
    by_contra spared
    simp [strippedConf_live, removedConf_live, myCnf_ne, spared, orig] at changed
  · intro c orig changed
    by_contra spared
    simp [strippedConf_live, removedConf_live, myCnf_ne.symm, spared, orig] at changed

theorem writtenConf_safe {s : ConfFiles} (kept : ConfKept faults s) :
    ConfSafe s.live (writtenConf faults s) := by
  refine confSafe_of_kept faults kept ?_ (writtenConf_bak faults s) ?_ ?_
  · intro p mine server
    simp [writtenConf_live, strippedConf_live, removedConf_live, mine, server]
  · intro c orig changed
    rw [writtenConf_live, if_pos rfl] at changed
    cases teed : newMyCnf faults with
    | none =>
      left
      by_contra spared
      simp [teed, strippedConf_live, removedConf_live, myCnf_ne, spared, orig] at changed
    | some text =>
      simp only [teed, Option.some_or, ne_eq, Option.some.injEq] at changed
      exact .inr ⟨text, rfl, changed⟩
  · intro c orig changed
    by_contra spared
    simp [writtenConf_live, strippedConf_live, removedConf_live, myCnf_ne.symm, spared, orig]
      at changed

theorem confCommands_safe_iff (s : ConfFiles) :
    Throughout (fun v c => (confStep faults v c, ([] : List Unit))) (ConfSafe s.live) s
        [.makeConfBak, .copyConf, .removeMyCnf, .removeMysqldCnf, .writeMyCnf] ↔
      ConfKept faults s := by
  rw [confCommands_states]
  constructor
  · rintro ⟨removed, stripped, written⟩
    refine ⟨fun c orig => ?_, fun c orig => ?_⟩
    · have saved := copiedConf_bak_iff faults s visible_myCnf orig
      cases through : faults.through .removeMyCnf myCnf with
      | true =>
        have gone : (removedConf faults s).live myCnf ≠ some c := by
          simp [removedConf_live, through]
        exact .inl (saved.mp (removed myCnf c orig gone))
      | false =>
        cases teed : newMyCnf faults with
        | none => exact .inr ⟨rfl, .inl rfl⟩
        | some text =>
          by_cases same : text = c
          · exact .inr ⟨rfl, .inr (by rw [same])⟩
          · have gone : (writtenConf faults s).live myCnf ≠ some c := by
              simp [writtenConf_live, teed, same]
            have held := written myCnf c orig gone
            rw [writtenConf_bak] at held
            exact .inl (saved.mp held)
    · have saved := copiedConf_bak_iff faults s visible_mysqldCnf orig
      cases through : faults.through .removeMysqldCnf mysqldCnf with
      | true =>
        have gone : (strippedConf faults s).live mysqldCnf ≠ some c := by
          simp [strippedConf_live, through]
        exact .inl (saved.mp (stripped mysqldCnf c orig gone))
      | false => exact .inr rfl
  · intro kept
    exact ⟨removedConf_safe faults kept, strippedConf_safe faults kept,
      writtenConf_safe faults kept⟩

theorem script_confSafe_iff (s : State) (dataDir : Bool) (typed : String) :
    Throughout (step faults fresh) (fun t => ConfSafe s.conf.live t.conf) s
        (script dataDir typed) ↔ ConfKept faults s.conf := by
  rw [throughout_project (step faults fresh) State.conf (confStep faults) movesConf
    (fun _ _ _ => rfl) (fun s c h => confStep_rests faults s.conf c h)
    (ConfSafe s.conf.live), script_confCommands, confCommands_safe_iff]

theorem script_conf (s : State) (dataDir : Bool) (typed : String) :
    (finalState (step faults fresh) s (script dataDir typed)).conf =
      writtenConf faults s.conf := by
  unfold script
  split_ifs <;> rfl

end Conf

/-- At every point of the script the data and the replaced configuration exist in
some copy, exactly when the data directory is left alone or emptied after a full
copy, and each of the two replaced files was saved or escaped. -/
theorem only_copy_kept_iff (faults : Faults) (fresh : Files) (s : State) (dataDir : Bool)
    (typed : String) :
    Throughout (step faults fresh)
        (fun t => DataSafe s.data.live t.data ∧ ConfSafe s.conf.live t.conf) s
        (script dataDir typed) ↔
      (dataDir = true → readAnswer typed = "y" → DataKept faults s.data) ∧
        ConfKept faults s.conf := by
  rw [throughout_and, script_dataSafe_iff, script_confSafe_iff]

def exampleState : State where
  conf := ⟨write myCnf "stock" noFiles, false, noFiles⟩
  data := ⟨write ["shop", "orders.ibd"] "rows" noFiles, false, []⟩
  default := none

def noFaults : Faults := fun _ => none

theorem healthy_run_keeps_copies :
    Throughout (step noFaults noFiles)
      (fun t => DataSafe exampleState.data.live t.data ∧ ConfSafe exampleState.conf.live t.conf)
      exampleState (script true "y") := by
  refine (only_copy_kept_iff noFaults noFiles exampleState true "y").mpr ⟨?_, ?_⟩
  · exact fun _ _ => .inl ⟨rfl, fun _ _ => rfl⟩
  · exact ⟨fun _ _ => .inl (.inl ⟨.inr rfl, rfl⟩), fun _ _ => .inl (.inl ⟨.inr rfl, rfl⟩)⟩

def fullDisk : Faults := fun c =>
  if c = .copyData then some ⟨fun _ => false, none⟩ else none

theorem data_lost_on_full_disk :
    ¬ ∀ (faults : Faults) (fresh : Files) (s : State) (dataDir : Bool) (typed : String),
      Throughout (step faults fresh)
        (fun t => DataSafe s.data.live t.data ∧ ConfSafe s.conf.live t.conf) s
        (script dataDir typed) := by
  intro all
  have safe := (throughout_and _).mp (all fullDisk noFiles exampleState true "y")
  have kept := (script_dataSafe_iff fullDisk noFiles exampleState true "y").mp safe.1 rfl
    (by decide)
  have table : exampleState.data.live ["shop", "orders.ibd"] ≠ none := by decide
  rcases kept with ⟨-, copied⟩ | spared | ⟨b, older, -⟩
  · exact absurd (copied _ table) (by decide)
  · exact absurd (spared _ table) (by decide)
  · simp [exampleState] at older

end LempStack.MysqlRepair
