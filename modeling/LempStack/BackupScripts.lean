import LempStack.MysqlRepair
import LempStack.RabbitmqSetup

/-! The backups of the three repair scripts when the scripts are run again, all their
commands succeeding. Each script saves the files it is about to replace and writes one
of them anew, and each is one cycle of its files and their backup. A second run saves
the file the first one wrote, over the original. The one file that is replaced and not
saved at all is `/etc/default/mysql`. -/

namespace LempStack.BackupScripts
open EventTrace FileMaps MysqlRepair
open ErrExit (eval Result)
open RabbitmqSetup (World Succeeds confPath originalPath)

inductive Script where
  | rabbitmqSetup
  | fixMysqlOnly
  | fixNginxSources
  deriving DecidableEq, Repr

-- `/etc/apt/sources.list.d` and `/etc/apt/sources.list.d.bak`
structure SourceFiles where
  live : Tree String String
  bak : Tree String String

structure Site where
  rabbit : RabbitmqSetup.Host
  mysql : State
  dataDir : Bool
  sources : SourceFiles

def rabbitmqConf : String :=
"# RabbitMQ 基础配置文件 - 针对 Magento 2

## 内存管理
vm_memory_high_watermark.relative = 0.4
disk_free_limit.absolute = 2GB

## 日志级别
log.file.level = warning
"

def nginxList : String :=
"deb [trusted=yes] http://nginx.org/packages/mainline/ubuntu/ jammy nginx
deb-src [trusted=yes] http://nginx.org/packages/mainline/ubuntu/ jammy nginx
"

/-- What a run meets in which every command succeeds: the input at the prompt of the second
script and the world of the first. -/
structure Input where
  typed : String
  world : World
  calm : Succeeds world
  text : world.heredoc confPath = rabbitmqConf

def isNginx (name : String) : Bool := "nginx".toList.isPrefixOf name.toList

def replaceSources (s : SourceFiles) : SourceFiles :=
  let moved : SourceFiles := ⟨remove isNginx s.live, copyOver isNginx s.live s.bak⟩
  { moved with live := write "nginx.list" nginxList moved.live }

section Runs
variable (fresh : Files)

def runScript (sc : Script) (s : Site) (input : Input) : Site :=
  match sc with
  | .rabbitmqSetup =>
    { s with rabbit := (eval (RabbitmqSetup.shell input.world) RabbitmqSetup.rabbitmqSetup true
        s.rabbit).state }
  | .fixMysqlOnly =>
    { s with mysql := finalState (step noFaults fresh) s.mysql (script s.dataDir input.typed) }
  | .fixNginxSources => { s with sources := replaceSources s.sources }

def runs (sc : Script) (inputs : List Input) (s : Site) : Site :=
  inputs.foldl (runScript fresh sc) s

end Runs

def defaultName : Path := ["mysql"]

def OriginalsHeld (sc : Script) (before after : Site) : Prop :=
  match sc with
  | .rabbitmqSetup => ∀ c, before.rabbit.files confPath = some c →
      after.rabbit.files originalPath = some c
  | .fixMysqlOnly =>
      (∀ p ∈ [myCnf, mysqldCnf], ∀ c, before.mysql.conf.live p = some c →
        after.mysql.conf.bak p = some c) ∧
      ∀ c, before.mysql.default = some c → after.mysql.conf.bak defaultName = some c
  | .fixNginxSources => ∀ p, isNginx p = true → ∀ c, before.sources.live p = some c →
      after.sources.bak p = some c

def rewritten (sc : Script) (s : Site) : Option String :=
  match sc with
  | .rabbitmqSetup => s.rabbit.files confPath
  | .fixMysqlOnly => s.mysql.conf.live myCnf
  | .fixNginxSources => s.sources.live "nginx.list"

def newText : Script → String
  | .rabbitmqSetup => rabbitmqConf
  | .fixMysqlOnly => minimalConfig
  | .fixNginxSources => nginxList

/-- The file the second script clears has a copy in the backup, by some other way. -/
def DefaultCopied (sc : Script) (s : Site) : Prop :=
  sc = .fixMysqlOnly → ∀ c, s.mysql.default = some c →
    (s.mysql.conf.live defaultName).or (s.mysql.conf.bak defaultName) = some c

section Views
variable (fresh : Files)

def rabbitView (s : Site) : Saved Unit String :=
  ⟨fun _ => s.rabbit.files confPath, fun _ => s.rabbit.files originalPath⟩

def mysqlView (s : Site) : Saved Path String := ⟨s.mysql.conf.live, s.mysql.conf.bak⟩

def sourcesView (s : Site) : Saved String String := ⟨s.sources.live, s.sources.bak⟩

def replaced (p : Path) : Bool := p = myCnf || p = mysqldCnf

theorem replaced_visible (p : Path) (h : replaced p = true) : visible p = true := by
  simp only [replaced, Bool.or_eq_true, decide_eq_true_eq] at h
  rcases h with rfl | rfl
  · exact visible_myCnf
  · exact visible_mysqldCnf

theorem rabbitmqSetup_cycle (s : Site) (input : Input) :
    rabbitView (runScript fresh .rabbitmqSetup s input) =
      cycle (fun _ => true) (fun _ => true) () rabbitmqConf (rabbitView s) := by
  obtain ⟨after, done, conf, original⟩ := RabbitmqSetup.undisturbed_files input.calm s.rabbit
  have ran : (runScript fresh .rabbitmqSetup s input).rabbit = after := congrArg Result.state done
  refine Saved.ext (funext fun _ => ?_) (funext fun _ => ?_)
  · simp only [rabbitView, ran, conf, input.text, cycle, write, if_true]
  · simp only [rabbitView, ran, original, cycle, copyOver, if_true]

theorem fixNginxSources_cycle (s : Site) (input : Input) :
    sourcesView (runScript fresh .fixNginxSources s input) =
      cycle isNginx isNginx "nginx.list" nginxList (sourcesView s) := rfl

theorem noFaults_live (s : ConfFiles) :
    (writtenConf noFaults s).live = write myCnf minimalConfig (remove replaced s.live) := by
  funext p
  have teed : newMyCnf noFaults = some minimalConfig := rfl
  have through : ∀ c q, noFaults.through c q = true := fun _ _ => rfl
  rw [writtenConf_live, strippedConf_live, removedConf_live, teed]
  by_cases mine : p = myCnf
  · simp [mine, write]
  · by_cases server : p = mysqldCnf <;>
      simp [write, remove, replaced, mine, server, through]

theorem noFaults_bak (s : ConfFiles) :
    (writtenConf noFaults s).bak = copyOver visible s.live s.bak := by
  funext p
  rw [writtenConf_bak]
  simp [copiedConf, confStep, Faults.through, noFaults, copyOver]

theorem fixMysqlOnly_cycle (s : Site) (input : Input) :
    mysqlView (runScript fresh .fixMysqlOnly s input) =
      cycle visible replaced myCnf minimalConfig (mysqlView s) := by
  simp only [mysqlView, runScript, cycle]
  rw [script_conf, noFaults_live, noFaults_bak]

theorem runs_defaultName (s : Site) (first : Input) (others : List Input) :
    (runs fresh .fixMysqlOnly (first :: others) s).mysql.conf.bak defaultName =
      (s.mysql.conf.live defaultName).or (s.mysql.conf.bak defaultName) := by
  have iterated := foldl_view mysqlView (cycle visible replaced myCnf minimalConfig)
    (fixMysqlOnly_cycle fresh) (first :: others) s
  have kept := cycles_bak_kept visible replaced myCnf minimalConfig (mysqlView s)
    (p := defaultName) (by decide) (by decide) (by decide) others.length
  rw [← List.length_cons, ← iterated] at kept
  exact kept

end Views

/-- After the runs the originals are held exactly when there was one run only, or the
file the script writes anew was missing or had the script's text already; and, for the
second script, when `/etc/default/mysql` was missing or has a copy in the backup that the
script did not make of it. -/
theorem originals_held_iff (fresh : Files) (sc : Script) (s : Site) (first : Input)
    (others : List Input) :
    OriginalsHeld sc s (runs fresh sc (first :: others) s) ↔
      (others = [] ∨ ∀ c, rewritten sc s = some c → c = newText sc) ∧ DefaultCopied sc s := by
  cases sc with
  | rabbitmqSetup =>
    have held := runs_hold_iff (fun _ => true) (fun _ => true) () rabbitmqConf rabbitView
      (fun _ h => h) rfl (rabbitmqSetup_cycle fresh) s first others
    have aside : DefaultCopied .rabbitmqSetup s := fun other => by cases other
    rw [and_iff_left aside]
    exact ⟨fun all => held.mp fun _ _ => all, fun cond => held.mpr cond () rfl⟩
  | fixMysqlOnly =>
    have listed : ∀ p, p ∈ [myCnf, mysqldCnf] ↔ replaced p = true := by simp [replaced]
    have held := runs_hold_iff visible replaced myCnf minimalConfig mysqlView replaced_visible rfl
      (fixMysqlOnly_cycle fresh) s first others
    simp only [OriginalsHeld, listed, runs_defaultName]
    refine and_congr held ⟨fun all _ => all, fun all => all rfl⟩
  | fixNginxSources =>
    have aside : DefaultCopied .fixNginxSources s := fun other => by cases other
    rw [and_iff_left aside]
    exact runs_hold_iff isNginx isNginx "nginx.list" nginxList sourcesView (fun _ h => h)
      (by decide) (fixNginxSources_cycle fresh) s first others

def tunedSite : Site where
  rabbit := { RabbitmqSetup.bareHost with
    files := fun p => if p = confPath then some "tuned" else none }
  mysql := ⟨⟨noFiles, false, noFiles⟩, ⟨noFiles, false, []⟩, none⟩
  dataDir := false
  sources := ⟨noFiles, noFiles⟩

def calmInput : Input where
  typed := ""
  world := { RabbitmqSetup.calmWorld with heredoc := fun _ => rabbitmqConf }
  calm := ⟨rfl, rfl, fun _ => rfl⟩
  text := rfl

theorem original_lost_on_second_run :
    ¬ ∀ (fresh : Files) (sc : Script) (s : Site) (first : Input) (others : List Input),
      OriginalsHeld sc s (runs fresh sc (first :: others) s) := by
  intro all
  have held : (runs noFiles .rabbitmqSetup [calmInput, calmInput] tunedSite).rabbit.files
      originalPath = some "tuned" := all noFiles .rabbitmqSetup tunedSite calmInput [calmInput]
    "tuned" rfl
  revert held
  decide +kernel

end LempStack.BackupScripts
