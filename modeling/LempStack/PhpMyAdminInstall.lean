import LempStack.PhpMyAdminRole

/-! Whether a run of the phpMyAdmin role that completes leaves every file of the release
in place. The role takes `index.php` for an installation and an unpacked tree for one
that has been copied. A run that fails between the end of the extraction and the end of
the copy leaves a host on which one of the two is wrong; every later run then completes
without copying anything. -/

namespace LempStack.PhpMyAdminInstall
open FileMaps PlayRun PhpMyAdminRole

section Law
variable (a : Archive)

/-- The installation directory contains every file of the archive. The configuration
file the role renders may stand in for one of the archive. -/
def Complete (h : Host) : Prop :=
  ∃ dir, h.installDir = some dir ∧ ∀ p ∈ a.paths,
    dir p = some (a.text p) ∨ p = configIncPhp ∧ (dir p).isSome = true

def Copied (h : Host) : Prop :=
  ∀ p ∈ a.paths, p ≠ configIncPhp → h.files p = some (a.text p)

/-- Later runs take the host for installed, or for copied, and it is not. -/
def Stuck (h : Host) : Prop :=
  ¬ Copied a h ∧ ((h.files indexPhp).isSome = true ∨ a.unpacked h.extracted = true)

def Plain : Prop := ∀ p ∈ a.paths, visible p = true

theorem not_stuck_of_copied {h : Host} (copied : Copied a h) : ¬ Stuck a h := fun stuck =>
  stuck.1 copied

theorem copied_of_index {h : Host} (sound : ¬ Stuck a h)
    (index : (h.files indexPhp).isSome = true) : Copied a h := by
  by_contra missing
  exact sound ⟨missing, .inl index⟩

theorem copied_of_unpacked {h : Host} (sound : ¬ Stuck a h)
    (whole : a.unpacked h.extracted = true) : Copied a h := by
  by_contra missing
  exact sound ⟨missing, .inr whole⟩

theorem unpacked_some {t : Files} :
    a.unpacked (some t) = true ↔ ∀ p ∈ a.paths, t p = some (a.text p) := by
  simp [Archive.unpacked]

theorem unpacked_extract (t : Files) :
    a.unpacked (some (copyOver (fun _ => true) a.tree t)) = true := by
  rw [unpacked_some]
  intro p listed
  exact copyOver_selected rfl (by simp [Archive.tree, listed])

end Law

section Partly
variable {fault : Option Residue} {act : Residue → Play → Play} {p : Play}

theorem partly_meets {good bad : Play → Prop} (through : good (act (fun _ => true) p))
    (halt : ∀ done, fault = some done → bad (act done p)) :
    (partly fault act p).Meets good bad := by
  cases fault with
  | none => exact through
  | some done => exact halt done rfl

theorem partly_state (I : Play → Prop) (kept : ∀ done, I (act done p)) :
    I (partly fault act p).state := by
  cases fault with
  | none => exact kept _
  | some done => exact kept done

theorem partly_host (I : Host → Prop) (kept : ∀ done, I (act done p).host) :
    I (partly fault act p).state.host :=
  partly_state (fun p => I p.host) kept

end Partly

section Files
variable (a : Archive) (r : Run)

/-- The copy apart, a task leaves the files of the directory alone or writes the
configuration file, whether it fails or not. -/
theorem exec_files {t : Task} (notCopy : t ≠ .copyFiles) (fault : Option Residue) (p : Play) :
    (exec a r t fault p).state.host.files = p.host.files ∨
      (exec a r t fault p).state.host.files = write configIncPhp r.config p.host.files := by
  cases t with
  | copyFiles => contradiction
  | createConfig =>
    simp only [exec]
    split_ifs
    · cases here : p.host.installDir with
      | none => exact .inl rfl
      | some dir =>
        refine partly_host (fun h => h.files = _ ∨ h.files = _) fun done => ?_
        have files : p.host.files = dir := by rw [Host.files, here, Option.getD_some]
        split_ifs
        · right
          rw [files]
          rfl
        · exact .inl rfl
    · exact .inl rfl
  | removeExtracted =>
    left
    simp only [exec]
    split_ifs
    · refine withItems_preserves _ (fun q => q.host.files = p.host.files)
        (fun _ q same => ?_) _ p rfl
      exact partly_host (fun h => h.files = p.host.files) fun _ => same
    · rfl
  | createDir =>
    left
    simp only [exec]
    split_ifs
    · refine partly_host (fun h => h.files = p.host.files) fun done => ?_
      split_ifs <;> rfl
    · rfl
  | unarchive =>
    left
    simp only [exec]
    split_ifs
    · exact partly_host (fun h => h.files = p.host.files) fun _ => rfl
    · refine partly_host (fun h => h.files = p.host.files) fun done => ?_
      split_ifs <;> rfl
    · rfl
  | checkInstalled =>
    left
    simp only [exec]
    exact partly_host (fun h => h.files = p.host.files) fun _ => rfl
  | _ =>
    left
    simp only [exec]
    split
    · exact partly_host (fun h => h.files = p.host.files) fun _ => rfl
    · rfl

theorem copied_write {h h' : Host} (text : String)
    (written : h'.files = write configIncPhp text h.files) : Copied a h' ↔ Copied a h := by
  refine forall₃_congr fun p _ other => ?_
  rw [written, write, if_neg other]

theorem exec_copied_iff {t : Task} (notCopy : t ≠ .copyFiles) (fault : Option Residue) (p : Play) :
    Copied a (exec a r t fault p).state.host ↔ Copied a p.host := by
  rcases exec_files a r notCopy fault p with same | written
  · rw [Copied, same, Copied]
  · exact copied_write a r.config written

def NoHidden (h : Host) : Prop := ∀ p, visible p = false → h.files p = none

theorem copyItem_noHidden (fault : Option Residue) (p : Play) (clean : NoHidden p.host) :
    NoHidden (copyItem a fault p).state.host := by
  unfold copyItem
  split
  · rename_i dir t here _
    have files : p.host.files = dir := by rw [Host.files, here, Option.getD_some]
    split_ifs
    · refine partly_host NoHidden fun done q hidden => ?_
      have unselected : (visible q && done q) = false := by rw [hidden, Bool.false_and]
      have old := clean q hidden
      rw [files] at old
      have kept : copyOver (fun q => visible q && done q) t dir q = dir q :=
        copyOver_unselected unselected
      exact kept.trans old
    · exact clean
  · exact clean

theorem exec_noHidden (t : Task) (fault : Option Residue) (p : Play) (clean : NoHidden p.host) :
    NoHidden (exec a r t fault p).state.host := by
  by_cases copy : t = .copyFiles
  · subst copy
    simp only [exec]
    split_ifs
    · exact withItems_preserves _ (fun p => NoHidden p.host)
        (fun _ p clean => copyItem_noHidden a fault p clean) _ p clean
    · exact clean
  · intro q hidden
    rcases exec_files a r copy fault p with same | written
    · rw [same, clean q hidden]
    · have other : q ≠ configIncPhp := by
        rintro rfl
        revert hidden
        decide
      rw [written, write, if_neg other, clean q hidden]

theorem run_noHidden (h : Host) (clean : NoHidden h) : NoHidden (run a r h).state := by
  rw [run, Outcome.state_map]
  exact runTasks_preserves (exec a r) r.faults (fun p => NoHidden p.host) roleTasks
    (fun t _ p clean => exec_noHidden a r t _ p clean) (start h) clean

theorem plain_of_copied {h : Host} (clean : NoHidden h) (copied : Copied a h) : Plain a := by
  intro p listed
  by_contra hidden
  have other : p ≠ configIncPhp := by
    rintro rfl
    exact hidden (by decide)
  have missing := clean p (by simpa using hidden)
  rw [copied p listed other] at missing
  cases missing

end Files

section Installing
variable (a : Archive) (r : Run)

/-- The run fails while the files are on their way. -/
def CutShort : Prop :=
  r.faults .unarchive ≠ none ∨ r.faults .findExtracted ≠ none ∨ r.faults .copyFiles ≠ none

def Left (p : Play) : Prop := CutShort r ∨ ¬ Stuck a p.host

structure Checked (p : Play) : Prop where
  sound : ¬ Stuck a p.host
  installed : p.regs.installed = (p.host.files indexPhp).isSome

def Unpacked (p : Play) : Prop :=
  Copied a p.host ∧ p.regs.downloadChanged = false ∨
    p.regs.downloadChanged = true ∧ a.unpacked p.host.extracted = true ∧
      p.host.installDir.isSome = true

def Found (p : Play) : Prop :=
  Copied a p.host ∧ p.regs.extractedDir.getD [] = [] ∨
    p.regs.extractedDir = some [extractedPath] ∧ a.unpacked p.host.extracted = true ∧
      p.host.installDir.isSome = true

theorem Left.sound {p : Play} (sound : ¬ Stuck a p.host) : Left a r p := .inr sound

theorem Left.copied {p : Play} (copied : Copied a p.host) : Left a r p :=
  .inr (not_stuck_of_copied a copied)

theorem checkInstalled_meets {h : Host} (sound : ¬ Stuck a h) (fault : Option Residue) :
    (exec a r .checkInstalled fault (start h)).Meets (Checked a) (Left a r) := by
  simp only [exec]
  exact partly_meets ⟨sound, rfl⟩ fun _ _ => Left.sound a r sound

theorem setVersion_meets {p : Play} (checked : Checked a p) (fault : Option Residue) :
    (exec a r .setVersion fault p).Meets (Checked a) (Left a r) := by
  simp only [exec]
  split_ifs
  · exact partly_meets checked fun _ _ => Left.sound a r checked.sound
  · exact checked

variable (installing : r.phpmyadminInstall = true)
include installing

theorem createDir_meets {p : Play} (checked : Checked a p) (fault : Option Residue) :
    (exec a r .createDir fault p).Meets
      (fun q => Checked a q ∧ (q.regs.installed = false → q.host.installDir.isSome = true))
      (Left a r) := by
  simp only [exec, installing, Bool.true_and]
  split_ifs with absent
  · refine partly_meets ⟨⟨checked.sound, checked.installed⟩, fun _ => rfl⟩ fun done _ => ?_
    split_ifs
    · exact Left.sound a r checked.sound
    · exact Left.sound a r checked.sound
  · refine ⟨checked, fun missing => ?_⟩
    rw [missing] at absent
    exact absurd rfl absent

theorem unarchive_meets {p : Play} (checked : Checked a p)
    (dir : p.regs.installed = false → p.host.installDir.isSome = true) :
    (exec a r .unarchive (r.faults .unarchive) p).Meets (Unpacked a) (Left a r) := by
  simp only [exec, installing, Bool.true_and]
  split_ifs with absent whole
  · have copied := copied_of_unpacked a checked.sound whole
    exact partly_meets (.inl ⟨copied, rfl⟩) fun _ _ => Left.copied a r copied
  · have missing : p.regs.installed = false := by simpa using absent
    refine partly_meets (.inr ⟨rfl, unpacked_extract a _, dir missing⟩) fun done cut => ?_
    exact .inl (.inl (by simp [cut]))
  · have index : (p.host.files indexPhp).isSome = true := by
      rw [← checked.installed]
      simpa using absent
    exact .inl ⟨copied_of_index a checked.sound index, rfl⟩

theorem findExtracted_meets {p : Play} (unpacked : Unpacked a p) :
    (exec a r .findExtracted (r.faults .findExtracted) p).Meets (Found a) (Left a r) := by
  simp only [exec, installing, Bool.true_and]
  rcases unpacked with ⟨copied, same⟩ | ⟨changed, whole, dir⟩
  · rw [same, if_neg Bool.false_ne_true]
    exact .inl ⟨copied, rfl⟩
  · have there : p.host.extracted.isSome = true := by
      cases tree : p.host.extracted with
      | none =>
        rw [tree] at whole
        cases whole
      | some t => rfl
    rw [changed, if_pos rfl, if_pos there]
    refine partly_meets (.inr ⟨rfl, whole, dir⟩) fun done cut => ?_
    exact .inl (.inr (.inl (by simp [cut])))

theorem initFiles_meets {p : Play} (found : Found a p) (fault : Option Residue) :
    (exec a r .initFiles fault p).Meets (Found a) (Left a r) := by
  simp only [exec, installing, Bool.true_and]
  split_ifs with undefined
  · rcases found with ⟨copied, -⟩ | ⟨files, -⟩
    · exact partly_meets (.inl ⟨copied, rfl⟩) fun _ _ => Left.copied a r copied
    · rw [files] at undefined
      cases undefined
  · exact found

theorem copyFiles_meets {p : Play} (plain : Plain a) (found : Found a p) :
    (exec a r .copyFiles (r.faults .copyFiles) p).Meets (fun q => Copied a q.host) (Left a r) := by
  simp only [exec, installing, if_true]
  rcases found with ⟨copied, nothing⟩ | ⟨files, whole, dir⟩
  · rw [nothing]
    exact copied
  · rw [files, Option.getD_some, withItems_singleton, copyItem]
    obtain ⟨d, here⟩ := Option.isSome_iff_exists.mp dir
    cases tree : p.host.extracted with
    | none =>
      rw [tree] at whole
      cases whole
    | some t =>
      rw [tree, unpacked_some] at whole
      rw [here]
      dsimp only
      split_ifs with matched
      · refine partly_meets (fun q listed other => ?_) fun done cut => ?_
        · have picked : (visible q && true) = true := by rw [plain q listed, Bool.and_self]
          have copied : copyOver (fun q => visible q && true) t d q = some (a.text q) :=
            copyOver_selected picked (whole q listed)
          exact copied
        · exact .inl (.inr (.inr (by simp [cut])))
      · -- a glob without a match: the archive has no file at all
        refine Left.copied a r fun q listed _ => ?_
        refine absurd (List.any_eq_true.mpr ⟨q, listed, ?_⟩) matched
        rw [plain q listed, whole q listed]
        rfl

theorem run_meets {h : Host} (plain : Plain a) (sound : ¬ Stuck a h) :
    (runTasks (exec a r) r.faults roleTasks (start h)).Meets
      (fun q => Copied a q.host) (Left a r) := by
  refine runTasks_cons_meets _ _ (Checked a) (checkInstalled_meets a r sound _) fun p₁ h₁ => ?_
  refine runTasks_cons_meets _ _ (Checked a) (setVersion_meets a r h₁ _) fun p₂ h₂ => ?_
  refine runTasks_cons_meets _ _ _ (createDir_meets a r installing h₂ _) fun p₃ h₃ => ?_
  refine runTasks_cons_meets _ _ (Unpacked a) (unarchive_meets a r installing h₃.1 h₃.2)
    fun p₄ h₄ => ?_
  refine runTasks_cons_meets _ _ (Found a) (findExtracted_meets a r installing h₄) fun p₅ h₅ => ?_
  refine runTasks_cons_meets _ _ (Found a) (initFiles_meets a r installing h₅ _) fun p₆ h₆ => ?_
  refine runTasks_cons_meets _ _ _ (copyFiles_meets a r installing plain h₆) fun p₇ h₇ => ?_
  have rest := runTasks_preserves (exec a r) r.faults (fun q => Copied a q.host)
    (.removeExtracted :: configTasks) (fun t listed q copied => ?_) p₇ h₇
  · change (runTasks (exec a r) r.faults (.removeExtracted :: configTasks) p₇).Meets _ _
    cases ended : runTasks (exec a r) r.faults (.removeExtracted :: configTasks) p₇ with
    | ok q =>
      rw [ended] at rest
      exact rest
    | failed q =>
      rw [ended] at rest
      exact Left.copied a r rest
  · have notCopy : ∀ t ∈ Task.removeExtracted :: configTasks, t ≠ .copyFiles := by decide
    exact (exec_copied_iff a r (notCopy t listed) _ q).mpr copied

end Installing

section Stuck
variable (a : Archive) (r : Run)

structure Misled (p : Play) : Prop where
  missing : ¬ Copied a p.host
  sign : p.regs.installed = true ∨ a.unpacked p.host.extracted = true
  unchanged : p.regs.downloadChanged = false
  nothing : p.regs.extractedDir.getD [] = []

theorem exec_rest {t : Task} (rest : t ∈ .setVersion :: .createDir :: configTasks)
    (fault : Option Residue) (p : Play) :
    (exec a r t fault p).state.regs = p.regs ∧
      (exec a r t fault p).state.host.extracted = p.host.extracted := by
  have same : ∀ act : Residue → Play → Play,
      (∀ done, (act done p).regs = p.regs ∧ (act done p).host.extracted = p.host.extracted) →
      (partly fault act p).state.regs = p.regs ∧
        (partly fault act p).state.host.extracted = p.host.extracted := fun act kept =>
    partly_state (fun q => q.regs = p.regs ∧ q.host.extracted = p.host.extracted) kept
  cases t with
  | createDir =>
    simp only [exec]
    split
    · refine same _ fun done => ?_
      split_ifs <;> exact ⟨rfl, rfl⟩
    · exact ⟨rfl, rfl⟩
  | createConfig =>
    simp only [exec]
    split
    · cases p.host.installDir with
      | none => exact ⟨rfl, rfl⟩
      | some dir =>
        refine same _ fun done => ?_
        split_ifs <;> exact ⟨rfl, rfl⟩
    · exact ⟨rfl, rfl⟩
  | setVersion | createTmp | configureNginx | setPermissions =>
    simp only [exec]
    split
    · exact same _ fun _ => ⟨rfl, rfl⟩
    · exact ⟨rfl, rfl⟩
  | _ => exact absurd rest (by decide)

theorem rest_misled {t : Task} (rest : t ∈ .setVersion :: .createDir :: configTasks)
    (fault : Option Residue) (p : Play) (misled : Misled a p) :
    Misled a (exec a r t fault p).state := by
  have notCopy : ∀ t ∈ Task.setVersion :: .createDir :: configTasks, t ≠ .copyFiles := by decide
  obtain ⟨regs, tree⟩ := exec_rest a r rest fault p
  refine ⟨?_, ?_, ?_, ?_⟩
  · rw [exec_copied_iff a r (notCopy t rest)]
    exact misled.missing
  · rw [regs, tree]
    exact misled.sign
  · rw [regs]
    exact misled.unchanged
  · rw [regs]
    exact misled.nothing

theorem exec_misled {t : Task} (later : t ≠ .checkInstalled) (fault : Option Residue) (p : Play)
    (misled : Misled a p) : Misled a (exec a r t fault p).state := by
  cases t with
  | checkInstalled => contradiction
  | unarchive =>
    simp only [exec]
    split_ifs with absent whole
    · exact partly_state (Misled a) fun _ => ⟨misled.missing, misled.sign, rfl, misled.nothing⟩
    · -- nothing is unpacked anew: the run has seen an installation or a whole tree
      rcases misled.sign with seen | unpacked
      · simp [seen] at absent
      · exact absurd unpacked whole
    · exact ⟨misled.missing, misled.sign, rfl, misled.nothing⟩
  | findExtracted =>
    simp only [exec, misled.unchanged, Bool.and_false]
    exact ⟨misled.missing, misled.sign, misled.unchanged, rfl⟩
  | initFiles =>
    simp only [exec]
    split
    · exact partly_state (Misled a) fun _ =>
        ⟨misled.missing, misled.sign, misled.unchanged, rfl⟩
    · exact misled
  | copyFiles | removeExtracted =>
    simp only [exec, misled.nothing]
    split <;> exact misled
  | setVersion | createDir | createConfig | createTmp | configureNginx | setPermissions =>
    exact rest_misled a r (by decide) fault p misled

theorem run_stuck {h : Host} (stuck : Stuck a h) : ¬ Copied a (run a r h).state := by
  rw [run, Outcome.state_map, roleTasks]
  cases checked : exec a r .checkInstalled (r.faults .checkInstalled) (start h) with
  | failed p =>
    rw [runTasks_cons_failed (exec a r) r.faults checked]
    have same := exec_copied_iff a r (t := .checkInstalled) (by decide)
      (r.faults .checkInstalled) (start h)
    rw [checked] at same
    exact fun copied => stuck.1 (same.mp copied)
  | ok p =>
    rw [runTasks_cons_ok (exec a r) r.faults checked]
    have seen : p = setRegs (fun g => { g with installed := (h.files indexPhp).isSome })
        (start h) := by
      simp only [exec, partly] at checked
      split at checked
      · exact (Outcome.ok.inj checked).symm
      · cases checked
    have misled : Misled a p := by
      rw [seen]
      exact ⟨stuck.1, stuck.2, rfl, rfl⟩
    have others : ∀ t ∈ installTasks ++ configTasks, t ≠ .checkInstalled := by decide
    exact (runTasks_preserves (exec a r) r.faults (Misled a) (installTasks ++ configTasks)
      (fun t listed q misled => exec_misled a r (others t listed) _ q misled) p misled).missing

end Stuck

section Completed
variable (a : Archive) {r : Run} (installing : r.phpmyadminInstall = true)
include installing

theorem createConfig_ok {fault : Option Residue} {p q : Play}
    (ok : exec a r .createConfig fault p = .ok q) :
    ∃ dir, q.host.installDir = some dir ∧ (dir configIncPhp).isSome = true := by
  simp only [exec, installing, if_true] at ok
  cases here : p.host.installDir with
  | none =>
    rw [here] at ok
    cases ok
  | some dir =>
    rw [here] at ok
    simp only [partly] at ok
    split at ok
    · rw [← Outcome.ok.inj ok]
      exact ⟨_, rfl, by rw [write_self]; rfl⟩
    · cases ok

theorem tailTask_ok {t : Task} (tail : t ∈ [Task.createTmp, .configureNginx, .setPermissions])
    {fault : Option Residue} {p q : Play} (ok : exec a r t fault p = .ok q) : q = p := by
  have unfolded : exec a r t fault p = partly fault (fun _ p => p) p := by
    simp only [List.mem_cons, List.not_mem_nil, or_false] at tail
    rcases tail with rfl | rfl | rfl <;> simp only [exec, installing, if_true]
  rw [unfolded] at ok
  simp only [partly] at ok
  split at ok
  · exact (Outcome.ok.inj ok).symm
  · cases ok

theorem completed_config {h h' : Host} (ok : run a r h = .ok h') :
    ∃ dir, h'.installDir = some dir ∧ (dir configIncPhp).isSome = true := by
  obtain ⟨last, ran, rfl⟩ := Outcome.map_eq_ok.mp ok
  have split : roleTasks = (.checkInstalled :: installTasks) ++ configTasks := rfl
  rw [split, runTasks_append_eq_ok] at ran
  obtain ⟨p, -, ran⟩ := ran
  obtain ⟨q, config, ran⟩ := (runTasks_cons_eq_ok (exec a r) r.faults).mp ran
  refine runTasks_ok_keeps (exec a r) r.faults
    (fun q => ∃ dir, q.host.installDir = some dir ∧ (dir configIncPhp).isSome = true)
    (fun t listed q q' there step => ?_) (createConfig_ok a installing config) ran
  rw [tailTask_ok a installing listed step]
  exact there

theorem completed_complete_iff_copied {h h' : Host} (ok : run a r h = .ok h') :
    Complete a h' ↔ Copied a h' := by
  obtain ⟨dir, here, config⟩ := completed_config a installing ok
  have files : h'.files = dir := by rw [Host.files, here, Option.getD_some]
  constructor
  · rintro ⟨dir', here', all⟩ p listed other
    have same : dir' = dir := Option.some.inj (here'.symm.trans here)
    rw [files, ← same]
    exact (all p listed).resolve_right fun isConfig => other isConfig.1
  · intro copied
    refine ⟨dir, here, fun p listed => ?_⟩
    by_cases isConfig : p = configIncPhp
    · subst isConfig
      exact .inr ⟨rfl, config⟩
    · left
      rw [← files]
      exact copied p listed isConfig

/-- A run that completes leaves every file in place exactly when the glob reaches them
all and the run did not start on a stuck host. -/
theorem completed_complete_iff {h h' : Host} (clean : NoHidden h) (ok : run a r h = .ok h') :
    Complete a h' ↔ Plain a ∧ ¬ Stuck a h := by
  rw [completed_complete_iff_copied a installing ok]
  have state : (run a r h).state = h' := by rw [ok, Outcome.state_ok]
  constructor
  · intro copied
    refine ⟨plain_of_copied a ?_ copied, fun stuck => ?_⟩
    · rw [← state]
      exact run_noHidden a r h clean
    · refine run_stuck a r stuck ?_
      rw [state]
      exact copied
  · rintro ⟨plain, sound⟩
    obtain ⟨last, ran, rfl⟩ := Outcome.map_eq_ok.mp ok
    have meets := run_meets a r installing plain sound
    rw [ran] at meets
    exact meets

theorem run_sound {h : Host} (plain : Plain a) (notCut : ¬ CutShort r) (sound : ¬ Stuck a h) :
    ¬ Stuck a (run a r h).state := by
  have meets := run_meets a r installing plain sound
  rw [run, Outcome.state_map]
  exact meets.state (fun q => not_stuck_of_copied a) fun q left => left.resolve_left notCut

end Completed

section Runs
variable (a : Archive)

theorem freshHost_noHidden : NoHidden freshHost := fun _ _ => rfl

theorem freshHost_sound : ¬ Stuck a freshHost := by
  rintro ⟨-, index | whole⟩
  · cases index
  · cases whole

/-- From a fresh host, every run that completes leaves every file of the archive in place
exactly when the glob reaches them all and no run that completes starts on a stuck host.
Runs that fail anywhere but on the way of the files never leave such a host. -/
theorem completed_runs_install_iff (rs : List Run)
    (installing : ∀ r ∈ rs, r.phpmyadminInstall = true) :
    (EveryCompleted (run a) (Complete a) freshHost rs ↔
      EveryRun (run a) (fun r h => (run a r h).completed = true → Plain a ∧ ¬ Stuck a h)
        freshHost rs) ∧
    (Plain a → (∀ r ∈ rs, ¬ CutShort r) → EveryCompleted (run a) (Complete a) freshHost rs) := by
  have exact_iff : EveryCompleted (run a) (Complete a) freshHost rs ↔
      EveryRun (run a) (fun r h => (run a r h).completed = true → Plain a ∧ ¬ Stuck a h)
        freshHost rs :=
    everyCompleted_iff (run a) NoHidden (run_noHidden a)
      (fun r listed _ _ clean ok => completed_complete_iff a (installing r listed) clean ok)
      freshHost freshHost_noHidden
  refine ⟨exact_iff, fun plain notCut => exact_iff.mpr ?_⟩
  have cond : EveryRun (run a) (fun r _ => r.phpmyadminInstall = true ∧ ¬ CutShort r)
      freshHost rs :=
    EveryRun.of_forall (run a) (fun r listed _ => ⟨installing r listed, notCut r listed⟩) freshHost
  exact EveryRun.of_invariant (run a) (fun h => ¬ Stuck a h)
    (fun r h sound run => run_sound a run.1 plain run.2 sound)
    (fun r h sound _ _ => ⟨plain, sound⟩) freshHost rs (freshHost_sound a) cond

end Runs

section Examples

def exampleArchive : Archive where
  paths := [["index.php"], ["libraries", "classes", "Core.php"]]
  text p := p.foldr (· ++ ·) ""

def runFailing (tasks : List Task) : Run where
  phpmyadminInstall := true
  phpmyadminVersion := "5.2.1"
  config := "<?php"
  faults t := if t ∈ tasks then some fun _ => false else none

theorem failed_permissions_recovered :
    (run exampleArchive (runFailing []) (run exampleArchive (runFailing [.setPermissions])
        freshHost).state).completed = true ∧
      EveryCompleted (run exampleArchive) (Complete exampleArchive) freshHost
        [runFailing [.setPermissions], runFailing []] := by
  refine ⟨by decide, (completed_runs_install_iff exampleArchive _ ?_).2 ?_ ?_⟩
  · simp [runFailing]
  · unfold Plain
    decide
  · simp [CutShort, runFailing]

/-- The search for the unpacked tree fails; the next run completes and has copied
nothing. -/
theorem nothing_copied_after_failed_find :
    ¬ ∀ (a : Archive) (rs : List Run), (∀ r ∈ rs, r.phpmyadminInstall = true) →
      EveryCompleted (run a) (Complete a) freshHost rs := by
  intro all
  have complete := (all exampleArchive [runFailing [.findExtracted], runFailing []]
    (by simp [runFailing])).2.1 _ rfl
  obtain ⟨dir, here, files⟩ := complete
  have index := files ["index.php"] (by decide)
  revert index
  rw [← Option.some.inj here]
  decide

end Examples

end LempStack.PhpMyAdminInstall
