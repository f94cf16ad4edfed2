import LempStack.NginxRole

/-! The ModSecurity block over histories of runs. Two of its guards say less than they
seem to. A skipped task counts as a success, so after a failed package task the main
configuration is still written, into a directory that nobody made. And the copy of
`crs-setup.conf` waits for a change of the clone, which happens in one run only: when
that run ends between the two, the copy is never made and the rest goes on. -/

namespace LempStack.ModSecurityBlock
open PlayRun NginxRole

def Works (m : ModsecFiles) : Prop :=
  m.enabled.isSome = true → allInstalled m = true ∧ m.conf.isSome = true ∧ m.crsSetup = true

/-- A failed package task makes no later task of the block fail. -/
def Tolerant (r : Run) (h : Host) : Prop :=
  (r.faults .installModsecurity).isSome = true →
    (∀ t ∈ blockTasks, t ≠ .installModsecurity → r.faults t = none) →
    ∀ p, runTasks (exec r.vars) r.faults packageTasks (start h) = .ok p →
      (runTasks (exec r.vars) r.faults blockTasks p).completed = true

def Untouched (m : ModsecFiles) : Prop :=
  m.checkout = false ∧ m.crsSetup = false ∧ m.dir = false ∧ m.conf = none ∧ m.enabled = none

/-- The faults the block can bear: the package task fails alone only when the directory is
there already, and in the run that clones the rules neither the clone fails once it is
made nor the copy before it is. Faults of tasks that are skipped or not reached do not
count. -/
structure Fits (faults : Faults) (m : ModsecFiles) : Prop where
  package : (faults .installModsecurity).isSome = true →
    (∀ t ∈ blockTasks, t ≠ .installModsecurity → faults t = none) → m.dir = true
  clone : faults .installModsecurity = none → m.checkout = false →
    ∀ done, faults .cloneCrs = some done → done "/etc/nginx/modsecurity-crs" = false
  copy : faults .installModsecurity = none → faults .cloneCrs = none → m.checkout = false →
    ∀ done, faults .copyCrsSetup = some done →
      done "/etc/nginx/modsecurity-crs/crs-setup.conf" = true

structure Sound (m : ModsecFiles) : Prop where
  dir_ready : m.dir = true → allInstalled m = true ∧ m.checkout = true
  conf_in_dir : m.conf.isSome = true → m.dir = true
  enabled_conf : m.enabled.isSome = true → m.conf.isSome = true
  crs_complete : m.checkout = true → m.crsSetup = true

theorem Untouched.sound {m : ModsecFiles} (h : Untouched m) : Sound m := by
  obtain ⟨checkout, -, dir, conf, enabled⟩ := h
  constructor <;> simp [checkout, dir, conf, enabled]

theorem Sound.works {m : ModsecFiles} (h : Sound m) : Works m := by
  intro enabled
  have conf := h.enabled_conf enabled
  have ready := h.dir_ready (h.conf_in_dir conf)
  exact ⟨ready.1, conf, h.crs_complete ready.2⟩

section Stages
variable {v : Vars} {faults : Faults} {m₀ : ModsecFiles}

theorem exec_block (on : v.nginxInstallModsecurity = true) {t : Task} (listed : inBlock t = true)
    (fault : Option Residue) (p : Play) : exec v t fault p = blockExec v t fault p := by
  simp [exec, on, listed]

def Packaged (fault : Option Residue) (m₀ : ModsecFiles) (p : Play) : Prop :=
  Sound p.host.modsec ∧ p.host.modsec.checkout = m₀.checkout ∧
    (p.regs.modsecurityInstalled.success = true → fault = none ∧ allInstalled p.host.modsec = true)

structure Cloned (faults : Faults) (m₀ : ModsecFiles) (p : Play) : Prop where
  dir_ready : p.host.modsec.dir = true →
    allInstalled p.host.modsec = true ∧ p.host.modsec.checkout = true
  conf_in_dir : p.host.modsec.conf.isSome = true → p.host.modsec.dir = true
  enabled_conf : p.host.modsec.enabled.isSome = true → p.host.modsec.conf.isSome = true
  installed : p.regs.modsecurityInstalled.success = true →
    allInstalled p.host.modsec = true ∧ p.host.modsec.checkout = true
  complete : p.regs.crsCloned.changed = false → p.host.modsec.checkout = true →
    p.host.modsec.crsSetup = true
  new : p.regs.crsCloned.changed = true →
    faults .installModsecurity = none ∧ faults .cloneCrs = none ∧ m₀.checkout = false

def Copied (p : Play) : Prop :=
  Sound p.host.modsec ∧ (p.regs.modsecurityInstalled.success = true →
    allInstalled p.host.modsec = true ∧ p.host.modsec.checkout = true)

def DirMade (p : Play) : Prop :=
  Sound p.host.modsec ∧ p.regs.modsecurityDirCreated.success = true

def ConfMade (p : Play) : Prop :=
  Sound p.host.modsec ∧ p.host.modsec.conf.isSome = true

def SoundPlay (p : Play) : Prop := Sound p.host.modsec

theorem allInstalled_mono {m : ModsecFiles} {package : String → Bool}
    (more : ∀ n, m.package n = true → package n = true) (h : allInstalled m = true) :
    allInstalled { m with package := package } = true := by
  simp only [allInstalled, List.all_eq_true] at h ⊢
  exact fun n hn => more n (h n hn)

theorem Sound.morePackages {m : ModsecFiles} (h : Sound m) {package : String → Bool}
    (more : ∀ n, m.package n = true → package n = true) :
    Sound { m with package := package } :=
  ⟨fun dir => ⟨allInstalled_mono more (h.dir_ready dir).1, (h.dir_ready dir).2⟩, h.conf_in_dir,
    h.enabled_conf, h.crs_complete⟩

theorem installModsecurity_meets {p : Play} (fault : Option Residue)
    (sound : Sound p.host.modsec) (same : p.host.modsec.checkout = m₀.checkout) :
    (blockExec v .installModsecurity fault p).Meets (Packaged fault m₀) SoundPlay := by
  cases fault with
  | none =>
    exact ⟨sound.morePackages fun _ _ => rfl, same,
      fun _ => ⟨rfl, by simp [allInstalled, setModsec]⟩⟩
  | some done => exact ⟨sound.morePackages fun n h => by simp [h], same, nofun⟩

theorem cloneCrs_meets {p : Play} (h : Packaged (faults .installModsecurity) m₀ p)
    (fits : Fits faults m₀) :
    (blockExec v .cloneCrs (faults .cloneCrs) p).Meets (Cloned faults m₀) SoundPlay := by
  obtain ⟨sound, same, installed⟩ := h
  simp only [blockExec]
  split_ifs with success
  · obtain ⟨packaged, all⟩ := installed success
    have missing (absent : p.host.modsec.checkout = false) : m₀.checkout = false := by
      rw [← same, absent]
    cases failed : faults .cloneCrs with
    | none =>
      refine ⟨fun dir => ⟨all, rfl⟩, sound.conf_in_dir, sound.enabled_conf,
        fun _ => ⟨all, rfl⟩, ?_, ?_⟩
      · intro unchanged _
        exact sound.crs_complete (by simpa [Result.changed, setModsec] using unchanged)
      · intro changed
        exact ⟨packaged, failed, missing (by simpa [Result.changed, setModsec] using changed)⟩
    | some done =>
      simp only [attempt, Outcome.Meets]
      split_ifs with made
      · have present : p.host.modsec.checkout = true := by
          by_contra absent
          have notMade := fits.clone packaged (missing (by simpa using absent)) done failed
          simp [notMade] at made
        exact ⟨fun dir => ⟨(sound.dir_ready dir).1, rfl⟩, sound.conf_in_dir, sound.enabled_conf,
          fun _ => sound.crs_complete present⟩
      · exact sound
  · exact ⟨sound.dir_ready, sound.conf_in_dir, sound.enabled_conf,
      fun s => absurd s success, fun _ => sound.crs_complete,
      fun changed => absurd changed Bool.false_ne_true⟩

theorem copyCrsSetup_meets {p : Play} (h : Cloned faults m₀ p) (fits : Fits faults m₀) :
    (blockExec v .copyCrsSetup (faults .copyCrsSetup) p).Meets Copied SoundPlay := by
  have complete (setup : p.host.modsec.checkout = true → p.host.modsec.crsSetup = true) :
      Sound p.host.modsec := ⟨h.dir_ready, h.conf_in_dir, h.enabled_conf, setup⟩
  have copied : Sound { p.host.modsec with crsSetup := true } :=
    ⟨h.dir_ready, h.conf_in_dir, h.enabled_conf, fun _ => rfl⟩
  simp only [blockExec]
  split_ifs with changed checkout
  · refine attempt_meets ⟨copied, h.installed⟩ ?_
    intro done failed
    obtain ⟨packaged, cloned, missing⟩ := h.new changed
    rw [if_pos (fits.copy packaged cloned missing done failed)]
    exact copied
  · exact complete fun present => absurd present checkout
  · exact ⟨complete (h.complete (by simpa using changed)), h.installed⟩

theorem createModsecurityDir_meets {p : Play} (fault : Option Residue) (h : Copied p) :
    (blockExec v .createModsecurityDir fault p).Meets DirMade SoundPlay := by
  obtain ⟨sound, installed⟩ := h
  simp only [blockExec]
  split_ifs with success
  · have made : Sound { p.host.modsec with dir := true } :=
      ⟨fun _ => installed success, fun _ => rfl, sound.enabled_conf, sound.crs_complete⟩
    exact attempt_meets_either ⟨made, rfl⟩ made sound
  · exact ⟨sound, rfl⟩

theorem createModsecurityConf_meets {p : Play} (fault : Option Residue) (h : DirMade p) :
    (blockExec v .createModsecurityConf fault p).Meets ConfMade SoundPlay := by
  obtain ⟨sound, success⟩ := h
  simp only [blockExec, success, if_true]
  split_ifs with dir
  · have made (text : String) : Sound { p.host.modsec with conf := some text } :=
      ⟨sound.dir_ready, fun _ => dir, fun _ => rfl, sound.crs_complete⟩
    exact attempt_meets_either ⟨made _, rfl⟩ (made _) sound
  · exact sound

theorem enableModsecurity_meets {p : Play} (fault : Option Residue) (h : ConfMade p) :
    (blockExec v .enableModsecurity fault p).Meets SoundPlay SoundPlay := by
  obtain ⟨sound, conf⟩ := h
  simp only [blockExec]
  split_ifs
  · have made (text : String) : Sound { p.host.modsec with enabled := some text } :=
      ⟨sound.dir_ready, sound.conf_in_dir, fun _ => conf, sound.crs_complete⟩
    exact attempt_meets_either (made _) (made _) sound
  · exact sound
  · exact sound

theorem blockTasks_sound (on : v.nginxInstallModsecurity = true) (p : Play)
    (sound : Sound p.host.modsec) (fits : Fits faults p.host.modsec) :
    (runTasks (exec v) faults blockTasks p).Meets SoundPlay SoundPlay := by
  refine runTasks_cons_meets _ _
    (Packaged (faults .installModsecurity) p.host.modsec) ?_ fun p₁ h₁ => ?_
  · rw [exec_block on rfl]
    exact installModsecurity_meets _ sound rfl
  refine runTasks_cons_meets _ _ (Cloned faults p.host.modsec) ?_ fun p₂ h₂ => ?_
  · rw [exec_block on rfl]
    exact cloneCrs_meets h₁ fits
  refine runTasks_cons_meets _ _ Copied ?_ fun p₃ h₃ => ?_
  · rw [exec_block on rfl]
    exact copyCrsSetup_meets h₂ fits
  refine runTasks_cons_meets _ _ DirMade ?_ fun p₄ h₄ => ?_
  · rw [exec_block on rfl]
    exact createModsecurityDir_meets _ h₃
  refine runTasks_cons_meets _ _ ConfMade ?_ fun p₅ h₅ => ?_
  · rw [exec_block on rfl]
    exact createModsecurityConf_meets _ h₄
  refine runTasks_cons_meets _ _ SoundPlay ?_ fun p₆ h₆ => h₆
  rw [exec_block on rfl]
  exact enableModsecurity_meets _ h₅

theorem blockTasks_tolerant (on : v.nginxInstallModsecurity = true) {h : Host}
    (package : (faults .installModsecurity).isSome = true)
    (alone : ∀ t ∈ blockTasks, t ≠ .installModsecurity → faults t = none)
    (dir : h.modsec.dir = true) :
    (runTasks (exec v) faults blockTasks (start { h with confDir := true })).completed = true := by
  obtain ⟨done, failed⟩ := Option.isSome_iff_exists.mp package
  have conf := alone .createModsecurityConf (by decide) (by decide)
  have enable := alone .enableModsecurity (by decide) (by decide)
  simp [blockTasks, runTasks, exec, inBlock, on, blockExec, failed, conf, enable,
    attempt, Result.success, Result.changed, setModsec, start, noRegisters, dir]

end Stages

/-- The runs of the law: the block is wanted, and its faults are bearable if it is reached. -/
def RunFits (r : Run) (h : Host) : Prop :=
  r.vars.nginxInstallModsecurity = true ∧
    ((∀ t ∈ packageTasks, r.faults t = none) → Fits r.faults h.modsec)

theorem run_sound (r : Run) (h : Host) (sound : Sound h.modsec) (fits : RunFits r h) :
    Sound (run r h).state.modsec := by
  rcases run_modsec r h with same | ⟨reached, block⟩
  · rw [same]
    exact sound
  · rw [block]
    exact (blockTasks_sound fits.1 _ sound (fits.2 reached)).state (fun _ => id) (fun _ => id)

theorem run_tolerant (r : Run) (h : Host) (fits : RunFits r h) : Tolerant r h := by
  intro package alone p packaged
  obtain ⟨reached, rfl⟩ := packageTasks_ok r.vars packaged
  exact blockTasks_tolerant fits.1 package alone ((fits.2 reached).package package alone)

/-- From a host without the block's files, in every history whose runs fit, a failed
package task is tolerated and ModSecurity is enabled only with all it needs. -/
theorem modsecurity_enabled_only_working (h : Host) (untouched : Untouched h.modsec)
    (rs : List Run) (fits : EveryRun run RunFits h rs) :
    EveryRun run (fun r h => Tolerant r h ∧ Works (run r h).state.modsec) h rs := by
  refine EveryRun.of_invariant run (fun h => Sound h.modsec) run_sound ?_ h rs
    untouched.sound fits
  exact fun r h sound fit => ⟨run_tolerant r h fit, (run_sound r h sound fit).works⟩

def exampleVars : Vars where
  nginxInstallModsecurity := true
  nginxDefaultSiteEnabled := true
  websites := none
  workDir := []
  render path := path
  vhost item := item.name
  testPage item := item.name

def runFailing (tasks : List Task) : Run :=
  ⟨exampleVars, fun t => if t ∈ tasks then some fun _ => false else none⟩

def bareHost : Host where
  confDir := false
  modsec := ⟨fun _ => false, false, false, false, none, none⟩
  sites := ⟨none, false, false, fun _ => none, fun _ => none, fun _ => none, fun _ => none,
    fun _ => false⟩

theorem bareHost_untouched : Untouched bareHost.modsec := ⟨rfl, rfl, rfl, rfl, rfl⟩

theorem package_failure_tolerated_later :
    EveryRun run (fun r h => Tolerant r h ∧ Works (run r h).state.modsec) bareHost
      [runFailing [], runFailing [.installModsecurity]] := by
  refine modsecurity_enabled_only_working bareHost bareHost_untouched _
    ⟨⟨rfl, fun _ => ?_⟩, ⟨rfl, fun _ => ?_⟩, trivial⟩
  · exact ⟨nofun, nofun, nofun⟩
  · exact ⟨fun _ _ => by decide, nofun, nofun⟩

/-- On a bare host a failed package task ends the run at the main configuration; and
a copy that fails right after the clone is never made up for. -/
theorem block_breaks_down :
    (¬ ∀ h : Host, Untouched h.modsec → ∀ rs : List Run,
      (∀ r ∈ rs, r.vars.nginxInstallModsecurity = true) → EveryRun run Tolerant h rs) ∧
    ¬ ∀ h : Host, Untouched h.modsec → ∀ rs : List Run,
      (∀ r ∈ rs, r.vars.nginxInstallModsecurity = true) →
      EveryRun run (fun r h => Works (run r h).state.modsec) h rs := by
  constructor
  · intro all
    have tolerant := (all bareHost bareHost_untouched [runFailing [.installModsecurity]]
      (by simp [runFailing, exampleVars])).1
    have completed := tolerant rfl (by decide) _ rfl
    revert completed
    decide
  · intro all
    have works := (all bareHost bareHost_untouched [runFailing [.copyCrsSetup], runFailing []]
      (by simp [runFailing, exampleVars])).2.1
    have setup := (works (by decide)).2.2
    revert setup
    decide

end LempStack.ModSecurityBlock
