import LempStack.SitePages

/-! What runs of the nginx role leave of its sites. A run that completes has rendered the
last website of each name, links all of them to their files, and leaves the sites of other
names as they were, so that over a history nothing is ever disabled; and no run, wherever it
fails, leaves a link without its file that was not there before it. A run without faults,
made once more, changes nothing. -/

namespace LempStack.NginxSites
open PlayRun SiteTemplates NginxRole SitePages

section Completed
variable (v : Vars)

def Enables (n : String) : Prop :=
  (∃ item ∈ items v, item.name = n) ∨ v.nginxDefaultSiteEnabled = true ∧ n = "default"

/-- The text that a run leaves for a site: a website named `default` comes after the default
site. -/
def siteText (n : String) : Option String :=
  ((lastNamed (items v) n).map v.vhost).or
    (if v.nginxDefaultSiteEnabled ∧ n = "default" then some (v.render (availablePath "default"))
      else none)

theorem sitesAfter_link_isSome (s : SiteFiles) (n : String) :
    ((sitesAfter v s).link n).isSome = true ↔ (s.link n).isSome = true ∨ Enables v n := by
  simp only [sitesAfter, Enables, ← lastNamed_isSome]
  split_ifs with enabled
  · simp only [Option.isSome_some, enabled, or_true]
  · rw [or_iff_left enabled]

theorem sitesAfter_available (s : SiteFiles) (n : String) :
    (sitesAfter v s).available n = (siteText v n).or (s.available n) := by
  simp only [sitesAfter, siteText, Option.or_assoc]
  congr 1
  split_ifs <;> rfl

theorem sitesAfter_enabled (s : SiteFiles) {n : String} (enabled : Enables v n) :
    (sitesAfter v s).link n = some (availablePath n) ∧
      ((sitesAfter v s).available n).isSome = true := by
  rw [Enables, ← lastNamed_isSome] at enabled
  refine ⟨if_pos enabled, ?_⟩
  rw [sitesAfter_available, siteText]
  rcases enabled with named | ⟨wanted, rfl⟩
  · simp [named]
  · simp [wanted]

end Completed

section Links
variable (v : Vars)

def Dangles (s : SiteFiles) (n : String) : Prop :=
  s.link n = some (availablePath n) ∧ s.available n = none

def NoneNew (s r : SiteFiles) : Prop := ∀ n, Dangles r n → Dangles s n

theorem NoneNew.refl (s : SiteFiles) : NoneNew s s := fun _ => id

theorem NoneNew.trans {s t r : SiteFiles} (first : NoneNew s t) (next : NoneNew t r) :
    NoneNew s r := fun n dangles => first n (next n dangles)

theorem setAvailable_noneNew (name text : String) (s : SiteFiles) :
    NoneNew s (setAvailable name text s) := by
  intro n dangles
  obtain ⟨link, missing⟩ := dangles
  simp only [setAvailable] at missing
  split_ifs at missing
  exact ⟨link, missing⟩

theorem setLink_noneNew {name : String} {s : SiteFiles} (there : (s.available name).isSome = true) :
    NoneNew s (setLink name s) := by
  intro n dangles
  obtain ⟨link, missing⟩ := dangles
  have other : n ≠ name := by
    rintro rfl
    exact Option.isSome_iff_ne_none.mp there missing
  exact ⟨by simpa [setLink, other] using link, missing⟩

theorem into_noneNew {there : Bool} {path : String} {f : SiteFiles → SiteFiles} {s : SiteFiles}
    (acts : there = true → NoneNew s (f s)) : NoneNew s (into there path f s).state := by
  unfold into
  split_ifs with found
  · exact acts (Bool.and_eq_true_iff.mp found).1
  · exact NoneNew.refl s

theorem attempt_noneNew {fault : Option Residue} {i : String}
    {act : SiteFiles → Outcome SiteFiles} {s : SiteFiles} (acts : NoneNew s (act s).state) :
    NoneNew s (attempt fault i act s).state := by
  cases fault with
  | none => exact acts
  | some done =>
    simp only [attempt, Outcome.state_failed]
    split_ifs
    · exact acts
    · exact NoneNew.refl s

theorem withItems_noneNew {act : Website → SiteFiles → Outcome SiteFiles} {is : List Website}
    (each : ∀ i s, NoneNew s (act i s).state) (s : SiteFiles) :
    NoneNew s (withItems act is s).state :=
  withItems_preserves act (NoneNew s) (fun i _ before => before.trans (each i _)) is s
    (NoneNew.refl s)

theorem enableSite_noneNew (fault : Option Residue) (name : String) (s : SiteFiles) :
    NoneNew s (attempt fault name (enableSite name) s).state :=
  attempt_noneNew (into_noneNew fun found => setLink_noneNew (Bool.and_eq_true_iff.mp found).2)

theorem siteExec_noneNew (t : Task) (fault : Option Residue) (flag : Bool) (s : SiteFiles) :
    NoneNew s (siteExec v t fault flag s).state := by
  cases t with
  | createNginxConf | ensureSitesAvailable | ensureSitesEnabled =>
    exact attempt_noneNew (into_noneNew fun _ _ => id)
  | createDefaultSite =>
    simp only [siteExec]
    split_ifs
    · exact attempt_noneNew (into_noneNew fun _ => setAvailable_noneNew _ _ s)
    · exact NoneNew.refl s
  | enableDefaultSite =>
    simp only [siteExec]
    split_ifs
    · exact enableSite_noneNew fault "default" s
    · exact NoneNew.refl s
  | createSites =>
    exact withItems_noneNew (fun i s =>
      attempt_noneNew (into_noneNew fun _ => setAvailable_noneNew _ _ s)) s
  | enableSites => exact withItems_noneNew (fun i s => enableSite_noneNew fault i.name s) s
  | createRoots =>
    exact withItems_noneNew (fun i s => attempt_noneNew (into_noneNew fun _ _ => id)) s
  | createIndex =>
    simp only [siteExec]
    split_ifs
    · exact withItems_noneNew (fun i s => attempt_noneNew (into_noneNew fun _ _ => id)) s
    · exact NoneNew.refl s
  | _ => exact attempt_noneNew (NoneNew.refl s)

theorem exec_sites (t : Task) (fault : Option Residue) (p : Play) :
    (exec v t fault p).state.host.sites =
      (siteExec v t fault p.regs.websiteRootCreated.changed p.host.sites).state := by
  cases t with
  | createRoots =>
    simp only [exec, inBlock, Bool.false_eq_true, if_false, Outcome.state_map]
    rfl
  | installNginx =>
    cases fault with
    | none => rfl
    | some done =>
      simp only [exec, inBlock, Bool.false_eq_true, if_false, attempt, siteExec,
        Outcome.state_failed]
      split_ifs <;> rfl
  | installModsecurity | cloneCrs | copyCrsSetup | createModsecurityDir | createModsecurityConf
  | enableModsecurity =>
    simp only [exec, inBlock, if_true, blockExec, siteExec]
    cases fault <;> simp only [attempt] <;> split_ifs <;> rfl
  | _ => simp only [exec, inBlock, Bool.false_eq_true, if_false, Outcome.state_map]

theorem run_noneNew (r : Run) (h : Host) : NoneNew h.sites (run r h).state.sites := by
  rw [run, Outcome.state_map]
  refine runTasks_preserves (exec r.vars) r.faults (fun p => NoneNew h.sites p.host.sites)
    roleTasks (fun t _ p before => ?_) (start h) (NoneNew.refl h.sites)
  rw [exec_sites]
  exact before.trans (siteExec_noneNew r.vars t _ _ _)

/-- In every history of runs, with whatever faults, a link that dangles after a run dangled
before the history; and a run that completes leaves each of its sites with link and file. -/
theorem links_never_dangle (h : Host) (rs : List Run) :
    EveryRun run (fun r h' =>
      (∀ n, Dangles (run r h').state.sites n → Dangles h.sites n) ∧
        ((run r h').completed = true → ∀ n, Enables r.vars n →
          (run r h').state.sites.link n = some (availablePath n) ∧
            ((run r h').state.sites.available n).isSome = true)) h rs := by
  refine EveryRun.of_invariant run (fun h' => NoneNew h.sites h'.sites) (C := fun _ _ => True)
    (fun r h' before _ => before.trans (run_noneNew r h')) (fun r h' before _ => ⟨?_, ?_⟩) h rs
    (NoneNew.refl h.sites) (EveryRun.of_forall run (fun _ _ _ => trivial) h)
  · exact before.trans (run_noneNew r h')
  · intro completed n enabled
    rw [run_sites ((Outcome.completed_iff _).mp completed)]
    exact sitesAfter_enabled r.vars h'.sites enabled

end Links

section Histories

def hostAfter (h : Host) (rs : List Run) : Host := rs.foldl (fun h r => (run r h).state) h

def lastText (n : String) : List Run → Option String
  | [] => none
  | r :: rs => (lastText n rs).or (siteText r.vars n)

/-- After a history of runs that complete, the sites that are enabled are those that were at
its start and those that some run of it lists: a website dropped from the list stays enabled,
with the text of the last run that had it. -/
theorem dropped_sites_stay {h : Host} {rs : List Run}
    (completed : EveryRun run (fun r h => (run r h).completed = true) h rs) (n : String) :
    (((hostAfter h rs).sites.link n).isSome = true ↔
        (h.sites.link n).isSome = true ∨ ∃ r ∈ rs, Enables r.vars n) ∧
      (hostAfter h rs).sites.available n = (lastText n rs).or (h.sites.available n) := by
  induction rs generalizing h with
  | nil => exact ⟨by simp [hostAfter], rfl⟩
  | cons r rs ih =>
    obtain ⟨now, later⟩ := completed
    have sites : (run r h).state.sites = sitesAfter r.vars h.sites :=
      run_sites ((Outcome.completed_iff _).mp now)
    obtain ⟨links, texts⟩ := ih later
    constructor
    · rw [hostAfter, List.foldl_cons, ← hostAfter, links, sites, sitesAfter_link_isSome,
        List.exists_mem_cons_iff, or_assoc]
    · rw [hostAfter, List.foldl_cons, ← hostAfter, texts, sites, sitesAfter_available, lastText,
        Option.or_assoc]

theorem dropped_blog_stays :
    ((hostAfter shopHost [⟨varsFor [shop, blog], fun _ => none⟩,
      ⟨varsFor [shop], fun _ => none⟩]).sites.link "blog").isSome = true := by
  have completed : EveryRun run (fun r h => (run r h).completed = true) shopHost
      [⟨varsFor [shop, blog], fun _ => none⟩, ⟨varsFor [shop], fun _ => none⟩] :=
    ⟨by decide, by decide, trivial⟩
  refine (dropped_sites_stay completed "blog").1.mpr
    (.inr ⟨_, List.mem_cons_self, .inl ⟨blog, ?_, rfl⟩⟩)
  exact List.mem_cons_of_mem shop List.mem_cons_self

end Histories

section Convergence
variable (v : Vars)

theorem foldl_setRoot_ready {is : List Website} {s : SiteFiles}
    (ready : ∀ item ∈ is, rootReady v s item = true) :
    is.foldl (fun s item => setRoot v item s) s = s := by
  refine List.foldlRecOn (motive := fun r : SiteFiles => r = s) is _ rfl
    fun r same item listed => ?_
  rw [same, setRoot_ready v (ready item listed)]

theorem sitesAfter_ready (s : SiteFiles) :
    ∀ item ∈ items v, rootReady v (sitesAfter v s) item = true :=
  fun _ listed => setRoots_ready v listed s

theorem sitesAfter_settled (s : SiteFiles) : rootsToChange v (sitesAfter v s) = false := by
  rw [rootsToChange, List.any_eq_false]
  intro item listed
  rw [sitesAfter_ready v s item listed]
  decide

theorem sitesAfter_sitesAfter (s : SiteFiles) : sitesAfter v (sitesAfter v s) = sitesAfter v s := by
  have available : (sitesAfter v (sitesAfter v s)).available = (sitesAfter v s).available := by
    funext n
    simp only [sitesAfter]
    cases lastNamed (items v) n with
    | some last => rfl
    | none =>
      rw [Option.map_none, Option.none_or, Option.none_or]
      split_ifs <;> rfl
  have link : (sitesAfter v (sitesAfter v s)).link = (sitesAfter v s).link := by
    funext n
    simp only [sitesAfter]
    split_ifs <;> rfl
  have root : (sitesAfter v (sitesAfter v s)).root = (sitesAfter v s).root := by
    change ((items v).foldl (fun s item => setRoot v item s) (sitesAfter v s)).root = _
    rw [foldl_setRoot_ready v (sitesAfter_ready v s)]
  have index : (sitesAfter v (sitesAfter v s)).index = (sitesAfter v s).index := by
    funext d
    exact if_neg (by rw [sitesAfter_settled]; decide)
  calc sitesAfter v (sitesAfter v s)
      = ⟨some (v.render "/etc/nginx/nginx.conf"), true, true,
          (sitesAfter v (sitesAfter v s)).available, (sitesAfter v (sitesAfter v s)).link,
          (sitesAfter v (sitesAfter v s)).root, (sitesAfter v (sitesAfter v s)).index,
          s.obstacle⟩ := rfl
    _ = sitesAfter v s := by rw [available, link, root, index]; rfl

theorem modsecAfter_modsecAfter (m : ModsecFiles) :
    modsecAfter v (modsecAfter v m) = modsecAfter v m := by
  unfold modsecAfter
  split_ifs
  · simp only [Bool.not_true, Bool.or_false]
  · rfl

theorem siteTask_confDir {t : Task} (listed : t ∈ siteTasks) {fault : Option Residue} {p q : Play}
    (ok : exec v t fault p = .ok q) : q.host.confDir = p.host.confDir := by
  by_cases roots : t = .createRoots
  · subst roots
    obtain ⟨s, -, rfl⟩ := Outcome.map_eq_ok.mp ok
    rfl
  · have outside : ∀ t ∈ siteTasks, inBlock t = false ∧ t ≠ .installNginx := by decide
    rw [exec_onSites v (outside t listed).1 (outside t listed).2 roots] at ok
    obtain ⟨s, -, rfl⟩ := Outcome.map_eq_ok.mp ok
    rfl

theorem undisturbed_run {h : Host} (free : Unobstructed v h.sites) :
    run ⟨v, fun _ => none⟩ h = .ok ⟨true, modsecAfter v h.modsec, sitesAfter v h.sites⟩ := by
  obtain ⟨regs, ran⟩ := undisturbed_run_eq v h
  obtain ⟨q, last⟩ :=
    (siteTasks_complete_iff v ⟨⟨true, modsecAfter v h.modsec, h.sites⟩, regs⟩).mpr free
  have ok : run ⟨v, fun _ => none⟩ h = .ok q.host := by
    rw [ran, last]
    rfl
  have confDir : q.host.confDir = true :=
    runTasks_ok_keeps (exec v) (fun _ => none) (fun q => q.host.confDir = true)
      (fun t listed p p' made step => (siteTask_confDir v listed step).trans made) rfl last
  have outside : ∀ t ∈ siteTasks, inBlock t = false := by decide
  have modsec := tasks_outside_modsec v (fun _ => none) outside
    ⟨⟨true, modsecAfter v h.modsec, h.sites⟩, regs⟩
  rw [last, Outcome.state_ok] at modsec
  have whole : q.host = ⟨q.host.confDir, q.host.modsec, q.host.sites⟩ := rfl
  rw [ok, whole, confDir, modsec, run_sites ok]

theorem unobstructed_again {s : SiteFiles} (free : Unobstructed v s) :
    Unobstructed v (sitesAfter v s) := by
  intro t site path target
  rw [sitesAfter_settled] at target
  by_cases pages : t = .createIndex
  · subst pages
    cases target
  · refine free t site path ?_
    rwa [targets_flag v pages]

end Convergence

end LempStack.NginxSites
