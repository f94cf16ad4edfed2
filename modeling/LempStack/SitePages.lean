import LempStack.NginxRole

/-! What a run of the nginx role does to the sites, and to their front pages. A run that
completes leaves a state that depends on its variables alone. The loop over the roots
registers one result for all of them, and the loop over the pages looks at that result,
so a single root that is new or has other attributes has every page of the list written,
those of sites long deployed as well. -/

namespace LempStack.SitePages
open PlayRun SiteTemplates NginxRole

section Effects
variable (v : Vars)

theorem into_ok {there : Bool} {path : String} {f : SiteFiles → SiteFiles} {s r : SiteFiles} :
    into there path f s = .ok r ↔ (there = true ∧ s.free path = true) ∧ r = f s := by
  unfold into
  cases there <;> cases s.free path <;> simp [eq_comm]

def siteEffect (t : Task) (flag : Bool) (s : SiteFiles) : SiteFiles :=
  match t with
  | .createNginxConf => { s with nginxConf := some (v.render "/etc/nginx/nginx.conf") }
  | .ensureSitesAvailable => { s with sitesAvailable := true }
  | .ensureSitesEnabled => { s with sitesEnabled := true }
  | .createDefaultSite =>
    if v.nginxDefaultSiteEnabled then
      setAvailable "default" (v.render (availablePath "default")) s
    else s
  | .enableDefaultSite => if v.nginxDefaultSiteEnabled then setLink "default" s else s
  | .createSites => (items v).foldl (fun s item => setAvailable item.name (v.vhost item) s) s
  | .enableSites => (items v).foldl (fun s item => setLink item.name s) s
  | .createRoots => (items v).foldl (fun s item => setRoot v item s) s
  | .createIndex => if flag then (items v).foldl (fun s item => setIndex v item s) s else s
  | _ => s

theorem siteExec_ok {t : Task} {fault : Option Residue} {flag : Bool} {s r : SiteFiles}
    (ok : siteExec v t fault flag s = .ok r) : r = siteEffect v t flag s := by
  cases t with
  | createNginxConf | ensureSitesAvailable | ensureSitesEnabled =>
    exact (into_ok.mp (attempt_eq_ok.mp ok).2).2
  | createDefaultSite | enableDefaultSite =>
    simp only [siteExec, siteEffect] at ok ⊢
    split_ifs at ok ⊢
    · exact (into_ok.mp (attempt_eq_ok.mp ok).2).2
    · exact (Outcome.ok.inj ok).symm
  | createSites =>
    exact withItems_eq_foldl (fun i : Website => setAvailable i.name (v.vhost i))
      (fun i _ s s' step => (into_ok.mp (attempt_eq_ok.mp step).2).2) ok
  | enableSites =>
    exact withItems_eq_foldl (fun i : Website => setLink i.name)
      (fun i _ s s' step => (into_ok.mp (attempt_eq_ok.mp step).2).2) ok
  | createRoots =>
    exact withItems_eq_foldl (fun i => setRoot v i)
      (fun i _ s s' step => (into_ok.mp (attempt_eq_ok.mp step).2).2) ok
  | createIndex =>
    simp only [siteExec, siteEffect] at ok ⊢
    split_ifs at ok ⊢
    · exact withItems_eq_foldl (fun i => setIndex v i)
        (fun i _ s s' step => (into_ok.mp (attempt_eq_ok.mp step).2).2) ok
    · exact (Outcome.ok.inj ok).symm
  | _ =>
    simp only [siteExec] at ok
    exact (Outcome.ok.inj (attempt_eq_ok.mp ok).2).symm

theorem blockExec_sites {t : Task} {fault : Option Residue} {p q : Play}
    (ok : blockExec v t fault p = .ok q) : q.host.sites = p.host.sites := by
  cases t with
  | installModsecurity => cases fault <;> cases ok <;> rfl
  | cloneCrs | copyCrsSetup | createModsecurityDir | createModsecurityConf | enableModsecurity =>
    simp only [blockExec] at ok
    split_ifs at ok
    · rw [← Outcome.ok.inj (attempt_eq_ok.mp ok).2]
      rfl
    · rw [← Outcome.ok.inj ok]
  | _ =>
    rw [← Outcome.ok.inj ok]

theorem exec_onSites {t : Task} (block : inBlock t = false) (package : t ≠ .installNginx)
    (notRoots : t ≠ .createRoots) (fault : Option Residue) (p : Play) :
    exec v t fault p =
      (siteExec v t fault p.regs.websiteRootCreated.changed p.host.sites).map fun s =>
        { p with host := { p.host with sites := s } } := by
  unfold exec
  rw [if_neg (by simp [block])]
  cases t <;> first | rfl | contradiction

theorem exec_ok_sites {t : Task} {fault : Option Residue} {p q : Play}
    (ok : exec v t fault p = .ok q) :
    q.host.sites = siteEffect v t p.regs.websiteRootCreated.changed p.host.sites := by
  cases block : inBlock t with
  | true =>
    have idle : siteEffect v t p.regs.websiteRootCreated.changed p.host.sites = p.host.sites := by
      cases t <;> first | rfl | cases block
    rw [idle]
    simp only [exec, block, if_true] at ok
    split_ifs at ok
    · exact blockExec_sites v ok
    · rw [← Outcome.ok.inj ok]
  | false =>
    by_cases package : t = .installNginx
    · subst package
      simp only [exec, block, Bool.false_eq_true, if_false] at ok
      rw [← Outcome.ok.inj (attempt_eq_ok.mp ok).2]
      rfl
    · by_cases roots : t = .createRoots
      · subst roots
        obtain ⟨s, done, rfl⟩ := Outcome.map_eq_ok.mp ok
        exact siteExec_ok v done
      · rw [exec_onSites v block package roots] at ok
        obtain ⟨s, done, rfl⟩ := Outcome.map_eq_ok.mp ok
        exact siteExec_ok v done

end Effects

section Roots
variable (v : Vars)

def rootsToChange (s : SiteFiles) : Bool := (items v).any fun item => !rootReady v s item

theorem rootReady_iff {s : SiteFiles} {item : Website} :
    rootReady v s item = true ↔ (∀ d ∈ rootWay v item, (s.root d).isSome = true) ∧
      s.root (rootDir v item) = some wwwData := by
  simp [rootReady, rootThere]

theorem setRoot_ready {item : Website} {s : SiteFiles} (ready : rootReady v s item = true) :
    setRoot v item s = s := by
  obtain ⟨there, attrs⟩ := (rootReady_iff v).mp ready
  have same : (setRoot v item s).root = s.root := by
    funext d
    simp only [setRoot]
    split_ifs with own
    · rcases own with rfl | ⟨onWay, missing⟩
      · exact attrs.symm
      · exact absurd missing (Option.isSome_iff_ne_none.mp (there d onWay))
    · rfl
  exact congrArg (fun root => { s with root := root }) same

/-- Up to the first root that changes the loop leaves all as it was, so its result
can be told beforehand. -/
theorem rootsChanged_eq (is : List Website) (s : SiteFiles) :
    rootsChanged v is s = is.any fun item => !rootReady v s item := by
  induction is with
  | nil => rfl
  | cons item rest ih =>
    rw [rootsChanged, List.any_cons]
    cases ready : rootReady v s item with
    | true => rw [setRoot_ready v ready, ih]
    | false => simp

theorem setRoot_makes (item : Website) (s : SiteFiles) :
    rootReady v (setRoot v item s) item = true := by
  rw [rootReady_iff]
  constructor
  · intro d onWay
    simp only [setRoot]
    split_ifs with own
    · rfl
    · simp only [onWay, true_and, not_or] at own
      exact Option.isSome_iff_ne_none.mpr own.2
  · simp [setRoot]

theorem setRoot_keeps {item : Website} (other : Website) {s : SiteFiles}
    (ready : rootReady v s item = true) : rootReady v (setRoot v other s) item = true := by
  obtain ⟨there, attrs⟩ := (rootReady_iff v).mp ready
  rw [rootReady_iff]
  constructor
  · intro d onWay
    simp only [setRoot]
    split_ifs
    · rfl
    · exact there d onWay
  · simp only [setRoot]
    split_ifs
    · rfl
    · exact attrs

theorem setRoots_ready {is : List Website} {item : Website} (listed : item ∈ is) (s : SiteFiles) :
    rootReady v (is.foldl (fun s item => setRoot v item s) s) item = true := by
  obtain ⟨before, after, rfl⟩ := List.append_of_mem listed
  rw [List.foldl_append, List.foldl_cons]
  exact List.foldlRecOn (motive := fun r => rootReady v r item = true) after _
    (setRoot_makes v item _) fun _ ready other _ => setRoot_keeps v other ready

theorem foldl_setRoot (is : List Website) {s t : SiteFiles} (same : t.root = s.root) :
    is.foldl (fun s item => setRoot v item s) t =
      { t with root := (is.foldl (fun s item => setRoot v item s) s).root } := by
  induction is generalizing s t with
  | nil =>
    rw [List.foldl_nil, List.foldl_nil, ← same]
  | cons item rest ih =>
    have next : (setRoot v item t).root = (setRoot v item s).root := by
      simp only [setRoot, same]
    rw [List.foldl_cons, List.foldl_cons, ih next]
    rfl

end Roots

section Loops
variable (v : Vars)

def lastNamed (is : List Website) (n : String) : Option Website :=
  is.reverse.find? fun item => item.name = n

def lastAt (is : List Website) (d : Dir) : Option Website :=
  is.reverse.find? fun item => rootDir v item = d

theorem lastNamed_isSome {is : List Website} {n : String} :
    (lastNamed is n).isSome = true ↔ ∃ item ∈ is, item.name = n := by
  simp [lastNamed]

theorem mem_of_find_reverse {is : List Website} {p : Website → Bool} {other : Website}
    (last : is.reverse.find? p = some other) : other ∈ is ∧ p other = true :=
  ⟨List.mem_reverse.mp (List.mem_of_find?_eq_some last), List.find?_some last⟩

theorem lastNamed_mem {is : List Website} {n : String} {other : Website}
    (last : lastNamed is n = some other) : other ∈ is ∧ other.name = n := by
  simpa using mem_of_find_reverse last

theorem lastAt_mem {is : List Website} {d : Dir} {other : Website}
    (last : lastAt v is d = some other) : other ∈ is ∧ rootDir v other = d := by
  simpa using mem_of_find_reverse last

theorem lastAt_isSome {is : List Website} {item : Website} (listed : item ∈ is) :
    ∃ other, lastAt v is (rootDir v item) = some other := by
  rw [← Option.isSome_iff_exists, lastAt, List.find?_isSome]
  exact ⟨item, List.mem_reverse.mpr listed, by simp⟩

theorem foldl_update {κ β : Type} [DecidableEq κ] (key : Website → κ) (value : Website → β)
    (is : List Website) (m : κ → Option β) (k : κ) :
    is.foldl (fun m item k => if k = key item then some (value item) else m k) m k =
      ((is.reverse.find? fun item => key item = k).map value).or (m k) := by
  induction is generalizing m with
  | nil => rfl
  | cons item rest ih =>
    rw [List.foldl_cons, ih, List.reverse_cons, List.find?_append]
    cases rest.reverse.find? fun item => key item = k with
    | some last => rfl
    | none =>
      by_cases own : key item = k
      · simp [own]
      · simp [own, Ne.symm own]

theorem foldl_setAvailable (is : List Website) (s : SiteFiles) :
    is.foldl (fun s item => setAvailable item.name (v.vhost item) s) s =
      { s with available := fun n => ((lastNamed is n).map v.vhost).or (s.available n) } := by
  have loop : is.foldl (fun s item => setAvailable item.name (v.vhost item) s) s =
      { s with available := is.foldl (fun m item n =>
          if n = item.name then some (v.vhost item) else m n) s.available } := by
    induction is generalizing s with
    | nil => rfl
    | cons item rest ih => rw [List.foldl_cons, ih, List.foldl_cons]; rfl
  rw [loop]
  congr 1
  funext n
  exact foldl_update Website.name v.vhost is s.available n

theorem foldl_setLink (is : List Website) (s : SiteFiles) :
    is.foldl (fun s item => setLink item.name s) s =
      { s with link := fun n =>
          if (lastNamed is n).isSome then some (availablePath n) else s.link n } := by
  have loop : is.foldl (fun s item => setLink item.name s) s =
      { s with link := is.foldl (fun m item n =>
          if n = item.name then some (availablePath item.name) else m n) s.link } := by
    induction is generalizing s with
    | nil => rfl
    | cons item rest ih => rw [List.foldl_cons, ih, List.foldl_cons]; rfl
  rw [loop]
  congr 1
  funext n
  rw [foldl_update Website.name (fun item => availablePath item.name), ← lastNamed]
  cases last : lastNamed is n with
  | none => rfl
  | some item =>
    have own : item.name = n := by simpa using List.find?_some last
    simp [own]

theorem foldl_setIndex (is : List Website) (s : SiteFiles) :
    is.foldl (fun s item => setIndex v item s) s =
      { s with index := fun d => ((lastAt v is d).map v.testPage).or (s.index d) } := by
  have loop : is.foldl (fun s item => setIndex v item s) s =
      { s with index := is.foldl (fun m item d =>
          if d = rootDir v item then some (v.testPage item) else m d) s.index } := by
    induction is generalizing s with
    | nil => rfl
    | cons item rest ih => rw [List.foldl_cons, ih, List.foldl_cons]; rfl
  rw [loop]
  congr 1
  funext d
  exact foldl_update (rootDir v) v.testPage is s.index d

end Loops

section Run
variable (v : Vars)

/-- What a run that completes leaves of the sites. -/
def sitesAfter (s : SiteFiles) : SiteFiles where
  nginxConf := some (v.render "/etc/nginx/nginx.conf")
  sitesAvailable := true
  sitesEnabled := true
  available n := ((lastNamed (items v) n).map v.vhost).or
    (if v.nginxDefaultSiteEnabled ∧ n = "default" then some (v.render (availablePath "default"))
      else s.available n)
  link n :=
    if (lastNamed (items v) n).isSome ∨ v.nginxDefaultSiteEnabled ∧ n = "default" then
      some (availablePath n)
    else s.link n
  root := ((items v).foldl (fun s item => setRoot v item s) s).root
  index d :=
    if rootsToChange v s then ((lastAt v (items v) d).map v.testPage).or (s.index d)
    else s.index d
  obstacle := s.obstacle

def earlierTasks : List Task :=
  packageTasks ++ (blockTasks ++
    [.createNginxConf, .ensureSitesAvailable, .ensureSitesEnabled, .createDefaultSite,
      .enableDefaultSite, .createSites, .enableSites])

theorem siteEffect_flag {t : Task} (other : t ≠ .createIndex) (flag : Bool) (s : SiteFiles) :
    siteEffect v t flag s = siteEffect v t false s := by
  cases t <;> first | rfl | exact absurd rfl other

theorem runTasks_sites {faults : Faults} {ts : List Task} (other : .createIndex ∉ ts) {p q : Play}
    (ok : runTasks (exec v) faults ts p = .ok q) :
    q.host.sites = ts.foldl (fun s t => siteEffect v t false s) p.host.sites := by
  induction ts generalizing p with
  | nil => rw [← Outcome.ok.inj ok]; rfl
  | cons t ts ih =>
    rw [List.mem_cons, not_or] at other
    obtain ⟨next, first, rest⟩ := (runTasks_cons_eq_ok _ _).mp ok
    rw [ih other.2 rest, exec_ok_sites v first, siteEffect_flag v (Ne.symm other.1),
      List.foldl_cons]

theorem earlier_effect (s : SiteFiles) :
    earlierTasks.foldl (fun s t => siteEffect v t false s) s =
      { sitesAfter v s with root := s.root, index := s.index } := by
  have tasks : earlierTasks = [.addKey, .addRepo, .updateCache, .installNginx,
    .installModsecurity, .cloneCrs, .copyCrsSetup, .createModsecurityDir, .createModsecurityConf,
    .enableModsecurity, .createNginxConf, .ensureSitesAvailable, .ensureSitesEnabled,
    .createDefaultSite, .enableDefaultSite, .createSites, .enableSites] := rfl
  rw [tasks]
  simp only [List.foldl_cons, List.foldl_nil, siteEffect, foldl_setAvailable, foldl_setLink,
    sitesAfter]
  cases v.nginxDefaultSiteEnabled with
  | false => simp only [Bool.false_eq_true, false_and, if_false, or_false]
  | true =>
    simp only [setAvailable, setLink, true_and, if_true]
    congr 1
    funext n
    by_cases named : (lastNamed (items v) n).isSome = true
    · simp only [named, if_true, true_or]
    · by_cases same : n = "default"
      · simp only [same, or_true, if_true, ite_self]
      · simp only [named, same, or_false, if_false]

theorem createRoots_flag {fault : Option Residue} {p q : Play}
    (ok : exec v .createRoots fault p = .ok q) :
    q.regs.websiteRootCreated.changed = rootsToChange v p.host.sites := by
  obtain ⟨s, -, rfl⟩ := Outcome.map_eq_ok.mp ok
  exact rootsChanged_eq v (items v) p.host.sites

/-- What a run that completes leaves of the sites does not depend on its faults. -/
theorem run_sites {r : Run} {h h' : Host} (ok : run r h = .ok h') :
    h'.sites = sitesAfter r.vars h.sites := by
  obtain ⟨last, ran, rfl⟩ := Outcome.map_eq_ok.mp ok
  have split : roleTasks = earlierTasks ++ [.createRoots, .createIndex, .startNginx] := rfl
  rw [split, runTasks_append_eq_ok] at ran
  obtain ⟨p, earlier, ran⟩ := ran
  simp only [runTasks_cons_eq_ok, runTasks_nil, Outcome.ok.injEq] at ran
  obtain ⟨p₁, roots, p₂, pages, p₃, started, rfl⟩ := ran
  have config : p.host.sites =
      { sitesAfter r.vars h.sites with root := h.sites.root, index := h.sites.index } :=
    (runTasks_sites r.vars (by decide) earlier).trans (earlier_effect r.vars h.sites)
  have flag : p₁.regs.websiteRootCreated.changed = rootsToChange r.vars h.sites := by
    rw [createRoots_flag r.vars roots, config]
    rfl
  have made : p₁.host.sites = { sitesAfter r.vars h.sites with index := h.sites.index } := by
    rw [exec_ok_sites r.vars roots, config]
    exact foldl_setRoot r.vars (items r.vars) rfl
  have written : p₂.host.sites = sitesAfter r.vars h.sites := by
    rw [exec_ok_sites r.vars pages, flag, made, siteEffect, foldl_setIndex]
    unfold sitesAfter
    split_ifs <;> rfl
  rw [exec_ok_sites r.vars started, written]
  rfl

end Run

section Completion
variable (v : Vars)

def targets (t : Task) (flag : Bool) : List String :=
  match t with
  | .createNginxConf => ["/etc/nginx/nginx.conf"]
  | .ensureSitesAvailable => ["/etc/nginx/sites-available"]
  | .ensureSitesEnabled => ["/etc/nginx/sites-enabled"]
  | .createDefaultSite => if v.nginxDefaultSiteEnabled then [availablePath "default"] else []
  | .enableDefaultSite => if v.nginxDefaultSiteEnabled then [enabledPath "default"] else []
  | .createSites => (items v).map fun item => availablePath item.name
  | .enableSites => (items v).map fun item => enabledPath item.name
  | .createRoots => (items v).map Website.root
  | .createIndex => if flag then (items v).map pagePath else []
  | _ => []

theorem targets_flag {t : Task} (other : t ≠ .createIndex) (flag : Bool) :
    targets v t flag = targets v t false := by
  cases t <;> first | rfl | exact absurd rfl other

/-- Nothing stands where a run without faults would write. -/
def Unobstructed (s : SiteFiles) : Prop :=
  ∀ t ∈ siteTasks, ∀ path ∈ targets v t (rootsToChange v s), s.free path = true

def Ready (t : Task) (s : SiteFiles) : Prop :=
  match t with
  | .createDefaultSite | .createSites => s.sitesAvailable = true
  | .enableDefaultSite => s.sitesEnabled = true ∧
      (v.nginxDefaultSiteEnabled = true → (s.available "default").isSome = true)
  | .enableSites =>
    s.sitesEnabled = true ∧ ∀ item ∈ items v, (s.available item.name).isSome = true
  | .createIndex => ∀ item ∈ items v, rootThere v s item = true
  | _ => True

theorem free_congr {s t : SiteFiles} (same : t.obstacle = s.obstacle) (path : String) :
    t.free path = s.free path := by
  rw [SiteFiles.free, SiteFiles.free, same]

theorem siteLoop_ok_iff {there : Website → SiteFiles → Bool} {path : Website → String}
    {write : Website → SiteFiles → SiteFiles} (N : SiteFiles → Prop) {s r : SiteFiles}
    (needs : N s) (found : ∀ item ∈ items v, ∀ s, N s → there item s = true)
    (keep : ∀ item s, N s → N (write item s))
    (obstacle : ∀ item s, (write item s).obstacle = s.obstacle) :
    withItems (fun item s => into (there item s) (path item) (write item) s) (items v) s = .ok r ↔
      (∀ target ∈ (items v).map path, s.free target = true) ∧
        r = (items v).foldl (fun s item => write item s) s := by
  rw [List.forall_mem_map]
  refine withItems_ok_iff (fun item => s.free (path item) = true) write
    (fun t => N t ∧ t.obstacle = s.obstacle) (fun item listed t inv r => ?_)
    (fun item _ t inv => ⟨keep item t inv.1, (obstacle item t).trans inv.2⟩) ⟨needs, rfl⟩
  rw [into_ok, free_congr inv.2, and_iff_right (found item listed t inv.1)]

theorem siteExec_ok_iff {t : Task} {flag : Bool} {s r : SiteFiles} (ready : Ready v t s) :
    siteExec v t none flag s = .ok r ↔
      (∀ path ∈ targets v t flag, s.free path = true) ∧ r = siteEffect v t flag s := by
  cases t with
  | createNginxConf | ensureSitesAvailable | ensureSitesEnabled =>
    simp [siteExec, attempt, into_ok, targets, siteEffect]
  | createDefaultSite =>
    have there : s.sitesAvailable = true := ready
    simp only [siteExec, attempt, targets, siteEffect]
    split_ifs
    · simp [into_ok, there]
    · simp only [List.not_mem_nil, false_implies, implies_true, true_and, Outcome.ok_eq_ok]
  | enableDefaultSite =>
    simp only [siteExec, attempt, targets, siteEffect, enableSite]
    split_ifs with wanted
    · simp [into_ok, ready.1, ready.2 wanted]
    · simp only [List.not_mem_nil, false_implies, implies_true, true_and, Outcome.ok_eq_ok]
  | createSites =>
    exact siteLoop_ok_iff v (fun s => s.sitesAvailable = true) ready (fun _ _ _ there => there)
      (fun _ _ there => there) fun _ _ => rfl
  | enableSites =>
    refine siteLoop_ok_iff v (Ready v .enableSites) ready (fun item listed s there => ?_)
      (fun _ _ there => there) fun _ _ => rfl
    rw [there.1, there.2 item listed]
    rfl
  | createRoots =>
    exact siteLoop_ok_iff v (fun _ => True) trivial (fun _ _ _ _ => rfl) (fun _ _ _ => trivial)
      fun _ _ => rfl
  | createIndex =>
    cases flag with
    | false =>
      simp only [siteExec, targets, siteEffect, Bool.false_eq_true, if_false, List.not_mem_nil,
        false_implies, implies_true, true_and, Outcome.ok_eq_ok]
    | true =>
      exact siteLoop_ok_iff v (Ready v .createIndex) ready (fun item listed _ there =>
        there item listed) (fun _ _ there => there) fun _ _ => rfl
  | _ =>
    simp only [siteExec, attempt, targets, siteEffect, List.not_mem_nil, false_implies,
      implies_true, true_and, Outcome.ok_eq_ok]

theorem exec_completes_iff {t : Task} (site : t ∈ siteTasks) {p : Play}
    (ready : Ready v t p.host.sites) :
    (∃ q, exec v t none p = .ok q) ↔
      ∀ path ∈ targets v t p.regs.websiteRootCreated.changed, p.host.sites.free path = true := by
  by_cases roots : t = .createRoots
  · subst roots
    have loop : exec v .createRoots none p = (siteExec v .createRoots none false p.host.sites).map
        fun s => ⟨{ p.host with sites := s },
          { p.regs with websiteRootCreated := .done (rootsChanged v (items v) p.host.sites) }⟩ :=
      rfl
    simp only [loop, Outcome.map_eq_ok, siteExec_ok_iff v ready]
    exact ⟨fun ⟨_, _, free, _⟩ => free.1, fun free => ⟨_, _, ⟨free, rfl⟩, rfl⟩⟩
  · have outside : ∀ t ∈ siteTasks, inBlock t = false ∧ t ≠ .installNginx := by decide
    rw [exec_onSites v (outside t site).1 (outside t site).2 roots]
    simp only [Outcome.map_eq_ok, siteExec_ok_iff v ready]
    exact ⟨fun ⟨_, _, free, _⟩ => free.1, fun free => ⟨_, _, ⟨free, rfl⟩, rfl⟩⟩

structure Prepared (s : SiteFiles) (p : Play) : Prop where
  available : p.host.sites.sitesAvailable = true
  enabled : p.host.sites.sitesEnabled = true
  root : p.host.sites.root = s.root
  obstacle : p.host.sites.obstacle = s.obstacle

def configTasks : List Task := [.createDefaultSite, .enableDefaultSite, .createSites, .enableSites]

theorem Prepared.exec {s : SiteFiles} {t : Task} (config : t ∈ configTasks)
    {fault : Option Residue} {p q : Play} (prepared : Prepared s p)
    (ok : exec v t fault p = .ok q) : Prepared s q := by
  obtain ⟨available, enabled, root, obstacle⟩ := prepared
  have effect := exec_ok_sites v ok
  simp only [configTasks, List.mem_cons, List.not_mem_nil, or_false] at config
  rcases config with rfl | rfl | rfl | rfl
  · simp only [siteEffect] at effect
    split_ifs at effect <;> constructor <;> simpa [effect, setAvailable]
  · simp only [siteEffect] at effect
    split_ifs at effect <;> constructor <;> simpa [effect, setLink]
  · constructor <;> simpa [effect, siteEffect, foldl_setAvailable]
  · constructor <;> simpa [effect, siteEffect, foldl_setLink]

theorem exec_completes_iff_free {s : SiteFiles} {t : Task} (site : t ∈ siteTasks) {p : Play}
    (ready : Ready v t p.host.sites) (obstacle : p.host.sites.obstacle = s.obstacle)
    (flag : t = .createIndex → p.regs.websiteRootCreated.changed = rootsToChange v s) :
    (∃ q, exec v t none p = .ok q) ↔
      ∀ path ∈ targets v t (rootsToChange v s), s.free path = true := by
  have same : targets v t p.regs.websiteRootCreated.changed = targets v t (rootsToChange v s) := by
    by_cases pages : t = .createIndex
    · rw [flag pages]
    · rw [targets_flag v pages, targets_flag v pages (rootsToChange v s)]
  simp only [exec_completes_iff v site ready, same, free_congr obstacle]

theorem createDefaultSite_there {fault : Option Residue} {p q : Play}
    (ok : exec v .createDefaultSite fault p = .ok q) (wanted : v.nginxDefaultSiteEnabled = true) :
    (q.host.sites.available "default").isSome = true := by
  simp [exec_ok_sites v ok, siteEffect, wanted, setAvailable]

theorem createSites_there {fault : Option Residue} {p q : Play}
    (ok : exec v .createSites fault p = .ok q) {item : Website} (listed : item ∈ items v) :
    (q.host.sites.available item.name).isSome = true := by
  have last := lastNamed_isSome.mpr ⟨item, listed, rfl⟩
  simp [exec_ok_sites v ok, siteEffect, foldl_setAvailable, last]

theorem createRoots_there {fault : Option Residue} {p q : Play}
    (ok : exec v .createRoots fault p = .ok q) {item : Website} (listed : item ∈ items v) :
    rootThere v q.host.sites item = true := by
  rw [exec_ok_sites v ok]
  exact (Bool.and_eq_true_iff.mp (setRoots_ready v listed p.host.sites)).1

theorem createRoots_obstacle {fault : Option Residue} {p q : Play}
    (ok : exec v .createRoots fault p = .ok q) :
    q.host.sites.obstacle = p.host.sites.obstacle := by
  rw [exec_ok_sites v ok, siteEffect, foldl_setRoot v (items v) rfl]

theorem Prepared.rootsToChange {s : SiteFiles} {p : Play} (prepared : Prepared s p) :
    rootsToChange v p.host.sites = SitePages.rootsToChange v s := by
  simp only [SitePages.rootsToChange, rootReady, rootThere, prepared.root]

/-- Every task on the sites finds what the tasks before it have made, and so goes through
where its destinations are free. -/
theorem siteTasks_complete_iff (p : Play) :
    (∃ q, runTasks (exec v) (fun _ => none) siteTasks p = .ok q) ↔
      Unobstructed v p.host.sites := by
  refine runTasks_completes_iff (exec v) (fun _ => none)
    (fun t => ∀ path ∈ targets v t (rootsToChange v p.host.sites),
      p.host.sites.free path = true) ?_
  have step {t : Task} (site : t ∈ siteTasks) {q : Play} (ready : Ready v t q.host.sites)
      (obstacle : q.host.sites.obstacle = p.host.sites.obstacle) (other : t ≠ .createIndex) :=
    exec_completes_iff_free v site ready obstacle (fun pages => absurd pages other)
  -- the main configuration and the two directories
  refine .cons _ _ (fun q => q.host.sites.root = p.host.sites.root ∧
      q.host.sites.obstacle = p.host.sites.obstacle)
    (step (by decide) trivial rfl (by decide)) (fun q done => ?_) fun p₁ ⟨root₁, obstacle₁⟩ => ?_
  · rw [exec_ok_sites v done]
    exact ⟨rfl, rfl⟩
  refine .cons _ _ (fun q => q.host.sites.sitesAvailable = true ∧
      q.host.sites.root = p.host.sites.root ∧ q.host.sites.obstacle = p.host.sites.obstacle)
    (step (by decide) trivial obstacle₁ (by decide)) (fun q done => ?_)
    fun p₂ ⟨available₂, root₂, obstacle₂⟩ => ?_
  · rw [exec_ok_sites v done]
    exact ⟨rfl, root₁, obstacle₁⟩
  refine .cons _ _ (Prepared p.host.sites) (step (by decide) trivial obstacle₂ (by decide))
    (fun q done => ?_) fun p₃ prep₃ => ?_
  · have effect := exec_ok_sites v done
    exact ⟨by rw [effect]; exact available₂, by rw [effect]; rfl, by rw [effect]; exact root₂,
      by rw [effect]; exact obstacle₂⟩
  -- the default site, then the websites: the file is there when its link is made
  refine .cons _ _ (fun q => Prepared p.host.sites q ∧ (v.nginxDefaultSiteEnabled = true →
      (q.host.sites.available "default").isSome = true))
    (step (by decide) prep₃.available prep₃.obstacle (by decide)) (fun q done => ?_)
    fun p₄ ⟨prep₄, there₄⟩ => ?_
  · exact ⟨prep₃.exec v (by decide) done, createDefaultSite_there v done⟩
  refine .cons _ _ (Prepared p.host.sites)
    (step (by decide) ⟨prep₄.enabled, there₄⟩ prep₄.obstacle (by decide))
    (fun q done => prep₄.exec v (by decide) done) fun p₅ prep₅ => ?_
  refine .cons _ _ (fun q => Prepared p.host.sites q ∧
      ∀ item ∈ items v, (q.host.sites.available item.name).isSome = true)
    (step (by decide) prep₅.available prep₅.obstacle (by decide)) (fun q done => ?_)
    fun p₆ ⟨prep₆, there₆⟩ => ?_
  · exact ⟨prep₅.exec v (by decide) done, fun _ listed => createSites_there v done listed⟩
  refine .cons _ _ (Prepared p.host.sites)
    (step (by decide) ⟨prep₆.enabled, there₆⟩ prep₆.obstacle (by decide))
    (fun q done => prep₆.exec v (by decide) done) fun p₇ prep₇ => ?_
  -- the roots are there for the pages, and the flag is the one told beforehand
  refine .cons _ _ (fun q => (∀ item ∈ items v, rootThere v q.host.sites item = true) ∧
      q.host.sites.obstacle = p.host.sites.obstacle ∧
      q.regs.websiteRootCreated.changed = rootsToChange v p.host.sites)
    (step (by decide) trivial prep₇.obstacle (by decide)) (fun q done => ?_)
    fun p₈ ⟨there₈, obstacle₈, flag₈⟩ => ?_
  · exact ⟨fun _ listed => createRoots_there v done listed,
      (createRoots_obstacle v done).trans prep₇.obstacle,
      (createRoots_flag v done).trans (prep₇.rootsToChange v)⟩
  refine .cons _ _ (fun q => q.host.sites.obstacle = p.host.sites.obstacle)
    (exec_completes_iff_free v (by decide) there₈ obstacle₈ fun _ => flag₈) (fun q done => ?_)
    fun p₉ obstacle₉ => ?_
  · rw [exec_ok_sites v done, siteEffect, foldl_setIndex]
    split_ifs
    · exact obstacle₈
    · exact obstacle₈
  exact ⟨step (by decide) trivial obstacle₉ (by decide), fun _ _ => trivial⟩

def modsecAfter (m : ModsecFiles) : ModsecFiles :=
  if v.nginxInstallModsecurity then
    ⟨fun _ => true, true, m.crsSetup || !m.checkout, true,
      some (v.render "/etc/nginx/modsecurity/modsecurity.conf"),
      some (v.render "/etc/nginx/conf.d/modsecurity.conf")⟩
  else m

theorem blockTasks_undisturbed (h : Host) :
    ∃ regs, runTasks (exec v) (fun _ => none) blockTasks (start { h with confDir := true }) =
      .ok ⟨⟨true, modsecAfter v h.modsec, h.sites⟩, regs⟩ := by
  cases wanted : v.nginxInstallModsecurity with
  | false =>
    exact ⟨noRegisters, by simp [blockTasks, runTasks, exec, inBlock, wanted, start, modsecAfter]⟩
  | true =>
    simp only [blockTasks, runTasks, exec, inBlock, wanted, if_true]
    cases cloned : h.modsec.checkout <;>
      simp [blockExec, attempt, setModsec, Result.success, Result.changed, start, cloned,
        modsecAfter, wanted]

theorem undisturbed_run_eq (h : Host) :
    ∃ regs, run ⟨v, fun _ => none⟩ h = (runTasks (exec v) (fun _ => none) siteTasks
      ⟨⟨true, modsecAfter v h.modsec, h.sites⟩, regs⟩).map Play.host := by
  have packaged : runTasks (exec v) (fun _ => none) packageTasks (start h) =
      .ok (start { h with confDir := true }) := rfl
  obtain ⟨regs, blocked⟩ := blockTasks_undisturbed v h
  refine ⟨regs, ?_⟩
  rw [run, roleTasks, runTasks_append, packaged]
  simp only [runTasks_append, blocked]

theorem undisturbed_completes_iff (h : Host) :
    (∃ h', run ⟨v, fun _ => none⟩ h = .ok h') ↔ Unobstructed v h.sites := by
  obtain ⟨regs, ran⟩ := undisturbed_run_eq v h
  rw [ran, ← siteTasks_complete_iff v ⟨⟨true, modsecAfter v h.modsec, h.sites⟩, regs⟩]
  simp only [Outcome.map_eq_ok]
  exact ⟨fun ⟨_, q, ok, _⟩ => ⟨q, ok⟩, fun ⟨q, ok⟩ => ⟨q.host, q, ok, rfl⟩⟩

end Completion

section Law
variable (v : Vars)

/-- The page of a website whose root is a directory with the role's attributes
stays as it was. -/
def PagesKept (s r : SiteFiles) : Prop :=
  ∀ item ∈ items v, rootReady v s item = true →
    ∀ page, s.index (rootDir v item) = some page → r.index (rootDir v item) = some page

/-- A website whose root is missing gets a test page, the one of a website of the
list at that root. -/
def PagesCreated (s r : SiteFiles) : Prop :=
  ∀ item ∈ items v, rootThere v s item = false →
    ∃ other ∈ items v, rootDir v other = rootDir v item ∧
      r.index (rootDir v item) = some (v.testPage other)

/-- The pages of the deployed websites are the test pages that would be written. -/
def PagesAreTestPages (s : SiteFiles) : Prop :=
  ∀ item ∈ items v, rootReady v s item = true →
    ∀ page, s.index (rootDir v item) = some page →
      (lastAt v (items v) (rootDir v item)).map v.testPage = some page

theorem run_index {r : Run} {h h' : Host} (ok : run r h = .ok h') (d : Dir) :
    h'.sites.index d =
      if rootsToChange r.vars h.sites then
        ((lastAt r.vars (items r.vars) d).map r.vars.testPage).or (h.sites.index d)
      else h.sites.index d := by
  rw [run_sites ok]
  rfl

theorem rootsToChange_of_missing {s : SiteFiles} {item : Website} (listed : item ∈ items v)
    (missing : rootThere v s item = false) : rootsToChange v s = true := by
  rw [rootsToChange, List.any_eq_true]
  exact ⟨item, listed, by simp [rootReady, missing]⟩

theorem run_pagesCreated {r : Run} {h h' : Host} (ok : run r h = .ok h') :
    PagesCreated r.vars h.sites h'.sites := by
  intro item listed missing
  obtain ⟨other, last⟩ := lastAt_isSome r.vars listed
  obtain ⟨otherListed, same⟩ := lastAt_mem r.vars last
  refine ⟨other, otherListed, same, ?_⟩
  rw [run_index ok, if_pos (rootsToChange_of_missing r.vars listed missing), last]
  rfl

theorem run_pagesKept_iff {r : Run} {h h' : Host} (ok : run r h = .ok h') :
    PagesKept r.vars h.sites h'.sites ↔
      rootsToChange r.vars h.sites = false ∨ PagesAreTestPages r.vars h.sites := by
  cases changes : rootsToChange r.vars h.sites with
  | false =>
    refine ⟨fun _ => .inl rfl, fun _ item _ _ page old => ?_⟩
    rw [run_index ok, changes]
    exact old
  | true =>
    have written : ∀ item ∈ items r.vars, h'.sites.index (rootDir r.vars item) =
        (lastAt r.vars (items r.vars) (rootDir r.vars item)).map r.vars.testPage := by
      intro item listed
      obtain ⟨other, last⟩ := lastAt_isSome r.vars listed
      rw [run_index ok, changes, last]
      rfl
    constructor
    · intro kept
      right
      intro item listed deployed page old
      rw [← written item listed]
      exact kept item listed deployed page old
    · rintro (unchanged | same) item listed deployed page old
      · cases unchanged
      · rw [written item listed]
        exact same item listed deployed page old

end Law

section Examples

def shop : Website := ⟨"shop", "shop.example", "/var/www/shop", none, none⟩

def blog : Website := ⟨"blog", "blog.example", "/var/www/blog", none, none⟩

def varsFor (websites : List Website) : Vars where
  nginxInstallModsecurity := false
  nginxDefaultSiteEnabled := true
  websites := some websites
  workDir := []
  render path := path
  vhost item := item.serverName
  testPage item := item.name

def shopHost : Host where
  confDir := true
  modsec := ⟨fun _ => false, false, false, false, none, none⟩
  sites := ⟨none, true, true, fun _ => none, fun _ => none,
    fun d => if d = dirOf [] "/var/www/shop" then some wwwData
      else if d.length < 3 then some ⟨"root", "root", "0755"⟩ else none,
    fun d => if d = dirOf [] "/var/www/shop" then some "welcome" else none, fun _ => false⟩

theorem shopHost_unobstructed : Unobstructed (varsFor [shop, blog]) shopHost.sites := by
  unfold Unobstructed
  decide

end Examples

end LempStack.SitePages
