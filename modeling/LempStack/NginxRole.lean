import LempStack.PlayRun
import LempStack.SiteTemplates

/-! The tasks of the nginx role on a host: the packages, the ModSecurity block with
its chain of registered results, and the sites. The files of the block are kept apart
from those of the sites; no site is taken to lie on them, and nothing to stand in their
way. A template is a function of its destination, or of the website it is rendered for,
and fails when the directory of the destination is missing. What else the file system
does not take is an input: the obstacles of a host are the destinations of the sites
whose directory is missing or where something of another kind stands. Symbolic links on
the way to a root are left out. -/

namespace LempStack.NginxRole
open PlayRun SiteTemplates

def modsecurityPackages : List String :=
  ["libmodsecurity3", "libmodsecurity-dev", "nginx-module-modsecurity"]

-- the packages, `modsecurity-crs` and its `crs-setup.conf`, the directory `modsecurity`, its
-- `modsecurity.conf`, and `conf.d/modsecurity.conf`
structure ModsecFiles where
  package : String → Bool
  checkout : Bool
  crsSetup : Bool
  dir : Bool
  conf : Option String
  enabled : Option String

structure DirAttrs where
  owner : String
  group : String
  mode : String
  deriving DecidableEq, Repr

abbrev Dir := List (List Char)

/-- One component of a path: empty ones and `.` say nothing, `..` goes up. -/
def enter (dir : Dir) (name : List Char) : Dir :=
  if name = [] ∨ name = ['.'] then dir
  else if name = ['.', '.'] then dir.dropLast
  else dir ++ [name]

def origin (workDir : Dir) (path : String) : Dir :=
  if path.toList.head? = some '/' then [] else workDir

def components (path : String) : List (List Char) := path.toList.splitOn '/'

/-- The directories a path goes through, the last one being the one it names. -/
def way (workDir : Dir) (path : String) : List Dir :=
  (components path).scanl enter (origin workDir path)

def dirOf (workDir : Dir) (path : String) : Dir :=
  (components path).foldl enter (origin workDir path)

-- files of `sites-available` and links of `sites-enabled` by name, directories with their
-- attributes, the `index.html` of a directory, and the destinations that cannot be taken
structure SiteFiles where
  nginxConf : Option String
  sitesAvailable : Bool
  sitesEnabled : Bool
  available : String → Option String
  link : String → Option String
  root : Dir → Option DirAttrs
  index : Dir → Option String
  obstacle : String → Bool

-- `confDir`: the package has made `/etc/nginx/conf.d`
structure Host where
  confDir : Bool
  modsec : ModsecFiles
  sites : SiteFiles

-- the last three are what the templates render to: by destination, `vhost.conf.j2` and
-- `index.html.j2` for a website
structure Vars where
  nginxInstallModsecurity : Bool
  nginxDefaultSiteEnabled : Bool
  websites : Option (List Website)
  workDir : Dir
  render : String → String
  vhost : Website → String
  testPage : Website → String

inductive Result where
  | skipped
  | failed
  | done (changed : Bool)
  deriving DecidableEq, Repr

def Result.success : Result → Bool
  | failed => false
  | _ => true

def Result.changed : Result → Bool
  | done changed => changed
  | _ => false

structure Registers where
  modsecurityInstalled : Result
  crsCloned : Result
  modsecurityDirCreated : Result
  modsecurityConfCreated : Result
  websiteRootCreated : Result
  deriving DecidableEq, Repr

structure Play where
  host : Host
  regs : Registers

inductive Task where
  | addKey
  | addRepo
  | updateCache
  | installNginx
  | installModsecurity
  | cloneCrs
  | copyCrsSetup
  | createModsecurityDir
  | createModsecurityConf
  | enableModsecurity
  | createNginxConf
  | ensureSitesAvailable
  | ensureSitesEnabled
  | createDefaultSite
  | enableDefaultSite
  | createSites
  | enableSites
  | createRoots
  | createIndex
  | startNginx
  deriving DecidableEq, Repr

abbrev Residue := String → Bool

abbrev Faults := Task → Option Residue

section Block
variable (v : Vars)

def setModsec (f : ModsecFiles → ModsecFiles) (p : Play) : Play :=
  { p with host := { p.host with modsec := f p.host.modsec } }

def allInstalled (m : ModsecFiles) : Bool := modsecurityPackages.all m.package

def blockExec (t : Task) (fault : Option Residue) (p : Play) : Outcome Play :=
  let m := p.host.modsec
  let r := p.regs
  match t with
  | .installModsecurity =>
    match fault with
    | none => .ok (setModsec (fun m => { m with package := fun _ => true })
        { p with regs := { r with modsecurityInstalled := .done (!allInstalled m) } })
    -- `ignore_errors: yes`
    | some done => .ok (setModsec (fun m => { m with package := fun n => m.package n || done n })
        { p with regs := { r with modsecurityInstalled := .failed } })
  | .cloneCrs =>
    if r.modsecurityInstalled.success then
      attempt fault "/etc/nginx/modsecurity-crs" (fun p => .ok
        (setModsec (fun m => { m with checkout := true })
          { p with regs := { r with crsCloned := .done (!m.checkout) } })) p
    else .ok { p with regs := { r with crsCloned := .skipped } }
  | .copyCrsSetup =>
    if r.crsCloned.changed then
      if m.checkout then
        attempt fault "/etc/nginx/modsecurity-crs/crs-setup.conf"
          (fun p => .ok (setModsec (fun m => { m with crsSetup := true }) p)) p
      else .failed p
    else .ok p
  | .createModsecurityDir =>
    if r.modsecurityInstalled.success then
      attempt fault "/etc/nginx/modsecurity" (fun p => .ok
        (setModsec (fun m => { m with dir := true })
          { p with regs := { r with modsecurityDirCreated := .done (!m.dir) } })) p
    else .ok { p with regs := { r with modsecurityDirCreated := .skipped } }
  | .createModsecurityConf =>
    let path := "/etc/nginx/modsecurity/modsecurity.conf"
    if r.modsecurityDirCreated.success then
      if m.dir then
        attempt fault path (fun p => .ok
          (setModsec (fun m => { m with conf := some (v.render path) })
            { p with regs := { r with
                modsecurityConfCreated := .done (m.conf != some (v.render path)) } })) p
      else .failed p
    else .ok { p with regs := { r with modsecurityConfCreated := .skipped } }
  | .enableModsecurity =>
    let path := "/etc/nginx/conf.d/modsecurity.conf"
    if r.modsecurityConfCreated.success then
      if p.host.confDir then
        attempt fault path
          (fun p => .ok (setModsec (fun m => { m with enabled := some (v.render path) }) p)) p
      else .failed p
    else .ok p
  | _ => .ok p

end Block

section Sites
variable (v : Vars)

def availablePath (name : String) : String := "/etc/nginx/sites-available/" ++ name

def enabledPath (name : String) : String := "/etc/nginx/sites-enabled/" ++ name

def setAvailable (name text : String) (s : SiteFiles) : SiteFiles :=
  { s with available := fun n => if n = name then some text else s.available n }

def setLink (name : String) (s : SiteFiles) : SiteFiles :=
  { s with link := fun n => if n = name then some (availablePath name) else s.link n }

def wwwData : DirAttrs := ⟨"www-data", "www-data", "0755"⟩

def rootWay (item : Website) : List Dir := way v.workDir item.root

def rootDir (item : Website) : Dir := dirOf v.workDir item.root

def rootThere (s : SiteFiles) (item : Website) : Bool :=
  (rootWay v item).all fun d => (s.root d).isSome

def rootReady (s : SiteFiles) (item : Website) : Bool :=
  rootThere v s item && s.root (rootDir v item) == some wwwData

/-- `state: directory` makes what is missing on the way, with the attributes, and sets those
of the last directory. -/
def setRoot (item : Website) (s : SiteFiles) : SiteFiles :=
  { s with root := fun d =>
      if d = rootDir v item ∨ (d ∈ rootWay v item ∧ s.root d = none) then some wwwData
      else s.root d }

def setIndex (item : Website) (s : SiteFiles) : SiteFiles :=
  { s with index := fun d => if d = rootDir v item then some (v.testPage item) else s.index d }

def pagePath (item : Website) : String := item.root ++ "/index.html"

def SiteFiles.free (s : SiteFiles) (path : String) : Bool := path != "" && !s.obstacle path

/-- A write that needs something to be there and its destination to be free. -/
def into (there : Bool) (path : String) (f : SiteFiles → SiteFiles) (s : SiteFiles) :
    Outcome SiteFiles :=
  if there && s.free path then .ok (f s) else .failed s

def items : List Website := v.websites.getD []

def createSite (item : Website) (s : SiteFiles) : Outcome SiteFiles :=
  into s.sitesAvailable (availablePath item.name) (setAvailable item.name (v.vhost item)) s

/-- `state: link` without `force` fails where the file it points to is missing. -/
def enableSite (name : String) (s : SiteFiles) : Outcome SiteFiles :=
  into (s.sitesEnabled && (s.available name).isSome) (enabledPath name) (setLink name) s

def siteExec (t : Task) (fault : Option Residue) (rootsChanged : Bool) (s : SiteFiles) :
    Outcome SiteFiles :=
  match t with
  | .createNginxConf => attempt fault "/etc/nginx/nginx.conf" (into true "/etc/nginx/nginx.conf"
      fun s => { s with nginxConf := some (v.render "/etc/nginx/nginx.conf") }) s
  | .ensureSitesAvailable => attempt fault "/etc/nginx/sites-available"
      (into true "/etc/nginx/sites-available" fun s => { s with sitesAvailable := true }) s
  | .ensureSitesEnabled => attempt fault "/etc/nginx/sites-enabled"
      (into true "/etc/nginx/sites-enabled" fun s => { s with sitesEnabled := true }) s
  | .createDefaultSite =>
    if v.nginxDefaultSiteEnabled then
      attempt fault "default" (fun s => into s.sitesAvailable (availablePath "default")
        (setAvailable "default" (v.render (availablePath "default"))) s) s
    else .ok s
  | .enableDefaultSite =>
    if v.nginxDefaultSiteEnabled then attempt fault "default" (enableSite "default") s
    else .ok s
  | .createSites => withItems (fun item => attempt fault item.name (createSite v item)) (items v) s
  | .enableSites =>
    withItems (fun item => attempt fault item.name (enableSite item.name)) (items v) s
  | .createRoots => withItems (fun item => attempt fault item.root
      fun s => into true item.root (setRoot v item) s) (items v) s
  | .createIndex =>
    if rootsChanged then
      withItems (fun item => attempt fault item.root
        fun s => into (rootThere v s item) (pagePath item) (setIndex v item) s) (items v) s
    else .ok s
  | _ => attempt fault "" .ok s

/-- The loop over the roots is changed when one of its items is, at its turn. -/
def rootsChanged : List Website → SiteFiles → Bool
  | [], _ => false
  | item :: rest, s => !rootReady v s item || rootsChanged rest (setRoot v item s)

end Sites

section Role
variable (v : Vars)

def inBlock : Task → Bool
  | .installModsecurity | .cloneCrs | .copyCrsSetup | .createModsecurityDir
  | .createModsecurityConf | .enableModsecurity => true
  | _ => false

def exec (t : Task) (fault : Option Residue) (p : Play) : Outcome Play :=
  if inBlock t then
    if v.nginxInstallModsecurity then blockExec v t fault p else .ok p
  else
    match t with
    | .installNginx => attempt fault "nginx"
        (fun p => .ok { p with host := { p.host with confDir := true } }) p
    | .createRoots => (siteExec v t fault false p.host.sites).map fun s =>
        ⟨{ p.host with sites := s },
          { p.regs with websiteRootCreated := .done (rootsChanged v (items v) p.host.sites) }⟩
    | _ => (siteExec v t fault p.regs.websiteRootCreated.changed p.host.sites).map fun s =>
        { p with host := { p.host with sites := s } }

def packageTasks : List Task := [.addKey, .addRepo, .updateCache, .installNginx]

def blockTasks : List Task :=
  [.installModsecurity, .cloneCrs, .copyCrsSetup, .createModsecurityDir, .createModsecurityConf,
    .enableModsecurity]

def siteTasks : List Task :=
  [.createNginxConf, .ensureSitesAvailable, .ensureSitesEnabled, .createDefaultSite,
    .enableDefaultSite, .createSites, .enableSites, .createRoots, .createIndex, .startNginx]

def roleTasks : List Task := packageTasks ++ (blockTasks ++ siteTasks)

def noRegisters : Registers := ⟨.skipped, .skipped, .skipped, .skipped, .skipped⟩

def start (h : Host) : Play := ⟨h, noRegisters⟩

end Role

structure Run where
  vars : Vars
  faults : Faults

def run (r : Run) (h : Host) : Outcome Host :=
  (runTasks (exec r.vars) r.faults roleTasks (start h)).map Play.host

section Frame
variable (v : Vars)

theorem exec_other_modsec (t : Task) (fault : Option Residue) (p : Play)
    (other : inBlock t = false) :
    (exec v t fault p).state.host.modsec = p.host.modsec := by
  unfold exec
  rw [if_neg (by simp [other])]
  cases t with
  | installNginx =>
    cases fault with
    | none => rfl
    | some done =>
      simp only [attempt, Outcome.state_failed]
      split_ifs <;> rfl
  | _ => first | exact absurd other (by decide) | simp only [Outcome.state_map]

theorem exec_plain_ok {t : Task} (plain : t = .addKey ∨ t = .addRepo ∨ t = .updateCache)
    {fault : Option Residue} {p q : Play} (ok : exec v t fault p = .ok q) :
    fault = none ∧ q = p := by
  have unfolded : exec v t fault p = (attempt fault "" .ok p.host.sites).map fun s =>
      { p with host := { p.host with sites := s } } := by
    rcases plain with rfl | rfl | rfl <;> rfl
  rw [unfolded] at ok
  obtain ⟨s, done, rfl⟩ := Outcome.map_eq_ok.mp ok
  obtain ⟨faultless, same⟩ := attempt_eq_ok.mp done
  exact ⟨faultless, by rw [← Outcome.ok.inj same]⟩

theorem packageTasks_ok {faults : Faults} {h : Host} {p : Play}
    (ok : runTasks (exec v) faults packageTasks (start h) = .ok p) :
    (∀ t ∈ packageTasks, faults t = none) ∧ p = start { h with confDir := true } := by
  simp only [packageTasks, runTasks_cons_eq_ok, runTasks_nil, Outcome.ok.injEq] at ok
  obtain ⟨p₁, d₁, p₂, d₂, p₃, d₃, p₄, d₄, rfl⟩ := ok
  obtain ⟨f₁, e₁⟩ := exec_plain_ok v (.inl rfl) d₁
  obtain ⟨f₂, e₂⟩ := exec_plain_ok v (.inr (.inl rfl)) d₂
  obtain ⟨f₃, e₃⟩ := exec_plain_ok v (.inr (.inr rfl)) d₃
  rw [e₃, e₂, e₁] at d₄
  have installed : exec v .installNginx (faults .installNginx) (start h) =
      attempt (faults .installNginx) "nginx"
        (fun p => .ok { p with host := { p.host with confDir := true } }) (start h) := rfl
  rw [installed, attempt_eq_ok] at d₄
  exact ⟨by simp [packageTasks, f₁, f₂, f₃, d₄.1], (Outcome.ok.inj d₄.2).symm⟩

theorem tasks_outside_modsec (faults : Faults) {ts : List Task}
    (outside : ∀ t ∈ ts, inBlock t = false) (p : Play) :
    (runTasks (exec v) faults ts p).state.host.modsec = p.host.modsec := by
  refine runTasks_preserves (exec v) faults (fun q => q.host.modsec = p.host.modsec) ts
    (fun t listed q same => ?_) p rfl
  rw [exec_other_modsec v t (faults t) q (outside t listed), same]

/-- What a run leaves of the block's files is what its block leaves, where it comes to it. -/
theorem run_modsec (r : Run) (h : Host) :
    (run r h).state.modsec = h.modsec ∨
      (∀ t ∈ packageTasks, r.faults t = none) ∧ (run r h).state.modsec =
        (runTasks (exec r.vars) r.faults blockTasks
          (start { h with confDir := true })).state.host.modsec := by
  rw [run, Outcome.state_map, roleTasks, runTasks_append]
  cases packaged : runTasks (exec r.vars) r.faults packageTasks (start h) with
  | failed p =>
    left
    have outside : ∀ t ∈ packageTasks, inBlock t = false := by decide
    have same := tasks_outside_modsec r.vars r.faults outside (start h)
    rw [packaged] at same
    exact same
  | ok p =>
    right
    obtain ⟨faultless, rfl⟩ := packageTasks_ok r.vars packaged
    refine ⟨faultless, ?_⟩
    simp only [runTasks_append]
    cases blocked : runTasks (exec r.vars) r.faults blockTasks
        (start { h with confDir := true }) with
    | failed q => rfl
    | ok q => exact tasks_outside_modsec r.vars r.faults (by decide) q

end Frame

end LempStack.NginxRole
