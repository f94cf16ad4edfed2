import LempStack.SettledPlay
import LempStack.ConfigLoaded

/-! The roles run once more. A run that nothing disturbs leaves the host as the next such run
would; the texts of a run are given by their destinations, so this is about websites of
different names. The handler of Varnish does not ask whether Varnish is enabled. -/

namespace LempStack.RoleReruns
open PlayRun ServiceConfig SettledPlay RoleServices ConfigLoaded

section Agreement
variable (v : Vars)

def PmaApart : Prop :=
  ∀ name ∈ "default" :: v.websites,
    v.phpmyadminNginxConfigPath ≠ "/etc/nginx/sites-enabled/" ++ name

def Sorted (i : Item Service String String) : Prop :=
  (∃ name ∈ "default" :: v.websites, i = linkItem name) ∨
    i.content = v.render i.path ∧
      (i.service = .nginx → ∀ name ∈ "default" :: v.websites,
        i.path ≠ "/etc/nginx/sites-enabled/" ++ name)

theorem append_inj_right {base a b : String} (same : base ++ a = base ++ b) : a = b := by
  have lists := congrArg String.toList same
  rw [String.toList_append, String.toList_append] at lists
  exact String.toList_inj.mp (List.append_cancel_left lists)

theorem agreeing_of_sorted {is : List (Item Service String String)}
    (sorted : ∀ i ∈ is, Sorted v i) :
    Agreeing is := by
  intro i hi j hj ⟨service, path⟩
  rcases sorted i hi with ⟨a, la, rfl⟩ | ⟨ri, apart⟩ <;>
    rcases sorted j hj with ⟨b, lb, rfl⟩ | ⟨rj, apart'⟩
  · have same : a = b := append_inj_right path
    rw [same]
  · exact absurd path.symm (apart' service.symm a la)
  · exact absurd path (apart service b lb)
  · rw [ri, rj, path]

theorem sorted_link {name : String} (listed : name ∈ "default" :: v.websites) :
    Sorted v (linkItem name) :=
  .inl ⟨name, listed, rfl⟩

theorem ne_append_of_not_begins {base path : String}
    (free : base.toList.isPrefixOf path.toList = false) (name : String) : path ≠ base ++ name := by
  intro same
  have begins : base.toList <+: path.toList := by
    rw [same, String.toList_append]
    exact List.prefix_append _ _
  rw [← List.isPrefixOf_iff_prefix, free] at begins
  cases begins

theorem sorted_item {service : Service} {path : String}
    (free : service ≠ .nginx ∨ "/etc/nginx/sites-enabled/".toList.isPrefixOf path.toList = false) :
    Sorted v (item v service path) :=
  .inr ⟨rfl, fun nginx name _ =>
    ne_append_of_not_begins (free.resolve_left (absurd nginx)) name⟩

theorem available_free (name : String) :
    "/etc/nginx/sites-enabled/".toList.isPrefixOf
      ("/etc/nginx/sites-available/" ++ name).toList = false := by
  rw [String.toList_append]
  rfl

def Neat (b : Body Service String String Handler) : Prop := ∀ i ∈ b.writes, Sorted v i

theorem modsecurityTasks_neat : ∀ t ∈ modsecurityTasks v, Neat v t.body := by
  have conf : Sorted v (item v .nginx "/etc/nginx/modsecurity/modsecurity.conf") :=
    sorted_item v (.inr (by decide))
  have enabled : Sorted v (item v .nginx "/etc/nginx/conf.d/modsecurity.conf") :=
    sorted_item v (.inr (by decide))
  simp [modsecurityTasks, other, nginxWrite, Neat, Body.writes, conf, enabled]

theorem nginxTasks_neat : ∀ t ∈ nginxTasks v, Neat v t.body := by
  have block : ∀ t ∈ (if v.nginxInstallModsecurity then modsecurityTasks v else []),
      Neat v t.body := by
    split_ifs
    · exact modsecurityTasks_neat v
    · exact List.forall_mem_nil _
  have main : Sorted v (item v .nginx "/etc/nginx/nginx.conf") := sorted_item v (.inr (by decide))
  have site : Sorted v (item v .nginx "/etc/nginx/sites-available/default") :=
    sorted_item v (.inr (by decide))
  have link : Sorted v (linkItem "default") := sorted_link v List.mem_cons_self
  have sites (name : String) : Sorted v (item v .nginx ("/etc/nginx/sites-available/" ++ name)) :=
    sorted_item v (.inr (available_free name))
  have links : ∀ name ∈ v.websites, Sorted v (linkItem name) := fun name listed =>
    sorted_link v (List.mem_cons_of_mem _ listed)
  simp only [nginxTasks, List.forall_mem_append]
  refine ⟨⟨by simp [other, install, Neat, Body.writes], block⟩, ?_⟩
  simpa [other, nginxWrite, Neat, Body.writes, main, site, link, sites] using links

theorem roleTasks_neat (apart : PmaApart v) (role : Role) :
    ∀ t ∈ roleTasks v role, Neat v t.body := by
  have own {service : Service} (free : service ≠ .nginx) (path : String) :
      Sorted v (item v service path) :=
    sorted_item v (.inl free)
  cases role with
  | nginx => exact nginxTasks_neat v
  | php => simp [roleTasks, phpTasks, other, install, phpWrite, Neat, Body.writes, own]
  | percona => simp [roleTasks, perconaTasks, other, install, Neat, Body.writes, own]
  | valkey => simp [roleTasks, valkeyTasks, other, install, valkeyWrite, Neat, Body.writes, own]
  | varnish =>
    cases enabled : v.varnishEnabled <;>
      simp [roleTasks, varnishTasks, other, install, varnishWrite, enabled, Neat, Body.writes, own]
  | opensearch => simp [roleTasks, opensearchTasks, other, install, Neat, Body.writes, own]
  | phpmyadmin =>
    have site : Sorted v (item v .nginx v.phpmyadminNginxConfigPath) := .inr ⟨rfl, fun _ => apart⟩
    simp [roleTasks, phpmyadminTasks, other, nginxWrite, Neat, Body.writes, site]

theorem roleTasks_installed (idle : ∀ name, v.packageWork name = []) (role : Role) :
    ∀ t ∈ roleTasks v role, Installed t.body := by
  have block : ∀ t ∈ (if v.nginxInstallModsecurity then modsecurityTasks v else []),
      Installed t.body := by
    split_ifs <;> simp [modsecurityTasks, other, nginxWrite, Installed, idle]
  cases role with
  | nginx =>
    simp only [roleTasks, nginxTasks, List.forall_mem_append]
    exact ⟨⟨by simp [other, install, Installed, idle], block⟩,
      by simp [other, nginxWrite, Installed]⟩
  | varnish =>
    cases enabled : v.varnishEnabled <;>
      simp [roleTasks, varnishTasks, other, install, varnishWrite, enabled, Installed, idle]
  | php => simp [roleTasks, phpTasks, other, install, phpWrite, Installed, idle]
  | percona => simp [roleTasks, perconaTasks, other, install, Installed, idle]
  | valkey => simp [roleTasks, valkeyTasks, other, install, valkeyWrite, Installed, idle]
  | opensearch => simp [roleTasks, opensearchTasks, other, install, Installed, idle]
  | phpmyadmin => simp [roleTasks, phpmyadminTasks, other, nginxWrite, Installed]

theorem roleTasks_unstopped (role : Role) (on : role = .varnish → v.varnishEnabled = true) :
    ∀ t ∈ roleTasks v role, Unstopped t.body := by
  cases role with
  | nginx =>
    have block : ∀ t ∈ (if v.nginxInstallModsecurity then modsecurityTasks v else []),
        Unstopped t.body := by
      split_ifs <;> simp [modsecurityTasks, other, nginxWrite, Unstopped]
    simp only [roleTasks, nginxTasks, List.forall_mem_append]
    exact ⟨⟨by simp [other, install, Unstopped], block⟩, by simp [other, nginxWrite, Unstopped]⟩
  | varnish => simp [roleTasks, varnishTasks, other, install, varnishWrite, on rfl, Unstopped]
  | php => simp [roleTasks, phpTasks, other, install, phpWrite, Unstopped]
  | percona => simp [roleTasks, perconaTasks, other, install, Unstopped]
  | valkey => simp [roleTasks, valkeyTasks, other, install, valkeyWrite, Unstopped]
  | opensearch => simp [roleTasks, opensearchTasks, other, install, Unstopped]
  | phpmyadmin => simp [roleTasks, phpmyadminTasks, other, nginxWrite, Unstopped]

end Agreement

section Reruns
variable {r : Run}

theorem tasks_forall {Q : Body Service String String Handler → Prop}
    (each : ∀ role ∈ r.roles, ∀ t ∈ roleTasks r.vars role, Q t.body) : ∀ t ∈ r.tasks, Q t.body := by
  intro t listed
  obtain ⟨role, applied, own⟩ := List.mem_flatMap.mp listed
  exact each role applied t own

theorem items_agreeing (apart : PmaApart r.vars) : Agreeing (itemsOf r.tasks) := by
  refine agreeing_of_sorted r.vars fun i listed => ?_
  obtain ⟨t, task, own⟩ := List.mem_flatMap.mp listed
  exact tasks_forall (fun role _ => roleTasks_neat r.vars apart role) t task i own

/-- A run without faults and with nothing to install leaves a host on which the same run
changes nothing, if Varnish is enabled where its role is applied. -/
theorem rerun_settled (calm : ∀ name, r.faults name = none)
    (idle : ∀ name, r.vars.packageWork name = [])
    (apart : PmaApart r.vars) (on : .varnish ∈ r.roles → r.vars.varnishEnabled = true)
    {h h' : ServiceHost} (ok : run r h = .ok h') : run r h' = .ok h' := by
  refine runPlay_settled (fun t => calm t.name) ?_ ?_ (items_agreeing apart) ok
  · exact tasks_forall fun role _ => roleTasks_installed r.vars idle role
  · exact tasks_forall fun role applied =>
      roleTasks_unstopped r.vars role fun own => on (own ▸ applied)

theorem exampleVars_apart : PmaApart (exampleVars "text") := by
  unfold PmaApart
  decide

def everyRole : Run :=
  ⟨exampleVars "text", [.nginx, .php, .percona, .valkey, .varnish, .opensearch, .phpmyadmin],
    fun _ => none⟩

theorem everyRole_settled : ∃ h', run everyRole freshHost = .ok h' ∧ run everyRole h' = .ok h' := by
  have ok : run everyRole freshHost = .ok (run everyRole freshHost).state :=
    (Outcome.completed_iff _).mp (by decide)
  exact ⟨_, ok, rerun_settled (fun _ => rfl) (fun _ => rfl) exampleVars_apart (fun _ => rfl) ok⟩

end Reruns

section Varnish
variable (v : Vars)

def varnishPaths : List String :=
  [v.varnishVclPath ++ "/default.vcl", v.varnishConfigPath, v.varnishSystemdConfigPath]

def varnishPackages : List (PackageWork Service String String) :=
  v.packageWork (.varnish, "安装Varnish") ++ v.packageWork (.varnish, "安装额外的Varnish包")

def dropped (path : String) : Option String :=
  (varnishPackages v).findSome? fun w => if w.service = .varnish then w.dropped path else none

/-- The role finds one of its files, or the one its packages leave, other than it wants it. -/
def Changed (h : ServiceHost) : Prop :=
  ∃ path ∈ varnishPaths v, (h.conf .varnish path).or (dropped v path) ≠ some (v.render path)

/-- The packages of the other roles leave Varnish alone. -/
def PackagesApart : Prop :=
  ∀ name : TaskName, name.1 ≠ .varnish → ∀ w ∈ v.packageWork name, w.service ≠ .varnish

theorem roleTasks_aside (apart : PackagesApart v) {role : Role} (other : role ≠ .varnish) :
    ∀ t ∈ roleTasks v role, Aside (targets v) .varnish .restartVarnish t.body := by
  have works (name : String) : ∀ w ∈ v.packageWork (role, name), w.service ≠ .varnish :=
    apart (role, name) other
  cases role with
  | nginx =>
    have block : ∀ t ∈ (if v.nginxInstallModsecurity then modsecurityTasks v else []),
        Aside (targets v) .varnish .restartVarnish t.body := by
      split_ifs
      · simpa [modsecurityTasks, RoleServices.other, nginxWrite, Aside, item]
          using works "安装ModSecurity依赖"
      · exact List.forall_mem_nil _
    simp only [roleTasks, nginxTasks, List.forall_mem_append]
    refine ⟨⟨?_, block⟩, ?_⟩
    · simpa [RoleServices.other, install, Aside] using works "安装Nginx"
    · simp [RoleServices.other, nginxWrite, Aside, item, linkItem]
  | php =>
    simpa [roleTasks, phpTasks, RoleServices.other, install, phpWrite, Aside, item]
      using And.intro (works "安装PHP基础包") (works "安装PHP扩展")
  | percona =>
    simpa [roleTasks, perconaTasks, RoleServices.other, install, Aside, item]
      using works "安装Percona Server和相关工具"
  | valkey =>
    simpa [roleTasks, valkeyTasks, RoleServices.other, install, valkeyWrite, Aside, item]
      using works "安装Valkey"
  | varnish => exact absurd rfl other
  | opensearch =>
    simpa [roleTasks, opensearchTasks, RoleServices.other, install, Aside, item]
      using works "安装OpenSearch"
  | phpmyadmin =>
    simp [roleTasks, phpmyadminTasks, RoleServices.other, nginxWrite, Aside, item]

theorem varnishTasks_strict : ∀ t ∈ varnishTasks v, Strict t.body := by
  cases enabled : v.varnishEnabled <;>
    simp [varnishTasks, other, install, varnishWrite, enabled, Strict]

theorem sweep_varnish (off : v.varnishEnabled = false) (p : RolePlay) :
    let written := writeAll ((varnishPaths v).map (item v .varnish))
      ((varnishPackages v).foldl (fun h w => package w h) p.host)
    (sweep (targets v) (varnishTasks v) p).host = stop .varnish written.1 ∧
      (sweep (targets v) (varnishTasks v) p).notified .restartVarnish =
        (p.notified .restartVarnish || written.2) := by
  simp [sweep, varnishTasks, off, other, install, varnishWrite, perform, part_all, varnishPaths,
    varnishPackages, writeAll, List.foldl_append, Bool.or_assoc]

theorem varnishTasks_leave (off : v.varnishEnabled = false)
    {faults : RoleTask → Option (ℕ → Bool)} {p q : RolePlay}
    (ok : runTasks (exec (targets v)) faults (varnishTasks v) p = .ok q) :
    q.host.loaded .varnish = none ∧
      (∀ path ∈ varnishPaths v, q.host.conf .varnish path = some (v.render path)) ∧
      (q.notified .restartVarnish = true ↔
        p.notified .restartVarnish = true ∨ Changed v p.host) := by
  have agree : Agreeing ((varnishPaths v).map (item v .varnish)) := by
    intro i hi j hj place
    obtain ⟨a, -, rfl⟩ := List.mem_map.mp hi
    obtain ⟨b, -, rfl⟩ := List.mem_map.mp hj
    exact congrArg v.render place.2
  obtain ⟨host, notified⟩ := sweep_varnish v off p
  rw [runTasks_strict (varnishTasks_strict v) ok, host, notified]
  refine ⟨by simp [stop], fun path listed => ?_, ?_⟩
  · exact writeAll_onDisk agree _ (List.mem_map_of_mem (f := item v .varnish) listed)
  · have differs (path : String) :
        OnDisk ((varnishPackages v).foldl (fun h w => package w h) p.host)
        (item v .varnish path) ↔
        (p.host.conf .varnish path).or (dropped v path) = some (v.render path) := by
      rw [OnDisk, foldl_package_conf]
      rfl
    simp only [Bool.or_eq_true, writeAll_flag agree, Changed, List.mem_map,
      exists_exists_and_eq_and, differs, ne_eq]

theorem varnish_mem_targets {hd : Handler} :
    Service.varnish ∈ targets v hd ↔ hd = .restartVarnish := by
  cases hd <;> simp [targets]

variable {r : Run}

/-- Varnish is stopped, its files are written, and its restart is notified if `changed`. -/
structure Applied (v : Vars) (changed : Prop) (p : RolePlay) : Prop where
  stopped : p.host.loaded .varnish = none
  written : ∀ path ∈ varnishPaths v, p.host.conf .varnish path = some (v.render path)
  notified : p.notified .restartVarnish = true ↔ changed

theorem Applied.alike {changed : Prop} {p q : RolePlay} (applied : Applied v changed p)
    (same : Alike .varnish .restartVarnish p q) : Applied v changed q := by
  obtain ⟨conf, loaded, notified⟩ := same
  refine ⟨loaded.trans applied.stopped, fun path listed => ?_, ?_⟩
  · rw [conf]
    exact applied.written path listed
  · rw [notified]
    exact applied.notified

theorem roles_applied (apart : PackagesApart v) (off : v.varnishEnabled = false)
    {faults : RoleTask → Option (ℕ → Bool)} {h : ServiceHost} {roles : List Role} {p q : RolePlay}
    (before : Alike .varnish .restartVarnish ⟨h, fun _ => false⟩ p ∧ .varnish ∈ roles ∨
      Applied v (Changed v h) p)
    (ok : runTasks (exec (targets v)) faults (roles.flatMap (roleTasks v)) p = .ok q) :
    Applied v (Changed v h) q := by
  induction roles generalizing p with
  | nil =>
    rw [← Outcome.ok.inj ok]
    exact before.resolve_left fun first => by cases first.2
  | cons role roles ih =>
    rw [List.flatMap_cons, runTasks_append_eq_ok] at ok
    obtain ⟨next, own, rest⟩ := ok
    refine ih ?_ rest
    by_cases varnish : role = .varnish
    · subst varnish
      obtain ⟨stopped, written, notified⟩ := varnishTasks_leave v off own
      refine .inr ⟨stopped, written, notified.trans ?_⟩
      rcases before with ⟨⟨conf, -, silent⟩, -⟩ | applied
      · rw [silent, Changed, conf, ← Changed]
        exact or_iff_right Bool.false_ne_true
      · rw [applied.notified]
        refine or_iff_left_of_imp fun again => ?_
        obtain ⟨path, listed, differs⟩ := again
        rw [applied.written path listed, Option.some_or] at differs
        exact absurd rfl differs
    · have same := runTasks_aside (roleTasks_aside v apart varnish) own
      rcases before with ⟨first, listed⟩ | applied
      · exact .inl ⟨first.trans same, (List.mem_cons.mp listed).resolve_left (Ne.symm varnish)⟩
      · exact .inr (applied.alike v same)

theorem handlers_strict : ∀ t ∈ handlers.map (handlerTask handlerName),
    Strict (t : RoleTask).body := by
  intro t listed
  obtain ⟨hd, -, rfl⟩ := List.mem_map.mp listed
  trivial

def varnishPackage : PackageWork Service String String :=
  ⟨.varnish, fun path => if path = "/etc/default/varnish" then some "stock" else none, true⟩

def disabledVarnish : Run where
  vars := { exampleVars "text" with
    varnishEnabled := false
    packageWork := fun name => if name = (.varnish, "安装Varnish") then [varnishPackage] else [] }
  roles := [.varnish]
  faults _ := none

end Varnish

end LempStack.RoleReruns
