import LempStack.RoleServices

/-! Services and the configuration on disk over histories of runs. A notification
lives in one run: when the run fails between the write and the handlers it is gone,
the next run finds the file as it should be and notifies nobody, and `started` leaves
the old process alone. The templates of OpenSearch notify nobody at all. Runs that
avoid both keep every service current from one to the next. -/

namespace LempStack.ConfigLoaded
open PlayRun ServiceConfig RoleServices

def services (v : Vars) : List Service :=
  [.nginx] ++ v.phpVersions.map .phpFpm ++ [.mysql, .valkey, .varnish, .opensearch]

def UpToDate (r : Run) (h : ServiceHost) : Prop :=
  ∀ h', run r h = .ok h' → ∀ s ∈ services r.vars, Current h' s

/-- A task of OpenSearch changes no file while OpenSearch runs; and a task that has something
to do and whose failure counts fails only while every service is current and without changing
a file of a running one. -/
def StepFits (fault : Option (ℕ → Bool)) (t : RoleTask) (p : RolePlay) : Prop :=
  (t.name.1 = .opensearch → Quiet t.body.writes p.host) ∧
    (fault.isSome = true → skipped p t.body = false →
      (∀ s, Current p.host s) ∧ Quiet t.body.writes p.host)

def RunFits (r : Run) (h : ServiceHost) : Prop :=
  EveryTask (exec (targets r.vars)) r.faultOf (fun t p => StepFits (r.faultOf t) t p)
    (play handlerName r.tasks handlers) ⟨h, fun _ => false⟩

theorem roleTasks_name (v : Vars) (role : Role) : ∀ t ∈ roleTasks v role, t.name.1 = role := by
  cases role with
  | nginx =>
    have block : ∀ t ∈ (if v.nginxInstallModsecurity then modsecurityTasks v else []),
        t.name.1 = .nginx := by
      split_ifs <;> simp [modsecurityTasks, other, nginxWrite]
    simp only [roleTasks, nginxTasks, List.forall_mem_append]
    exact ⟨⟨by simp [other, install], block⟩, by simp [other, nginxWrite]⟩
  | php => simp [roleTasks, phpTasks, other, install, phpWrite]
  | percona => simp [roleTasks, perconaTasks, other, install]
  | valkey => simp [roleTasks, valkeyTasks, other, install, valkeyWrite]
  | varnish => simp [roleTasks, varnishTasks, other, install, varnishWrite]
  | opensearch => simp [roleTasks, opensearchTasks, other, install]
  | phpmyadmin => simp [roleTasks, phpmyadminTasks, other, nginxWrite]

theorem playTasks_covered (r : Run) (t : RoleTask)
    (listed : t ∈ play handlerName r.tasks handlers) :
    Covered (targets r.vars) handlers t.body ∨ t.name.1 = .opensearch := by
  rcases List.mem_append.mp listed with task | handler
  · obtain ⟨role, -, mine⟩ := List.mem_flatMap.mp task
    by_cases search : role = .opensearch
    · subst search
      exact .inr (roleTasks_name r.vars .opensearch t mine)
    · exact .inl (roleTasks_covered r.vars role search t mine)
  · obtain ⟨hd, -, rfl⟩ := List.mem_map.mp handler
    exact .inl trivial

theorem run_current (r : Run) (h : ServiceHost) (current : ∀ s, Current h s)
    (fits : RunFits r h) (s : Service) : Current (run r h).state s := by
  refine runPlay_current (targets r.vars) handlerName r.tasks handlers r.faultOf h current ?_ s
  refine fits.mono _ _ fun t listed p fit => ⟨?_, fit.2⟩
  exact (playTasks_covered r t listed).imp id fit.1

/-- From a host whose services are current, in every history whose runs fit, each
completed run leaves its services running what is on disk. -/
theorem services_up_to_date (h : ServiceHost) (current : ∀ s, Current h s) (rs : List Run)
    (fits : EveryRun run RunFits h rs) : EveryRun run UpToDate h rs := by
  refine EveryRun.of_invariant run (fun h => ∀ s, Current h s) ?_ ?_ h rs current fits
  · exact fun r h current fit => run_current r h current fit
  · intro r h current fit h' ok s _
    have after := run_current r h current fit s
    rwa [ok, Outcome.state_ok] at after

theorem runFits_of_no_faults (r : Run) (noFaults : ∀ name, r.faults name = none)
    (noSearch : .opensearch ∉ r.roles) (h : ServiceHost) : RunFits r h := by
  refine EveryTask.of_forall _ _ (fun t listed p => ⟨?_, ?_⟩) _
  · intro search
    rcases List.mem_append.mp listed with task | handler
    · obtain ⟨role, applied, mine⟩ := List.mem_flatMap.mp task
      rw [roleTasks_name r.vars role t mine] at search
      exact absurd (search ▸ applied) noSearch
    · obtain ⟨hd, -, rfl⟩ := List.mem_map.mp handler
      exact nofun
  · intro faulty
    simp [Run.faultOf, noFaults] at faulty

def freshHost : ServiceHost := ⟨fun _ _ => none, fun _ => none⟩

def exampleVars (text : String) : Vars where
  render _ := text
  packageWork _ := []
  nginxInstallModsecurity := true
  nginxDefaultSiteEnabled := true
  websites := ["example.com"]
  phpVersions := ["8.2", "8.3"]
  varnishVclPath := "/etc/varnish"
  varnishConfigPath := "/etc/default/varnish"
  varnishSystemdConfigPath := "/etc/systemd/system/varnish.service"
  varnishEnabled := true
  phpmyadminInstall := true
  phpmyadminNginxConfigPath := "/etc/nginx/conf.d/phpmyadmin.conf"

def exampleRun (text : String) (role : Role) : Run := ⟨exampleVars text, [role], fun _ => none⟩

theorem freshHost_current (s : Service) : Current freshHost s := nofun

theorem nginx_reconfigured :
    EveryRun run (fun r h => (run r h).completed = true) freshHost
        [exampleRun "first" .nginx, exampleRun "second" .nginx] ∧
      EveryRun run UpToDate freshHost
        [exampleRun "first" .nginx, exampleRun "second" .nginx] ∧
      ((run (exampleRun "second" .nginx)
        (run (exampleRun "first" .nginx) freshHost).state).state.loaded
        .nginx).map (fun snapshot => snapshot "/etc/nginx/nginx.conf") = some (some "second") := by
  refine ⟨⟨by decide, by decide, trivial⟩, ?_, by decide⟩
  exact services_up_to_date freshHost freshHost_current _
    ⟨runFits_of_no_faults _ (fun _ => rfl) (by decide) _,
      runFits_of_no_faults _ (fun _ => rfl) (by decide) _, trivial⟩

theorem opensearch_outdated :
    ¬ ∀ (h : ServiceHost), (∀ s, Current h s) → ∀ rs : List Run, EveryRun run UpToDate h rs := by
  intro all
  have second := (all freshHost freshHost_current
    [exampleRun "first" .opensearch, exampleRun "second" .opensearch]).2.1
  have current := second _ ((Outcome.completed_iff _).mp (by decide)) .opensearch (by decide)
  have same := congrFun (current _ rfl) "/etc/opensearch/opensearch.yml"
  revert same
  decide

end LempStack.ConfigLoaded
