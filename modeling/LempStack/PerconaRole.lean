import LempStack.PlayRun

/-! The tasks of the percona role on a host. Accounts are those of the data
directory that the server finds or creates, so installing the packages adds none.
A login with a user and a password goes to the account at localhost and needs that
account to have that password; without both it is made through the socket, with what
`/root/.my.cnf` says or else as root without a password. Check mode is off. -/

namespace LempStack.PerconaRole
open PlayRun

inductive Package where
  | server
  | client
  | common
  | toolkit
  | xtrabackup
  deriving DecidableEq, Repr

def Package.name : Package → String
  | server => "percona-server-server"
  | client => "percona-server-client"
  | common => "percona-server-common"
  | toolkit => "percona-toolkit"
  | xtrabackup => "percona-xtrabackup-80"

def packages : List Package := [.server, .client, .common, .toolkit, .xtrabackup]

inductive Cred where
  | socket
  | password (text : String)
  deriving DecidableEq, Repr

structure Account where
  cred : Cred
  grants : List String
  deriving DecidableEq, Repr

structure ClientCnf where
  user : String
  password : String
  deriving DecidableEq, Repr

-- accounts by user and host
structure Host where
  installed : Package → Bool
  account : String → String → Option Account
  database : String → Bool
  clientCnf : String → Option ClientCnf

structure Vars where
  perconaRootPassword : String
  mysqlConfigFile : String
  perconaCreateDatabase : Bool
  databaseName : String
  databaseUser : String
  databasePassword : String
  deriving DecidableEq, Repr

inductive Task where
  | downloadRelease
  | installRelease
  | setupRepo
  | updateCache
  | installPercona
  | checkRootPassword
  | setRootPassword
  | createMyCnf
  | removeAnonymous
  | removeTestDatabase
  | createAppDatabase
  | createAppUser
  | configureServer
  | enableService
  deriving DecidableEq, Repr

/-- What had taken effect when a task failed, by the name of the part. -/
abbrev Residue := String → Bool

-- `percona_installed.changed`, and `mysql_root_password_check.rc == 0`
structure Play where
  host : Host
  perconaInstalled : Bool
  rootCheck : Bool

section Host

def credential (h : Host) (user host : String) : Option Cred :=
  (h.account user host).map Account.cred

def missing (h : Host) : Bool := packages.any fun p => !h.installed p

def install (done : Residue) (h : Host) : Host :=
  { h with installed := fun p => h.installed p || done p.name }

def passwordless (h : Host) : Bool :=
  credential h "root" "localhost" = some .socket ∨
    credential h "root" "localhost" = some (.password "")

def login (user given : String) (h : Host) : Bool :=
  credential h user "localhost" = some (.password given)

def socketLogin (h : Host) : Bool :=
  match h.clientCnf "/root/.my.cnf" with
  | some cnf =>
    login cnf.user cnf.password h ||
      (cnf.user = "root" && credential h "root" "localhost" = some .socket)
  | none => passwordless h

def setAccount (user host : String) (a : Account) (h : Host) : Host :=
  { h with account := fun u x => if u = user ∧ x = host then some a else h.account u x }

def grantsOf (h : Host) (user host : String) : List String :=
  ((h.account user host).map Account.grants).getD []

def setPassword (user password host : String) (h : Host) : Host :=
  setAccount user host ⟨.password password, grantsOf h user host⟩ h

def dropUser (user : String) (done : Residue) (h : Host) : Host :=
  { h with account := fun u x => if u = user ∧ done x then none else h.account u x }

def setDatabase (name : String) (present : Bool) (h : Host) : Host :=
  { h with database := fun n => if n = name then present else h.database n }

def writeCnf (path : String) (cnf : ClientCnf) (h : Host) : Host :=
  { h with clientCnf := fun p => if p = path then some cnf else h.clientCnf p }

/-- A module that connects first and fails when it cannot. -/
def mysqlModule (connects : Host → Bool) (change : Host → Host) (h : Host) : Outcome Host :=
  if connects h then .ok (change h) else .failed h

end Host

def rootHosts : List String := ["127.0.0.1", "::1", "localhost"]

def appHosts : List String := ["localhost", "127.0.0.1", "%"]

section Tasks
variable (v : Vars)

def Vars.allGrant : String := v.databaseName ++ ".*:ALL"

def rootLogin : Host → Bool := login "root" v.perconaRootPassword

def createUser (host : String) : Host → Host :=
  setAccount v.databaseUser host ⟨.password v.databasePassword, [v.allGrant]⟩

/-- What a task does to the host once its conditions hold. -/
def onHost (t : Task) (fault : Option Residue) : Host → Outcome Host :=
  match t with
  | .setRootPassword =>
    withItems (fun host => attempt fault host
      (mysqlModule socketLogin (setPassword "root" v.perconaRootPassword host))) rootHosts
  | .createMyCnf =>
    attempt fault v.mysqlConfigFile
      fun h => .ok (writeCnf v.mysqlConfigFile ⟨"root", v.perconaRootPassword⟩ h)
  | .removeAnonymous =>
    match fault with
    | none => mysqlModule (rootLogin v) (dropUser "" fun _ => true)
    | some done => fun h => .failed (mysqlModule (rootLogin v) (dropUser "" done) h).state
  | .removeTestDatabase =>
    attempt fault "test" (mysqlModule (rootLogin v) (setDatabase "test" false))
  | .createAppDatabase =>
    attempt fault v.databaseName (mysqlModule (rootLogin v) (setDatabase v.databaseName true))
  | .createAppUser =>
    withItems (fun host => attempt fault host (mysqlModule (rootLogin v) (createUser v host)))
      appHosts
  | _ => attempt fault "" .ok

def inBlock : Task → Bool
  | .checkRootPassword | .setRootPassword | .createMyCnf | .removeAnonymous
  | .removeTestDatabase | .createAppDatabase | .createAppUser => true
  | _ => false

def wanted (rootCheck : Bool) : Task → Bool
  | .setRootPassword => !rootCheck
  | .createAppDatabase | .createAppUser => v.perconaCreateDatabase
  | _ => true

def enabled (t : Task) (p : Play) : Bool :=
  (!inBlock t || p.perconaInstalled) && wanted v p.rootCheck t

def exec (t : Task) (fault : Option Residue) (p : Play) : Outcome Play :=
  if enabled v t p then
    match t with
    | .installPercona =>
      match fault with
      | none =>
        .ok { p with host := install (fun _ => true) p.host, perconaInstalled := missing p.host }
      | some done => .failed { p with host := install done p.host }
    -- its failure is ignored, and is what it is run for
    | .checkRootPassword => .ok { p with rootCheck := passwordless p.host }
    | _ => (onHost v t fault p.host).map fun h => { p with host := h }
  else .ok p

def packageTasks : List Task :=
  [.downloadRelease, .installRelease, .setupRepo, .updateCache, .installPercona]

def blockTasks : List Task :=
  [.checkRootPassword, .setRootPassword, .createMyCnf, .removeAnonymous, .removeTestDatabase,
    .createAppDatabase, .createAppUser]

def serverTasks : List Task := [.configureServer, .enableService]

def roleTasks : List Task := packageTasks ++ (blockTasks ++ serverTasks)

def run (faults : Task → Option Residue) (h : Host) : Outcome Host :=
  (runTasks (exec v) faults roleTasks ⟨h, false, false⟩).map Play.host

def achieved : Task → Host → Host
  | .setRootPassword, h =>
    rootHosts.foldl (fun h host => setPassword "root" v.perconaRootPassword host h) h
  | .createMyCnf, h => writeCnf v.mysqlConfigFile ⟨"root", v.perconaRootPassword⟩ h
  | .removeAnonymous, h => dropUser "" (fun _ => true) h
  | .removeTestDatabase, h => setDatabase "test" false h
  | .createAppDatabase, h => setDatabase v.databaseName true h
  | .createAppUser, h => appHosts.foldl (fun h host => createUser v host h) h
  | _, h => h

theorem mysqlModule_ok {connects : Host → Bool} {change : Host → Host} {h r : Host} :
    mysqlModule connects change h = .ok r ↔ connects h = true ∧ change h = r := by
  cases ready : connects h <;> simp [mysqlModule, ready]

theorem withItems_mysql_ok {fault : Option Residue} {connects : Host → Bool}
    {change : String → Host → Host} {items : List String} {h r : Host}
    (ok : withItems (fun i => attempt fault i (mysqlModule connects (change i))) items h = .ok r) :
    r = items.foldl (fun h i => change i h) h := by
  refine withItems_eq_foldl change (fun i _ h next step => ?_) ok
  exact (mysqlModule_ok.mp (attempt_eq_ok.mp step).2).2.symm

theorem onHost_ok {t : Task} {fault : Option Residue} {h r : Host}
    (ok : onHost v t fault h = .ok r) : r = achieved v t h := by
  cases t with
  | setRootPassword => exact withItems_mysql_ok ok
  | createAppUser => exact withItems_mysql_ok ok
  | createMyCnf =>
    simp only [onHost, attempt_eq_ok, Outcome.ok.injEq] at ok
    exact ok.2.symm
  | removeAnonymous =>
    cases fault with
    | none => exact (mysqlModule_ok.mp ok).2.symm
    | some done => cases ok
  | removeTestDatabase => exact (mysqlModule_ok.mp (attempt_eq_ok.mp ok).2).2.symm
  | createAppDatabase => exact (mysqlModule_ok.mp (attempt_eq_ok.mp ok).2).2.symm
  | _ => exact (Outcome.ok.inj (attempt_eq_ok.mp ok).2).symm

theorem removeAnonymous_login {fault : Option Residue} {h r : Host}
    (ok : onHost v .removeAnonymous fault h = .ok r) : rootLogin v h = true := by
  cases fault with
  | none => exact (mysqlModule_ok.mp ok).1
  | some done => cases ok

theorem exec_disabled {t : Task} (fault : Option Residue) {p : Play}
    (off : enabled v t p = false) : exec v t fault p = .ok p := by
  simp [exec, off]

theorem exec_enabled {t : Task} (fault : Option Residue) {p : Play}
    (on : enabled v t p = true) (ht : t ≠ .installPercona) (hc : t ≠ .checkRootPassword) :
    exec v t fault p = (onHost v t fault p.host).map fun h => { p with host := h } := by
  unfold exec
  rw [if_pos on]
  cases t <;> first | rfl | contradiction

/-- A task that goes through has done its work or was not to be done. -/
theorem exec_ok {t : Task} {fault : Option Residue} {p q : Play}
    (ok : exec v t fault p = .ok q) (ht : t ≠ .installPercona) (hc : t ≠ .checkRootPassword) :
    q = if enabled v t p then { p with host := achieved v t p.host } else p := by
  cases on : enabled v t p with
  | false =>
    rw [exec_disabled v fault on] at ok
    cases ok
    rfl
  | true =>
    rw [exec_enabled v fault on ht hc] at ok
    obtain ⟨r, done, rfl⟩ := Outcome.map_eq_ok.mp ok
    rw [onHost_ok v done]
    rfl

theorem exec_install_ok {fault : Option Residue} {p q : Play}
    (ok : exec v .installPercona fault p = .ok q) :
    q = { p with host := install (fun _ => true) p.host, perconaInstalled := missing p.host } := by
  cases fault <;> cases ok
  rfl

theorem packageTasks_ok {faults : Task → Option Residue} {h : Host} {p : Play}
    (ok : runTasks (exec v) faults packageTasks ⟨h, false, false⟩ = .ok p) :
    p = ⟨install (fun _ => true) h, missing h, false⟩ := by
  simp only [packageTasks, runTasks_cons_eq_ok, runTasks_nil, Outcome.ok.injEq] at ok
  obtain ⟨p₁, d₁, p₂, d₂, p₃, d₃, p₄, d₄, p₅, d₅, rfl⟩ := ok
  have e₁ : p₁ = _ := exec_ok v d₁ (by decide) (by decide)
  have e₂ : p₂ = p₁ := exec_ok v d₂ (by decide) (by decide)
  have e₃ : p₃ = p₂ := exec_ok v d₃ (by decide) (by decide)
  have e₄ : p₄ = p₃ := exec_ok v d₄ (by decide) (by decide)
  rw [exec_install_ok v d₅, e₄, e₃, e₂, e₁]
  rfl

theorem serverTasks_ok {faults : Task → Option Residue} {p q : Play}
    (ok : runTasks (exec v) faults serverTasks p = .ok q) : q = p := by
  simp only [serverTasks, runTasks_cons_eq_ok, runTasks_nil, Outcome.ok.injEq] at ok
  obtain ⟨p₁, d₁, p₂, d₂, rfl⟩ := ok
  have e₁ : p₁ = p := exec_ok v d₁ (by decide) (by decide)
  have e₂ : p₂ = p₁ := exec_ok v d₂ (by decide) (by decide)
  rw [e₂, e₁]

/-- Without a change of the packages the whole block is skipped. -/
theorem blockTasks_skipped (faults : Task → Option Residue) {p : Play}
    (unchanged : p.perconaInstalled = false) :
    runTasks (exec v) faults blockTasks p = .ok p := by
  have skip : ∀ t ∈ blockTasks, exec v t (faults t) p = .ok p := by
    intro t ht
    refine exec_disabled v (faults t) ?_
    have listed : inBlock t = true := by revert t; decide
    simp [enabled, listed, unchanged]
  generalize blockTasks = ts at skip
  induction ts with
  | nil => rfl
  | cons t ts ih =>
    rw [runTasks_cons_ok (exec v) faults (skip t List.mem_cons_self)]
    exact ih fun u hu => skip u (List.mem_cons_of_mem t hu)

theorem exec_changed_ok {t : Task} {fault : Option Residue} {h : Host} {rc : Bool} {q : Play}
    (ok : exec v t fault ⟨h, true, rc⟩ = .ok q) (ht : t ≠ .installPercona)
    (hc : t ≠ .checkRootPassword) :
    q = ⟨if wanted v rc t then achieved v t h else h, true, rc⟩ := by
  rw [exec_ok v ok ht hc]
  cases mine : wanted v rc t <;> simp [enabled, mine]

def rootedHost (h : Host) : Host :=
  if !passwordless h then achieved v .setRootPassword h else h

def cleanedHost (h : Host) : Host :=
  achieved v .removeTestDatabase
    (achieved v .removeAnonymous (achieved v .createMyCnf (rootedHost v h)))

def protectedHost (h : Host) : Host :=
  if v.perconaCreateDatabase then
    achieved v .createAppUser (achieved v .createAppDatabase (cleanedHost v h))
  else cleanedHost v h

theorem blockTasks_ok {faults : Task → Option Residue} {h : Host} {rc : Bool} {q : Play}
    (ok : runTasks (exec v) faults blockTasks ⟨h, true, rc⟩ = .ok q) :
    q.host = protectedHost v h ∧ rootLogin v (rootedHost v h) = true := by
  simp only [blockTasks, runTasks_cons_eq_ok, runTasks_nil, Outcome.ok.injEq] at ok
  obtain ⟨p₁, d₁, p₂, d₂, p₃, d₃, p₄, d₄, p₅, d₅, p₆, d₆, p₇, d₇, rfl⟩ := ok
  have e₁ : p₁ = ⟨h, true, passwordless h⟩ := (Outcome.ok.inj d₁).symm
  subst e₁
  have e₂ : p₂ = ⟨rootedHost v h, true, passwordless h⟩ :=
    exec_changed_ok v d₂ (by decide) (by decide)
  subst e₂
  have e₃ := exec_changed_ok v d₃ (by decide) (by decide)
  subst e₃
  have e₄ := exec_changed_ok v d₄ (by decide) (by decide)
  have logged : rootLogin v (achieved v .createMyCnf (rootedHost v h)) = true := by
    rw [exec_enabled v _ rfl (by decide) (by decide)] at d₄
    obtain ⟨r, done, -⟩ := Outcome.map_eq_ok.mp d₄
    exact removeAnonymous_login v done
  subst e₄
  have e₅ : p₅ = ⟨cleanedHost v h, true, passwordless h⟩ :=
    exec_changed_ok v d₅ (by decide) (by decide)
  subst e₅
  have e₆ := exec_changed_ok v d₆ (by decide) (by decide)
  subst e₆
  have e₇ := exec_changed_ok v d₇ (by decide) (by decide)
  refine ⟨?_, logged⟩
  rw [e₇]
  cases create : v.perconaCreateDatabase <;> simp [protectedHost, wanted, create]

/-- What a completed run has done: nothing but the packages when they were there,
else the whole block, with a login that the password step made possible. -/
theorem run_ok {faults : Task → Option Residue} {h r : Host} (ok : run v faults h = .ok r) :
    if missing h then
      r = protectedHost v (install (fun _ => true) h) ∧
        rootLogin v (rootedHost v (install (fun _ => true) h)) = true
    else r = install (fun _ => true) h := by
  obtain ⟨q, done, rfl⟩ := Outcome.map_eq_ok.mp ok
  obtain ⟨p, packaged, rest⟩ := (runTasks_append_eq_ok (exec v) faults).mp done
  obtain ⟨b, blocked, served⟩ := (runTasks_append_eq_ok (exec v) faults).mp rest
  rw [serverTasks_ok v served]
  rw [packageTasks_ok v packaged] at blocked
  cases absent : missing h with
  | false =>
    rw [absent, blockTasks_skipped v faults rfl] at blocked
    cases blocked
    rfl
  | true =>
    rw [absent] at blocked
    exact blockTasks_ok v blocked

end Tasks

end LempStack.PerconaRole
