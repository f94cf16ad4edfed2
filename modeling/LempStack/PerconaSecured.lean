import LempStack.PerconaRole

/-! The secured state of the database server over histories of runs. The block that
secures it is entered only by a run that installs a package, and inside it the root
password is set only when root cannot log in without one. So a completed run leaves
the server secured when it finds packages to install and a root that has a password,
and otherwise it leaves what it found. -/

namespace LempStack.PerconaSecured
open PlayRun PerconaRole

structure Secured (v : Vars) (h : Host) : Prop where
  root : ∀ x ∈ rootHosts, credential h "root" x = some (.password v.perconaRootPassword)
  anonymous : ∀ x, h.account "" x = none
  test : h.database "test" = false
  application : v.perconaCreateDatabase = true →
    h.database v.databaseName = true ∧ ∀ x ∈ appHosts, (h.account v.databaseUser x).isSome = true

/-- The application's names are not the ones the role itself sets and removes. -/
def OwnNames (v : Vars) : Prop :=
  v.databaseUser ≠ "root" ∧ v.databaseUser ≠ "" ∧ v.databaseName ≠ "test"

/-- What a host needs before a run for the run to leave it secured. -/
def Settles (v : Vars) (h : Host) : Prop :=
  if missing h then
    passwordless h = false ∨
      ∀ x ∈ rootHosts, x ≠ "localhost" →
        credential h "root" x = some (.password v.perconaRootPassword)
  else Secured v h

section
variable (v : Vars)

theorem setRootPassword_credential (h : Host) (x : String) (hx : x ∈ rootHosts) :
    credential (achieved v .setRootPassword h) "root" x =
      some (.password v.perconaRootPassword) := by
  simp only [rootHosts, List.mem_cons, List.not_mem_nil, or_false] at hx
  rcases hx with rfl | rfl | rfl <;>
    simp [achieved, rootHosts, setPassword, setAccount, credential]

theorem createAppUser_account (h : Host) (x : String) (hx : x ∈ appHosts) :
    ((achieved v .createAppUser h).account v.databaseUser x).isSome = true := by
  simp only [appHosts, List.mem_cons, List.not_mem_nil, or_false] at hx
  rcases hx with rfl | rfl | rfl <;>
    simp [achieved, appHosts, createUser, setAccount]

theorem createAppUser_other (h : Host) {user : String} (other : v.databaseUser ≠ user) :
    (achieved v .createAppUser h).account user = h.account user := by
  funext x
  have ne : ¬ user = v.databaseUser := fun same => other same.symm
  simp [achieved, appHosts, createUser, setAccount, ne]

theorem createAppUser_database (h : Host) :
    (achieved v .createAppUser h).database = h.database := rfl

theorem cleanedHost_root (h : Host) :
    (cleanedHost v h).account "root" = (rootedHost v h).account "root" := by
  funext x
  simp [cleanedHost, achieved, setDatabase, dropUser, writeCnf]

theorem cleanedHost_anonymous (h : Host) (x : String) : (cleanedHost v h).account "" x = none := by
  simp [cleanedHost, achieved, setDatabase, dropUser]

theorem cleanedHost_test (h : Host) : (cleanedHost v h).database "test" = false := by
  simp [cleanedHost, achieved, setDatabase]

theorem protectedHost_other (h : Host) {user : String} (other : v.databaseUser ≠ user) :
    (protectedHost v h).account user = (cleanedHost v h).account user := by
  unfold protectedHost
  split_ifs
  · rw [createAppUser_other v _ other]
    rfl
  · rfl

theorem protectedHost_root (own : OwnNames v) (h : Host) (x : String) :
    credential (protectedHost v h) "root" x = credential (rootedHost v h) "root" x := by
  simp only [credential]
  rw [protectedHost_other v h own.1, cleanedHost_root]

theorem protectedHost_test (own : OwnNames v) (h : Host) :
    (protectedHost v h).database "test" = false := by
  unfold protectedHost
  split_ifs
  · have ne : ¬ "test" = v.databaseName := fun same => own.2.2 same.symm
    rw [createAppUser_database]
    simp only [achieved, setDatabase, ne, if_false]
    exact cleanedHost_test v h
  · exact cleanedHost_test v h

theorem protectedHost_application (h : Host) (create : v.perconaCreateDatabase = true) :
    (protectedHost v h).database v.databaseName = true ∧
      ∀ x ∈ appHosts, ((protectedHost v h).account v.databaseUser x).isSome = true := by
  unfold protectedHost
  rw [if_pos create]
  refine ⟨?_, createAppUser_account v _⟩
  rw [createAppUser_database]
  simp [achieved, setDatabase]

theorem protectedHost_secured_iff (own : OwnNames v) (h : Host) :
    Secured v (protectedHost v h) ↔
      ∀ x ∈ rootHosts, credential (rootedHost v h) "root" x =
        some (.password v.perconaRootPassword) := by
  constructor
  · intro secured x hx
    rw [← protectedHost_root v own]
    exact secured.root x hx
  · intro root
    refine ⟨?_, ?_, protectedHost_test v own h, protectedHost_application v h⟩
    · intro x hx
      rw [protectedHost_root v own]
      exact root x hx
    · intro x
      rw [protectedHost_other v h own.2.1]
      exact cleanedHost_anonymous v h x

theorem rootedHost_root_iff (h : Host) (logged : rootLogin v (rootedHost v h) = true) :
    (∀ x ∈ rootHosts, credential (rootedHost v h) "root" x =
        some (.password v.perconaRootPassword)) ↔
      passwordless h = false ∨ ∀ x ∈ rootHosts, x ≠ "localhost" →
        credential h "root" x = some (.password v.perconaRootPassword) := by
  cases free : passwordless h with
  | false =>
    have rooted : rootedHost v h = achieved v .setRootPassword h := by simp [rootedHost, free]
    rw [rooted]
    exact ⟨fun _ => .inl rfl, fun _ => setRootPassword_credential v h⟩
  | true =>
    have kept : rootedHost v h = h := by simp [rootedHost, free]
    rw [kept] at logged ⊢
    have here : credential h "root" "localhost" = some (.password v.perconaRootPassword) := by
      simpa [rootLogin, login] using logged
    constructor
    · exact fun all => .inr fun x hx _ => all x hx
    · intro others x hx
      by_cases localhost : x = "localhost"
      · rw [localhost, here]
      · exact others.resolve_left (by simp) x hx localhost

theorem install_secured_iff (done : Residue) (h : Host) :
    Secured v (install done h) ↔ Secured v h :=
  ⟨fun s => ⟨s.root, s.anonymous, s.test, s.application⟩,
    fun s => ⟨s.root, s.anonymous, s.test, s.application⟩⟩

theorem completed_run_secured_iff (own : OwnNames v) {faults : Task → Option Residue}
    {h r : Host} (ok : run v faults h = .ok r) : Secured v r ↔ Settles v h := by
  have done := run_ok v ok
  unfold Settles
  cases absent : missing h with
  | false =>
    simp only [absent, Bool.false_eq_true, if_false] at done ⊢
    rw [done, install_secured_iff]
  | true =>
    simp only [absent, if_true] at done ⊢
    rw [done.1, protectedHost_secured_iff v own, rootedHost_root_iff v _ done.2]
    rfl

/-- After every run that completes the server is secured, exactly when every run
that completes finds packages to install on a host whose root has a password (or
whose other root accounts have the right one), or finds a secured server. -/
theorem secured_after_completed_runs_iff (own : OwnNames v) (h : Host)
    (rs : List (Task → Option Residue)) :
    EveryCompleted (run v) (Secured v) h rs ↔
      EveryRun (run v) (fun faults h => (run v faults h).completed = true → Settles v h) h rs := by
  exact everyCompleted_iff (run v) (fun _ => True) (fun _ _ _ => trivial)
    (fun _ _ _ _ _ ok => completed_run_secured_iff v own ok) h trivial

end

def defaultVars : Vars where
  perconaRootPassword := "StrongR00tPassw0rd"
  mysqlConfigFile := "/root/.my.cnf"
  perconaCreateDatabase := true
  databaseName := "lemp_db"
  databaseUser := "lemp_user"
  databasePassword := "StrongDbPassw0rd"

theorem defaultVars_ownNames : OwnNames defaultVars := ⟨by decide, by decide, by decide⟩

def noFaults : Task → Option Residue := fun _ => none

def freshHost (cred : Cred) (cnf : Option ClientCnf) : Host where
  installed _ := false
  account user host := if user = "root" ∧ host = "localhost" then some ⟨cred, []⟩ else none
  database _ := false
  clientCnf _ := cnf

def openHost : Host := freshHost (.password "") none

def preparedHost : Host :=
  freshHost (.password "preseeded") (some ⟨"root", "preseeded"⟩)

theorem prepared_host_secured :
    (run defaultVars noFaults preparedHost).completed = true ∧
      EveryCompleted (run defaultVars) (Secured defaultVars) preparedHost [noFaults] := by
  have free : passwordless preparedHost = false := by decide
  refine ⟨by decide, ?_⟩
  refine (secured_after_completed_runs_iff defaultVars defaultVars_ownNames preparedHost
    [noFaults]).mpr ⟨fun _ => ?_, trivial⟩
  have absent : missing preparedHost = true := by decide
  simp only [Settles, absent, if_true]
  exact .inl free

/-- A fresh server: the first run cannot log in with the password it never set, and
the second skips the block and completes with root open to everyone. -/
theorem open_root_after_second_run :
    ¬ ∀ v : Vars, OwnNames v → ∀ (h : Host) (rs : List (Task → Option Residue)),
      EveryCompleted (run v) (Secured v) h rs := by
  intro all
  have second := (all defaultVars defaultVars_ownNames openHost [noFaults, noFaults]).2.1
  have secured := second _ ((Outcome.completed_iff _).mp (by decide))
  have root := secured.root "localhost" (by decide)
  revert root
  decide

end LempStack.PerconaSecured
