import LempStack.EventTrace
import LempStack.VarnishPolicy
import Mathlib.Tactic.Linarith

/-! Varnish running the policy. Client requests, backend answers and the passing of
time are separate events, so any number of fetches can be under way and their
answers come back in any order. A pass never touches the cache. An answer to a
fetch is stored as an object, or as a hit-for-miss marker when it is not cacheable.
An object past its lifetime is still served within its grace, and a background fetch
is started. A fetch that finds an expired object with a validator is conditional: a
304 renews the object, with its old status and body. A 304 that nothing asked for is
a backend error. Fetches that fail otherwise, and the waiting list that lets requests
for one page share a fetch, are left out. -/

namespace LempStack.VarnishMachine
open AccessRules HeaderList VarnishPolicy EventTrace

def hashKey (req : Request) : String × Option String := (req.url, get? req.headers "Host")

structure Object where
  id : ℕ
  key : String × Option String
  request : Request
  response : Response
  originTtl : ℚ
  expires : ℚ
  grace : ℚ
  keep : ℚ
  hitForMiss : Bool
  deriving DecidableEq, Repr

structure Fetch where
  request : Request
  -- a background fetch has no client waiting for it
  foreground : Bool
  -- the stored response that a 304 renews
  stale : Option Response
  deriving DecidableEq, Repr

structure State where
  cache : List Object
  fetches : List Fetch
  passes : List Request
  hits : ℕ → ℕ
  now : ℚ
  nextId : ℕ

def empty : State := ⟨[], [], [], fun _ => 0, 0, 0⟩

def varyWords (resp : Response) : List (List Char) :=
  match joined? resp.headers "Vary" with
  | some value => (value.toList.splitOn ',').map trimBlanks
  | none => []

/-- A Vary whose members are not single words of a header name's length is illegal, and
Varnish does not cache the response. -/
def legalVary (resp : Response) : Bool :=
  (varyWords resp).all fun w => w.all (fun c => c != ' ' && c != '\t') && w.length ≤ 127

def varyNames (resp : Response) : List String :=
  if legalVary resp then (varyWords resp).map String.ofList else []

def answers (req : Request) (o : Object) : Bool :=
  o.key == hashKey req &&
    (varyNames o.response).all fun name => get? req.headers name == get? o.request.headers name

inductive Found where
  | hit (o : Object)
  | graceHit (o : Object)
  | hitForMiss
  | miss (stale : Option Object)
  deriving DecidableEq, Repr

def alive (req : Request) (now : ℚ) (o : Object) : Bool :=
  answers req o && decide (now < o.expires)

/-- The newest object still alive decides; without one, the newest expired one, which a
marker hides as it does when it is alive. -/
def lookup (cache : List Object) (req : Request) (now : ℚ) : Found :=
  match cache.find? (alive req now) with
  | some o => if o.hitForMiss then .hitForMiss else .hit o
  | none =>
    match cache.find? (answers req) with
    | none => .miss none
    | some o =>
      if o.hitForMiss then .hitForMiss
      else if now < o.expires + o.grace then .graceHit o
      else .miss (if now < o.expires + o.grace + o.keep then some o else none)

def validated (o : Object) : Option Response :=
  if o.response.status = 200 ∧ o.response.body ≠ "" ∧
      ((get? o.response.headers "ETag").isSome ∨ (get? o.response.headers "Last-Modified").isSome)
  then some o.response else none

def renew (old resp : Response) : Response :=
  ⟨old.status, merge resp.headers old.headers, old.body⟩

/-- What `vcl_backend_response` gets to see of an answer, if it runs. -/
def received? (f : Fetch) (resp : Response) : Option Response :=
  if resp.status = 304 then f.stale.map fun old => renew old resp else some resp

structure Reply where
  request : Request
  status : ℕ
  body : String
  xCache : Option String
  -- the object a hit was served from
  served : Option ℕ
  deriving DecidableEq, Repr

def deliver (req : Request) (sent : ℕ × String) (hits : ℕ) (served : Option ℕ) : Reply where
  request := req
  status := sent.1
  body := sent.2
  xCache := some (vclDeliver hits)
  served := served

def relayed (req : Request) (resp : Response) : ℕ × String :=
  (resp.status, if req.method = "HEAD" then "" else resp.body)

inductive Event where
  | request (client : Request)
  | fetched (i : ℕ) (resp : Response)
  | passed (i : ℕ) (resp : Response)
  | tick (d : ℚ)
  deriving DecidableEq, Repr

section Step
variable (cfg : Config)

def store (s : State) (f : Fetch) (resp received : Response) : Object :=
  let beresp := vclBackendResponse cfg ⟨received, cfg.originTtl resp, 0, false⟩
  { id := s.nextId
    key := hashKey f.request
    request := f.request
    response := beresp.response
    originTtl := cfg.originTtl resp
    expires := s.now + beresp.ttl
    grace := beresp.grace
    keep := cfg.defaultKeep
    hitForMiss := beresp.uncacheable || !legalVary beresp.response }

def countHit (s : State) (o : Object) : State :=
  { s with hits := fun id => if id = o.id then s.hits id + 1 else s.hits id }

def fromCache (s : State) (req : Request) (o : Object) : Reply :=
  deliver req (cfg.transmit s.now req o.response) (s.hits o.id + 1) (some o.id)

def startFetch (s : State) (f : Fetch) : State := { s with fetches := s.fetches ++ [f] }

def onLookup (s : State) (req : Request) : Found → State × List Reply
  | .hit o => (countHit s o, [fromCache cfg s req o])
  | .graceHit o => (startFetch (countHit s o) ⟨req, false, validated o⟩, [fromCache cfg s req o])
  | .hitForMiss => (startFetch s ⟨req, true, none⟩, [])
  | .miss stale => (startFetch s ⟨req, true, stale.bind validated⟩, [])

def toClient (s : State) (f : Fetch) (resp : Response) : List Reply :=
  if f.foreground then [deliver f.request (cfg.transmit s.now f.request resp) 0 none] else []

def onAnswer (s : State) (i : ℕ) (f : Fetch) (resp : Response) : State × List Reply :=
  match received? f resp with
  | some received =>
    ({ s with cache := store cfg s f resp received :: s.cache
              fetches := s.fetches.eraseIdx i
              nextId := s.nextId + 1 }, toClient cfg s f received)
  | none =>
    ({ s with fetches := s.fetches.eraseIdx i }, toClient cfg s f (cfg.errorPage f.request))

def step (s : State) : Event → State × List Reply
  | .request client =>
    match vclRecv cfg 0 client with
    | (req, .pass) => ({ s with passes := s.passes ++ [req] }, [])
    | (req, .synth status reason) => (s, [⟨req, status, reason, none, none⟩])
    | (req, .purge) =>
      ({ s with cache := s.cache.filter fun o => o.key ≠ hashKey req },
        [⟨req, 200, "Purged", none, none⟩])
    | (req, .hash) => onLookup cfg s req (lookup s.cache req s.now)
  | .fetched i resp =>
    match s.fetches[i]? with
    | none => (s, [])
    | some f => onAnswer cfg s i f resp
  | .passed i resp =>
    match s.passes[i]? with
    | none => (s, [])
    | some req =>
      ({ s with passes := s.passes.eraseIdx i }, [deliver req (relayed req resp) 0 none])
  | .tick d => ({ s with now := s.now + max d 0 }, [])

theorem step_private (s : State) {client : Request} (h : isPublic client = false) :
    step cfg s (.request client) =
      ({ s with passes := s.passes ++ [addForwardedFor cfg client] }, []) := by
  simp [step, vclRecv_private cfg h]

theorem step_public (s : State) {client : Request} (h : isPublic client = true) :
    step cfg s (.request client) =
      onLookup cfg s (lookupRequest cfg client)
        (lookup s.cache (lookupRequest cfg client) s.now) := by
  simp only [step, vclRecv_public cfg h]

theorem step_fetched_none (s : State) (i : ℕ) (resp : Response) (h : s.fetches[i]? = none) :
    step cfg s (.fetched i resp) = (s, []) := by
  simp only [step, h]

theorem step_fetched_some (s : State) (i : ℕ) (resp : Response) {f : Fetch}
    (h : s.fetches[i]? = some f) : step cfg s (.fetched i resp) = onAnswer cfg s i f resp := by
  simp only [step, h]

theorem onAnswer_stored (s : State) (i : ℕ) {f : Fetch} {resp received : Response}
    (h : received? f resp = some received) :
    onAnswer cfg s i f resp =
      ({ s with cache := store cfg s f resp received :: s.cache
                fetches := s.fetches.eraseIdx i
                nextId := s.nextId + 1 }, toClient cfg s f received) := by
  simp only [onAnswer, h]

theorem onAnswer_error (s : State) (i : ℕ) {f : Fetch} {resp : Response}
    (h : received? f resp = none) :
    onAnswer cfg s i f resp =
      ({ s with fetches := s.fetches.eraseIdx i },
        toClient cfg s f (cfg.errorPage f.request)) := by
  simp only [onAnswer, h]

theorem step_passed (s : State) (i : ℕ) (resp : Response) :
    step cfg s (.passed i resp) =
      ({ s with passes := s.passes.eraseIdx i },
        (s.passes[i]?.map fun req => deliver req (relayed req resp) 0 none).toList) := by
  cases waiting : s.passes[i]? with
  | none =>
    have beyond := List.eraseIdx_of_length_le (List.getElem?_eq_none_iff.mp waiting)
    simp [step, waiting, beyond]
  | some req => simp [step, waiting]

/-- All that a step can do to the cache and the clock. -/
theorem step_cases (s : State) (e : Event) :
    ((step cfg s e).1.cache = s.cache ∧ (step cfg s e).1.nextId = s.nextId ∧
      s.now ≤ (step cfg s e).1.now) ∨
    ∃ i resp f received, e = .fetched i resp ∧ s.fetches[i]? = some f ∧
      received? f resp = some received ∧
      (step cfg s e).1 =
        { s with cache := store cfg s f resp received :: s.cache
                 fetches := s.fetches.eraseIdx i
                 nextId := s.nextId + 1 } := by
  cases e with
  | request client =>
    left
    cases pub : isPublic client with
    | false =>
      rw [step_private cfg s pub]
      exact ⟨rfl, rfl, le_refl _⟩
    | true =>
      rw [step_public cfg s pub]
      cases lookup s.cache (lookupRequest cfg client) s.now <;> exact ⟨rfl, rfl, le_refl _⟩
  | fetched i resp =>
    cases waiting : s.fetches[i]? with
    | none =>
      rw [step_fetched_none cfg s i resp waiting]
      exact .inl ⟨rfl, rfl, le_refl _⟩
    | some f =>
      rw [step_fetched_some cfg s i resp waiting]
      cases got : received? f resp with
      | none =>
        rw [onAnswer_error cfg s i got]
        exact .inl ⟨rfl, rfl, le_refl _⟩
      | some received =>
        rw [onAnswer_stored cfg s i got]
        exact .inr ⟨i, resp, f, received, rfl, waiting, got, rfl⟩
  | passed i resp =>
    rw [step_passed]
    exact .inl ⟨rfl, rfl, le_refl _⟩
  | tick d => exact .inl ⟨rfl, rfl, le_add_of_nonneg_right (le_max_right d 0)⟩

/-- What waits after a step waited before it, or came with a request of its kind. -/
theorem step_queues (s : State) (e : Event) :
    (∀ f ∈ (step cfg s e).1.fetches, f ∈ s.fetches ∨
      ∃ client, isPublic client = true ∧ f.request = lookupRequest cfg client) ∧
    ∀ req ∈ (step cfg s e).1.passes, req ∈ s.passes ∨ isPublic req = false := by
  cases e with
  | request client =>
    cases pub : isPublic client with
    | false =>
      rw [step_private cfg s pub]
      refine ⟨fun f old => .inl old, fun req member => ?_⟩
      rcases List.mem_append.mp member with old | new
      · exact .inl old
      · rw [List.mem_singleton.mp new, isPublic_addForwardedFor]
        exact .inr pub
    | true =>
      have started : ∀ f g : Fetch, g.request = lookupRequest cfg client →
          f ∈ s.fetches ++ [g] → f ∈ s.fetches ∨
            ∃ client, isPublic client = true ∧ f.request = lookupRequest cfg client := by
        intro f g asked member
        rcases List.mem_append.mp member with old | new
        · exact .inl old
        · rw [List.mem_singleton.mp new]
          exact .inr ⟨client, pub, asked⟩
      rw [step_public cfg s pub]
      cases lookup s.cache (lookupRequest cfg client) s.now with
      | hit o => exact ⟨fun f old => .inl old, fun req old => .inl old⟩
      | graceHit o => exact ⟨fun f => started f _ rfl, fun req old => .inl old⟩
      | hitForMiss => exact ⟨fun f => started f _ rfl, fun req old => .inl old⟩
      | miss stale => exact ⟨fun f => started f _ rfl, fun req old => .inl old⟩
  | fetched i resp =>
    cases waiting : s.fetches[i]? with
    | none =>
      rw [step_fetched_none cfg s i resp waiting]
      exact ⟨fun f old => .inl old, fun req old => .inl old⟩
    | some f =>
      rw [step_fetched_some cfg s i resp waiting]
      cases got : received? f resp with
      | none =>
        rw [onAnswer_error cfg s i got]
        exact ⟨fun g left => .inl (List.mem_of_mem_eraseIdx left), fun req old => .inl old⟩
      | some received =>
        rw [onAnswer_stored cfg s i got]
        exact ⟨fun g left => .inl (List.mem_of_mem_eraseIdx left), fun req old => .inl old⟩
  | passed i resp =>
    rw [step_passed]
    exact ⟨fun f old => .inl old, fun req left => .inl (List.mem_of_mem_eraseIdx left)⟩
  | tick d => exact ⟨fun f old => .inl old, fun req old => .inl old⟩

def marked (received : Response) : Bool := refused received || !legalVary received

/-- Where the objects and the fetches of a state come from. -/
structure Traced (s : State) : Prop where
  fetch_from : ∀ f ∈ s.fetches, ∃ client, isPublic client = true ∧
    f.request = lookupRequest cfg client
  object_from : ∀ o ∈ s.cache, ∃ client, isPublic client = true ∧
    o.request = lookupRequest cfg client
  object_old : ∀ o ∈ s.cache, o.id < s.nextId
  object_marked : 0 < cfg.varnishTtl → ∀ o ∈ s.cache, o.hitForMiss = marked o.response

theorem empty_traced : Traced cfg empty := by
  constructor <;> simp [empty]

section Store
variable (s : State) (f : Fetch) (resp received : Response)

theorem store_response : (store cfg s f resp received).response = received :=
  vclBackendResponse_response cfg _

theorem store_hitForMiss (positive : 0 < cfg.varnishTtl) :
    (store cfg s f resp received).hitForMiss = marked received := by
  simp only [store, marked, vclBackendResponse_response]
  rw [vclBackendResponse_uncacheable cfg positive _ rfl]

theorem store_expires : (store cfg s f resp received).expires = s.now + cfg.varnishTtl := by
  simp only [store, vclBackendResponse_ttl]

theorem store_grace : (store cfg s f resp received).grace = cfg.varnishGrace :=
  vclBackendResponse_grace cfg _

end Store

theorem step_traced (s : State) (e : Event) (h : Traced cfg s) :
    Traced cfg (step cfg s e).1 := by
  have fetches : ∀ f ∈ (step cfg s e).1.fetches, ∃ client, isPublic client = true ∧
      f.request = lookupRequest cfg client :=
    fun f member => ((step_queues cfg s e).1 f member).elim (h.fetch_from f) id
  rcases step_cases cfg s e with ⟨cache, ids, -⟩ | ⟨i, resp, f, received, -, waiting, -, next⟩
  · exact ⟨fetches, by rw [cache]; exact h.object_from, by rw [cache, ids]; exact h.object_old,
      by rw [cache]; exact h.object_marked⟩
  · refine ⟨fetches, ?_, ?_, ?_⟩ <;> rw [next]
    · intro o ho
      rcases List.mem_cons.mp ho with rfl | old
      · exact h.fetch_from f (List.mem_of_getElem? waiting)
      · exact h.object_from o old
    · intro o ho
      rcases List.mem_cons.mp ho with rfl | old
      · exact Nat.lt_succ_self _
      · exact Nat.lt_succ_of_lt (h.object_old o old)
    · intro positive o ho
      rcases List.mem_cons.mp ho with rfl | old
      · rw [store_hitForMiss cfg s f resp received positive, store_response]
      · exact h.object_marked positive o old

theorem reachable_traced {s : State} (h : Reachable (step cfg) empty s) : Traced cfg s :=
  reachable_of_step (step cfg) (step_traced cfg) (empty_traced cfg) h

end Step

section Serving
variable {cache : List Object} {req : Request} {now : ℚ} {o : Object}

theorem lookup_hit :
    lookup cache req now = .hit o ↔
      cache.find? (alive req now) = some o ∧ o.hitForMiss = false := by
  unfold lookup
  cases living : cache.find? (alive req now) with
  | some p =>
    cases hides : p.hitForMiss with
    | true =>
      simp only [hides, if_true, reduceCtorEq, Option.some.injEq, false_iff, not_and]
      rintro rfl
      simp [hides]
    | false =>
      simp only [hides, Bool.false_eq_true, if_false, Found.hit.injEq, Option.some.injEq]
      exact ⟨fun same => ⟨same, same ▸ hides⟩, And.left⟩
  | none =>
    cases cache.find? (answers req) with
    | none => simp
    | some p =>
      dsimp only
      split_ifs <;> simp

theorem lookup_graceHit :
    lookup cache req now = .graceHit o ↔
      cache.find? (alive req now) = none ∧ cache.find? (answers req) = some o ∧
        o.hitForMiss = false ∧ now < o.expires + o.grace := by
  unfold lookup
  cases cache.find? (alive req now) with
  | some p => cases hides : p.hitForMiss <;> simp [hides]
  | none =>
    cases cache.find? (answers req) with
    | none => simp
    | some p =>
      dsimp only
      split_ifs with hides young
      · simp only [true_and, Option.some.injEq, false_iff]
        rintro ⟨rfl, shown, -⟩
        simp [hides] at shown
      · simp only [Found.graceHit.injEq, true_and, Option.some.injEq]
        exact ⟨fun same => same ▸ ⟨rfl, Bool.not_eq_true _ ▸ hides, young⟩, And.left⟩
      · simp only [true_and, Option.some.injEq, false_iff]
        rintro ⟨rfl, -, still⟩
        exact young still

def ServedFrom (cache : List Object) (req : Request) (now : ℚ) (o : Object) : Prop :=
  lookup cache req now = .hit o ∨ lookup cache req now = .graceHit o

theorem ServedFrom.found (h : ServedFrom cache req now o) :
    o ∈ cache ∧ o.hitForMiss = false ∧ answers req o = true := by
  rcases h with hit | grace
  · obtain ⟨living, shown⟩ := lookup_hit.mp hit
    have holds := List.find?_some living
    simp only [alive, Bool.and_eq_true] at holds
    exact ⟨List.mem_of_find?_eq_some living, shown, holds.1⟩
  · obtain ⟨-, newest, shown, -⟩ := lookup_graceHit.mp grace
    exact ⟨List.mem_of_find?_eq_some newest, shown, List.find?_some newest⟩

theorem ServedFrom.key (h : ServedFrom cache req now o) : o.key = hashKey req := by
  have answered := h.found.2.2
  simp only [answers, Bool.and_eq_true, beq_iff_eq] at answered
  exact answered.1

theorem ServedFrom.fresh (h : ServedFrom cache req now o) :
    now < o.expires + max o.grace 0 := by
  rcases h with hit | grace
  · have holds := List.find?_some (lookup_hit.mp hit).1
    simp only [alive, Bool.and_eq_true, decide_eq_true_eq] at holds
    linarith [holds.2, le_max_right o.grace 0]
  · linarith [(lookup_graceHit.mp grace).2.2.2, le_max_left o.grace 0]

theorem step_served (cfg : Config) (s : State) (e : Event) (rep : Reply)
    (out : rep ∈ (step cfg s e).2) (hit : rep.served ≠ none) :
    ∃ client o, isPublic client = true ∧
      ServedFrom s.cache (lookupRequest cfg client) s.now o ∧
      rep = fromCache cfg s (lookupRequest cfg client) o := by
  have unserved : ∀ f resp, rep ∈ toClient cfg s f resp → rep.served = none := by
    intro f resp member
    cases front : f.foreground with
    | false => simp [toClient, front] at member
    | true =>
      simp only [toClient, front, if_true, List.mem_singleton] at member
      rw [member]
      rfl
  cases e with
  | request client =>
    cases pub : isPublic client with
    | false => simp [step_private cfg s pub] at out
    | true =>
      rw [step_public cfg s pub] at out
      cases found : lookup s.cache (lookupRequest cfg client) s.now with
      | hit o =>
        rw [found] at out
        exact ⟨client, o, pub, .inl found, List.mem_singleton.mp out⟩
      | graceHit o =>
        rw [found] at out
        exact ⟨client, o, pub, .inr found, List.mem_singleton.mp out⟩
      | hitForMiss => simp [found, onLookup] at out
      | miss stale => simp [found, onLookup] at out
  | fetched i resp =>
    cases waiting : s.fetches[i]? with
    | none => simp [step_fetched_none cfg s i resp waiting] at out
    | some f =>
      rw [step_fetched_some cfg s i resp waiting] at out
      cases got : received? f resp with
      | none =>
        rw [onAnswer_error cfg s i got] at out
        exact absurd (unserved f _ out) hit
      | some received =>
        rw [onAnswer_stored cfg s i got] at out
        exact absurd (unserved f _ out) hit
  | passed i resp =>
    rw [step_passed] at out
    simp only [Option.mem_toList, Option.map_eq_some_iff] at out
    obtain ⟨req, -, rfl⟩ := out
    exact absurd rfl hit
  | tick d => simp [step] at out

/-- Some request, now or later, would be served from the object. -/
def CanBeServed (cfg : Config) (s : State) (o : Object) : Prop :=
  ∃ client now, isPublic client = true ∧ s.now ≤ now ∧
    ServedFrom s.cache (lookupRequest cfg client) now o

end Serving

end LempStack.VarnishMachine
