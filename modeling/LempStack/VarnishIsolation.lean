import LempStack.VarnishMachine
import Mathlib.Data.List.Perm.Basic

/-! No flow from private traffic to the cache. The backend is now a fixed function
of the request it gets, so a history says which requests come, which outstanding
answers arrive and how time goes. Requests that are passed only touch the queue of
passes, which no lookup reads, and Cookie and Cache-Control are gone before the
lookup, so the runs of two histories with the same public part go through states
that differ in their passes alone. What is compared is every reply to a public
request, on whichever way it was answered, and every public request is accounted
for. -/

namespace LempStack.VarnishIsolation
open HeaderList VarnishPolicy VarnishMachine EventTrace

inductive Move where
  | request (client : Request)
  | fetched (i : ℕ)
  | passed (i : ℕ)
  | tick (d : ℚ)
  deriving DecidableEq, Repr

def without (names : List String) (req : Request) : Request :=
  { req with headers := req.headers.filter fun f => !names.any (sameName f.1) }

def bereq (f : Fetch) : Request :=
  let req := without ["If-Match", "If-None-Match", "If-Modified-Since", "If-Unmodified-Since",
    "If-Range", "Range"] f.request
  let condition (name validator : String) : Headers :=
    ((f.stale.bind fun old => get? old.headers validator).map (Prod.mk name)).toList
  { req with
    method := "GET"
    headers := req.headers ++ condition "If-Modified-Since" "Last-Modified" ++
      condition "If-None-Match" "ETag" }

/-- What two histories have to agree on: the public requests without Cookie and
Cache-Control, the fetches that come back and the clock. -/
def publicPart : Move → Option Move
  | .request client =>
    if isPublic client then some (.request (without ["Cookie", "Cache-Control"] client)) else none
  | .fetched i => some (.fetched i)
  | .passed _ => none
  | .tick d => some (.tick d)

def bare (req : Request) : Request := without ["Cookie", "Cache-Control", "X-Forwarded-For"] req

/-- What the client of a public request gets. -/
def seen (rep : Reply) : Option (Request × ℕ × String × Option String) :=
  if isPublic rep.request then some (bare rep.request, rep.status, rep.body, rep.xCache) else none

def answeredFor (rep : Reply) : Option Request := (seen rep).map Prod.fst

def publicRequests : Move → List Request
  | .request client => if isPublic client then [bare client] else []
  | _ => []

def waitingClients (s : State) : List Request :=
  (s.fetches.filter Fetch.foreground).map fun f => bare f.request

section Headers

theorem without_cookies (req : Request) :
    without ["Cookie", "Cache-Control"] req = dropCookies req := by
  have both : ∀ hs : Headers,
      hs.filter (fun f => !(["Cookie", "Cache-Control"].any (sameName f.1))) =
        unset (unset hs "Cookie") "Cache-Control" := by
    intro hs
    rw [unset, unset, List.filter_filter]
    exact List.filter_congr fun f _ => by simp [Bool.and_comm]
  rw [without, both, dropCookies]

theorem bare_dropCookies (req : Request) : bare (dropCookies req) = bare req := by
  simp only [bare, without, dropCookies, unset, List.filter_filter]
  congr 1
  refine List.filter_congr fun f _ => ?_
  cases cookie : sameName f.1 "Cookie" <;> cases control : sameName f.1 "Cache-Control" <;>
    simp [cookie, control]

theorem bare_addForwardedFor (cfg : Config) (req : Request) :
    bare (addForwardedFor cfg req) = bare req := by
  have own : sameName "X-Forwarded-For" "X-Forwarded-For" = true := by decide
  simp only [bare, without, addForwardedFor, put, unset, List.filter_append, List.filter_filter]
  congr 1
  have gone : ([("X-Forwarded-For", forwardedFor cfg req)] : Headers).filter
      (fun f => !(["Cookie", "Cache-Control", "X-Forwarded-For"].any (sameName f.1))) = [] := by
    simp [own]
  rw [gone, List.append_nil]
  refine List.filter_congr fun f _ => ?_
  cases forwarded : sameName f.1 "X-Forwarded-For" <;> simp [forwarded]

theorem bare_lookupRequest (cfg : Config) (req : Request) :
    bare (lookupRequest cfg req) = bare req := by
  rw [lookupRequest, bare_dropCookies, bare_addForwardedFor]

end Headers

section
variable (cfg : Config) (backend : Request → Response)

def move (s : State) : Move → State × List Reply
  | .request client => step cfg s (.request client)
  | .fetched i =>
    match s.fetches[i]? with
    | none => (s, [])
    | some f => step cfg s (.fetched i (backend (bereq f)))
  | .passed i =>
    match s.passes[i]? with
    | none => (s, [])
    | some req => step cfg s (.passed i (backend req))
  | .tick d => step cfg s (.tick d)

def publicReplies (ms : List Move) : List (Request × ℕ × String × Option String) :=
  (outputs (move cfg backend) empty ms).filterMap seen

def Sorted (s : State) : Prop :=
  (∀ f ∈ s.fetches, isPublic f.request = true) ∧ ∀ req ∈ s.passes, isPublic req = false

theorem step_sorted (s : State) (e : Event) (h : Sorted s) : Sorted (step cfg s e).1 := by
  obtain ⟨fetches, passes⟩ := step_queues cfg s e
  refine ⟨fun f member => ?_, fun req member => (passes req member).elim (h.2 req) id⟩
  rcases fetches f member with old | ⟨client, pub, asked⟩
  · exact h.1 f old
  · rw [asked, isPublic_lookupRequest, pub]

theorem move_sorted (s : State) (m : Move) (h : Sorted s) :
    Sorted (move cfg backend s m).1 := by
  cases m with
  | request client => exact step_sorted cfg s _ h
  | fetched i =>
    simp only [move]
    split
    · exact h
    · exact step_sorted cfg s _ h
  | passed i =>
    simp only [move]
    split
    · exact h
    · exact step_sorted cfg s _ h
  | tick d => exact step_sorted cfg s _ h

theorem empty_sorted : Sorted empty := by
  constructor <;> simp [empty]

def cacheView (s : State) : State := { s with passes := [] }

def viewMove (v : State) (m : Move) : State × List (Request × ℕ × String × Option String) :=
  (cacheView (move cfg backend v m).1, (move cfg backend v m).2.filterMap seen)

theorem publicPart_request {client : Request} {l : Move}
    (h : publicPart (.request client) = some l) :
    isPublic client = true ∧ l = .request (without ["Cookie", "Cache-Control"] client) := by
  cases pub : isPublic client with
  | false => simp [publicPart, pub] at h
  | true =>
    simp only [publicPart, pub, if_true, Option.some.injEq] at h
    exact ⟨rfl, h.symm⟩

/-- Moves without a public part leave no trace in the view and answer no public request. -/
theorem private_move_silent (s : State) (m : Move) (sorted : Sorted s)
    (h : publicPart m = none) :
    cacheView (move cfg backend s m).1 = cacheView s ∧
      (move cfg backend s m).2.filterMap seen = [] := by
  cases m with
  | request client =>
    have hidden : isPublic client = false := by
      by_contra pub
      simp [publicPart, pub] at h
    simp only [move]
    rw [step_private cfg s hidden]
    exact ⟨rfl, rfl⟩
  | fetched i => simp [publicPart] at h
  | passed i =>
    cases waiting : s.passes[i]? with
    | none =>
      have still : move cfg backend s (.passed i) = (s, []) := by simp only [move, waiting]
      rw [still]
      exact ⟨rfl, rfl⟩
    | some req =>
      have hidden := sorted.2 req (List.mem_of_getElem? waiting)
      simp only [move, waiting]
      rw [step_passed, waiting]
      exact ⟨rfl, by simp [seen, deliver, hidden]⟩
  | tick d => simp [publicPart] at h

theorem public_request_acts (s : State) (client : Request) (pub : isPublic client = true) :
    viewMove cfg backend (cacheView s) (.request (without ["Cookie", "Cache-Control"] client)) =
      (cacheView (step cfg s (.request client)).1,
        (step cfg s (.request client)).2.filterMap seen) := by
  have pub' : isPublic (dropCookies client) = true := by rw [isPublic_dropCookies, pub]
  simp only [viewMove, move, without_cookies]
  rw [step_public cfg _ pub', step_public cfg s pub, lookupRequest_dropCookies]
  have sameFound : lookup (cacheView s).cache (lookupRequest cfg client) (cacheView s).now =
      lookup s.cache (lookupRequest cfg client) s.now := rfl
  rw [sameFound]
  cases lookup s.cache (lookupRequest cfg client) s.now <;> rfl

theorem answer_acts (s : State) (i : ℕ) (f : Fetch) (resp : Response) :
    (cacheView (onAnswer cfg (cacheView s) i f resp).1,
        (onAnswer cfg (cacheView s) i f resp).2) =
      (cacheView (onAnswer cfg s i f resp).1, (onAnswer cfg s i f resp).2) := by
  cases got : received? f resp with
  | none => rw [onAnswer_error cfg s i got, onAnswer_error cfg (cacheView s) i got]; rfl
  | some received => rw [onAnswer_stored cfg s i got, onAnswer_stored cfg (cacheView s) i got]; rfl

theorem public_move_acts (s : State) (m l : Move) (h : publicPart m = some l) :
    viewMove cfg backend (cacheView s) l =
      (cacheView (move cfg backend s m).1, (move cfg backend s m).2.filterMap seen) := by
  cases m with
  | request client =>
    obtain ⟨pub, rfl⟩ := publicPart_request h
    exact public_request_acts cfg backend s client pub
  | fetched i =>
    simp only [publicPart, Option.some.injEq] at h
    subst h
    have sameFetches : (cacheView s).fetches[i]? = s.fetches[i]? := rfl
    cases waiting : s.fetches[i]? with
    | none => simp [viewMove, move, waiting, cacheView]
    | some f =>
      simp only [viewMove, move, sameFetches, waiting]
      rw [step_fetched_some cfg s i _ waiting,
        step_fetched_some cfg (cacheView s) i _ (sameFetches.trans waiting)]
      have acts := Prod.ext_iff.mp (answer_acts cfg s i f (backend (bereq f)))
      exact Prod.ext acts.1 (congrArg (List.filterMap seen) acts.2)
  | passed i => simp [publicPart] at h
  | tick d =>
    simp only [publicPart, Option.some.injEq] at h
    subst h
    rfl

theorem move_unwinds :
    Unwinds (move cfg backend) publicPart seen Sorted cacheView (viewMove cfg backend) where
  keep := move_sorted cfg backend
  silent := private_move_silent cfg backend
  acts s m l _ h := public_move_acts cfg backend s m l h

section Accounting

theorem answeredFor_public {rep : Reply} (pub : isPublic rep.request = true) :
    answeredFor rep = some (bare rep.request) := by
  simp [answeredFor, seen, pub]

theorem waiting_started (s : State) (f : Fetch) :
    waitingClients (startFetch s f) =
      waitingClients s ++ (if f.foreground then [bare f.request] else []) := by
  cases front : f.foreground <;> simp [waitingClients, startFetch, List.filter_append, front]

theorem waiting_answered {s : State} {i : ℕ} {f : Fetch} (found : s.fetches[i]? = some f) :
    (waitingClients s).Perm ((if f.foreground then [bare f.request] else []) ++
      waitingClients { s with fetches := s.fetches.eraseIdx i }) := by
  obtain ⟨bound, rfl⟩ := List.getElem?_eq_some_iff.mp found
  have taken := ((List.getElem_cons_eraseIdx_perm bound).symm.filter Fetch.foreground).map
    fun f => bare f.request
  simp only [waitingClients]
  refine taken.trans ?_
  rw [List.filter_cons]
  split_ifs <;> exact List.Perm.refl _

theorem toClient_seen (s : State) {f : Fetch} (pub : isPublic f.request = true)
    (resp : Response) :
    (toClient cfg s f resp).filterMap answeredFor =
      if f.foreground then [bare f.request] else [] := by
  cases front : f.foreground with
  | false => simp [toClient, front]
  | true => simp [toClient, front, answeredFor, seen, deliver, pub]

theorem request_conserved (s : State) (client : Request) (pub : isPublic client = true) :
    ([bare client] ++ waitingClients s).Perm
      ((step cfg s (.request client)).2.filterMap answeredFor ++
        waitingClients (step cfg s (.request client)).1) := by
  have pub' : isPublic (lookupRequest cfg client) = true := by rw [isPublic_lookupRequest, pub]
  have served : ∀ o, answeredFor (fromCache cfg s (lookupRequest cfg client) o) =
      some (bare client) := by
    intro o
    rw [answeredFor_public (by exact pub'), ← bare_lookupRequest cfg client]
    rfl
  have fetching : ∀ stale, ([bare client] ++ waitingClients s).Perm
      (waitingClients (startFetch s ⟨lookupRequest cfg client, true, stale⟩)) := by
    intro stale
    rw [waiting_started, ← bare_lookupRequest cfg client]
    exact List.perm_append_comm
  rw [step_public cfg s pub]
  cases lookup s.cache (lookupRequest cfg client) s.now with
  | hit o =>
    simp only [onLookup]
    rw [List.filterMap_cons_some (served o)]
    exact List.Perm.refl _
  | graceHit o =>
    simp only [onLookup]
    rw [List.filterMap_cons_some (served o), waiting_started]
    exact List.Perm.of_eq (by simp [waitingClients, countHit])
  | hitForMiss => exact fetching none
  | miss stale => exact fetching _

theorem move_conserves (s : State) (m : Move) (sorted : Sorted s) :
    (publicRequests m ++ waitingClients s).Perm
      ((move cfg backend s m).2.filterMap answeredFor ++
        waitingClients (move cfg backend s m).1) := by
  have silent : publicPart m = none → publicRequests m = [] →
      (publicRequests m ++ waitingClients s).Perm
        ((move cfg backend s m).2.filterMap answeredFor ++
          waitingClients (move cfg backend s m).1) := by
    intro hidden nothing
    obtain ⟨view, replies⟩ := private_move_silent cfg backend s m sorted hidden
    have unanswered := congrArg (List.map Prod.fst) replies
    rw [List.map_filterMap] at unanswered
    have still : waitingClients s = waitingClients (cacheView s) := rfl
    rw [nothing, still, ← view]
    exact List.Perm.of_eq (congrArg (· ++ _) unanswered).symm
  cases m with
  | request client =>
    cases pub : isPublic client with
    | false => exact silent (by simp [publicPart, pub]) (by simp [publicRequests, pub])
    | true =>
      rw [publicRequests, if_pos pub]
      exact request_conserved cfg s client pub
  | fetched i =>
    cases found : s.fetches[i]? with
    | none =>
      simp only [move, found]
      exact List.Perm.refl _
    | some f =>
      have pub := sorted.1 f (List.mem_of_getElem? found)
      simp only [move, found]
      rw [step_fetched_some cfg s i _ found]
      refine (waiting_answered found).trans ?_
      cases got : received? f (backend (bereq f)) with
      | none =>
        rw [onAnswer_error cfg s i got]
        exact ((List.Perm.of_eq (toClient_seen cfg s pub _)).symm.append_right _)
      | some received =>
        rw [onAnswer_stored cfg s i got]
        exact ((List.Perm.of_eq (toClient_seen cfg s pub _)).symm.append_right _)
  | passed i => exact silent rfl rfl
  | tick d => exact List.Perm.refl _

end Accounting

end

def loginForm : Request := ⟨"POST", "/login", [("Host", "example.com")], .v4 0xCB007109#32⟩

def homeWithSession : Request :=
  { homePage with headers := homePage.headers ++ [("Cookie", "session=42")] }

def frontPage (_ : Request) : Response := ⟨200, [("Vary", "Cookie")], "front page"⟩

end LempStack.VarnishIsolation
