import LempStack.VarnishMachine

/-! A reply from the cache can be traced to the answer of the backend that it repeats, and
that answer is not older than lifetime and grace allow. Where the answer was a 304 it renewed
the object, whose body may be older. The clock of a run is the sum of its ticks. -/

namespace LempStack.VarnishReplies
open HeaderList VarnishPolicy VarnishMachine EventTrace

section
variable (cfg : Config)

def waited : Event → ℚ
  | .tick d => max d 0
  | _ => 0

def elapsed (es : List Event) : ℚ := (es.map waited).sum

theorem step_now (s : State) (e : Event) : (step cfg s e).1.now = s.now + waited e := by
  cases e with
  | request client =>
    cases pub : isPublic client with
    | false => rw [step_private cfg s pub]; exact (add_zero _).symm
    | true =>
      rw [step_public cfg s pub]
      cases lookup s.cache (lookupRequest cfg client) s.now <;> exact (add_zero _).symm
  | fetched i resp =>
    cases found : s.fetches[i]? with
    | none => rw [step_fetched_none cfg s i resp found]; exact (add_zero _).symm
    | some f =>
      rw [step_fetched_some cfg s i resp found]
      cases got : received? f resp with
      | none => rw [onAnswer_error cfg s i got]; exact (add_zero _).symm
      | some received => rw [onAnswer_stored cfg s i got]; exact (add_zero _).symm
  | passed i resp =>
    rw [step_passed]
    exact (add_zero _).symm
  | tick d => rfl

theorem finalState_now (s : State) (es : List Event) :
    (finalState (step cfg) s es).now = s.now + elapsed es := by
  induction es generalizing s with
  | nil => exact (add_zero _).symm
  | cons e es ih =>
    rw [finalState, ih, step_now, elapsed, elapsed, List.map_cons, List.sum_cons, add_assoc]

def StoredIn (es : List Event) (o : Object) : Prop :=
  ∃ before i resp later f received, es = before ++ .fetched i resp :: later ∧
    (finalState (step cfg) empty before).fetches[i]? = some f ∧
    received? f resp = some received ∧
    o = store cfg (finalState (step cfg) empty before) f resp received

theorem StoredIn.concat {es : List Event} {o : Object} (stored : StoredIn cfg es o) (e : Event) :
    StoredIn cfg (es ++ [e]) o := by
  obtain ⟨before, i, resp, later, f, received, rfl, found, got, made⟩ := stored
  exact ⟨before, i, resp, later ++ [e], f, received, by simp, found, got, made⟩

theorem cache_stored (es : List Event) :
    ∀ o ∈ (finalState (step cfg) empty es).cache, StoredIn cfg es o := by
  induction es using List.reverseRecOn with
  | nil => exact List.forall_mem_nil _
  | append_singleton es e ih =>
    intro o member
    rw [finalState_append] at member
    rcases step_cases cfg (finalState (step cfg) empty es) e with
      ⟨same, -⟩ | ⟨i, resp, f, received, rfl, found, got, next⟩
    · rw [finalState, finalState, same] at member
      exact (ih o member).concat cfg e
    · rw [finalState, finalState, next] at member
      rcases List.mem_cons.mp member with rfl | old
      · exact ⟨es, i, resp, [], f, received, rfl, found, got, rfl⟩
      · exact (ih o old).concat cfg _

/-- A reply from the cache is what Varnish sends for the backend's answer to a fetch for the
same URL and Host; the answer, or the 304 that renewed it, came less than lifetime and grace
ago, and the reply says that it is a hit. -/
theorem cached_reply_fresh {es : List Event} {e : Event} {rep : Reply}
    (out : rep ∈ (step cfg (finalState (step cfg) empty es) e).2) (hit : rep.served ≠ none) :
    rep.xCache = some "HIT" ∧ ∃ before i resp later f received,
      es = before ++ .fetched i resp :: later ∧
      (finalState (step cfg) empty before).fetches[i]? = some f ∧
      received? f resp = some received ∧ hashKey f.request = hashKey rep.request ∧
      (rep.status, rep.body) = cfg.transmit (elapsed es) rep.request received ∧
      elapsed later < cfg.varnishTtl + max cfg.varnishGrace 0 := by
  obtain ⟨client, o, -, served, rfl⟩ := step_served cfg _ e rep out hit
  obtain ⟨before, i, resp, later, f, received, split, found, got, made⟩ :=
    cache_stored cfg es o served.found.1
  have clock : (finalState (step cfg) empty es).now = elapsed es := by
    rw [finalState_now]
    exact zero_add _
  refine ⟨rfl, before, i, resp, later, f, received, split, found, got, ?_, ?_, ?_⟩
  · rw [fromCache, deliver, ← served.key, made]
    rfl
  · rw [fromCache, deliver, clock, made, store_response]
  · have young := served.fresh
    have spent : elapsed (.fetched i resp :: later) = elapsed later := zero_add _
    rw [made, store_expires, store_grace, split, finalState_append, finalState_now, spent] at young
    linarith

def homeAnswer : Response := ⟨200, [], "home"⟩

theorem grace_reply_fresh : ∃ rep ∈ (step exampleConfig (finalState (step exampleConfig) empty
      [.request homePage, .fetched 0 homeAnswer, .tick 200]) (.request homePage)).2,
    rep.xCache = some "HIT" := by
  have out : (⟨lookupRequest exampleConfig homePage, 200, "home", some "HIT", some 0⟩ : Reply) ∈
      (step exampleConfig (finalState (step exampleConfig) empty
        [.request homePage, .fetched 0 homeAnswer, .tick 200]) (.request homePage)).2 := by
    decide +kernel
  exact ⟨_, out, (cached_reply_fresh exampleConfig out (Option.some_ne_none 0)).1⟩

end

end LempStack.VarnishReplies
