import LempStack.VarnishMachine

/-! PURGE. The method test of `vcl_recv` stands before the PURGE branch and returns
`pass` for every method but GET and HEAD, so a PURGE goes to the backend whoever
sends it and removes nothing. What the policy promises of it is then kept only for
a client of the acl, and only when nothing was left to purge. -/

namespace LempStack.VarnishPurge
open HeaderList VarnishPolicy VarnishMachine EventTrace

def Purged (cfg : Config) (s : State) (r : Request) : Prop :=
  ∀ es, ∀ rep ∈ outputs (step cfg) (step cfg s (.request r)).1 es, ∀ id,
    rep.served = some id → hashKey rep.request = hashKey r → s.nextId ≤ id

def Rejected (cfg : Config) (s : State) (r : Request) : Prop :=
  (step cfg s (.request r)).1 = s ∧
    ∃ rep, (step cfg s (.request r)).2 = [rep] ∧ rep.status = 405

def PurgeLaw (cfg : Config) (s : State) (r : Request) : Prop :=
  (inPurgeAcl cfg r.clientIp = true → Purged cfg s r) ∧
    (inPurgeAcl cfg r.clientIp = false → Rejected cfg s r)

section
variable (cfg : Config)

theorem purge_isPublic {r : Request} (purge : r.method = "PURGE") : isPublic r = false := by
  simp [isPublic, purge]

theorem step_purge (s : State) {r : Request} (purge : r.method = "PURGE") :
    step cfg s (.request r) = ({ s with passes := s.passes ++ [addForwardedFor cfg r] }, []) :=
  step_private cfg s (purge_isPublic purge)

theorem purge_not_rejected (s : State) {r : Request} (purge : r.method = "PURGE") :
    ¬ Rejected cfg s r := by
  rintro ⟨-, rep, replied, -⟩
  simp [step_purge cfg s purge] at replied

theorem find?_grown {p : Object → Bool} {new old : List Object} {o : Object}
    (h : (new ++ old).find? p = some o) : o ∈ new ∨ old.find? p = some o := by
  rw [List.find?_append] at h
  cases fresh : new.find? p with
  | some q =>
    rw [fresh, Option.some_or] at h
    cases h
    exact .inl (List.mem_of_find?_eq_some fresh)
  | none =>
    rw [fresh, Option.none_or] at h
    exact .inr h

theorem servedFrom_append {new old : List Object} {req : Request} {now : ℚ} {o : Object}
    (h : ServedFrom (new ++ old) req now o) : o ∈ new ∨ ServedFrom old req now o := by
  rcases h with hit | grace
  · obtain ⟨living, unmarked⟩ := lookup_hit.mp hit
    exact (find?_grown living).imp id fun found => .inl (lookup_hit.mpr ⟨found, unmarked⟩)
  · obtain ⟨dead, newest, shown, young⟩ := lookup_graceHit.mp grace
    rw [List.find?_append] at dead
    exact (find?_grown newest).imp id fun found =>
      .inr (lookup_graceHit.mpr ⟨(Option.or_eq_none_iff.mp dead).2, found, shown, young⟩)

/-- `u` comes after `s`: the clock has not gone back, and all that was stored since
is in front and has later numbers. -/
def Later (s u : State) : Prop :=
  s.now ≤ u.now ∧ s.nextId ≤ u.nextId ∧
    ∃ new, u.cache = new ++ s.cache ∧ ∀ o ∈ new, s.nextId ≤ o.id

theorem step_later (s u : State) (e : Event) (h : Later s u) : Later s (step cfg u e).1 := by
  obtain ⟨clock, ids, new, grown, fresh⟩ := h
  rcases step_cases cfg u e with ⟨cache, sameIds, forward⟩ | ⟨i, resp, f, received, -, -, -, next⟩
  · refine ⟨le_trans clock forward, ?_, new, ?_, fresh⟩
    · rw [sameIds]
      exact ids
    · rw [cache, grown]
  · rw [next]
    refine ⟨clock, Nat.le_succ_of_le ids, store cfg u f resp received :: new, ?_, ?_⟩
    · rw [List.cons_append, grown]
    · intro o ho
      rcases List.mem_cons.mp ho with rfl | old
      · exact ids
      · exact fresh o old

theorem later_served (s u : State) (h : Later s u) (e : Event) (rep : Reply)
    (out : rep ∈ (step cfg u e).2) (id : ℕ) (hit : rep.served = some id) :
    s.nextId ≤ id ∨ ∃ o, CanBeServed cfg s o ∧ o.key = hashKey rep.request := by
  obtain ⟨clock, -, new, grown, fresh⟩ := h
  obtain ⟨client, o, pub, served, rfl⟩ := step_served cfg u e rep out (by simp [hit])
  rw [grown] at served
  rcases servedFrom_append served with young | old
  · exact .inl (Option.some.inj hit ▸ fresh o young)
  · exact .inr ⟨o, ⟨client, u.now, pub, clock, old⟩, old.key⟩

theorem purged_of_nothing_served (s : State) {r : Request} (purge : r.method = "PURGE")
    (nothing : ∀ o, CanBeServed cfg s o → o.key ≠ hashKey r) : Purged cfg s r := by
  intro es rep out id hit sameKey
  have start : Later s (step cfg s (.request r)).1 := by
    rw [step_purge cfg s purge]
    exact ⟨le_refl _, le_refl _, [], rfl, by simp⟩
  have newer := outputs_of_step (step cfg) (step_later cfg s)
    (fun u e h rep out => later_served cfg s u h e rep out) start es rep out id hit
  refine newer.resolve_right ?_
  rintro ⟨o, served, key⟩
  exact nothing o served (key.trans sameKey)

theorem served_after_purge (s : State) (traced : Traced cfg s) {r : Request}
    (purge : r.method = "PURGE") (o : Object) (served : CanBeServed cfg s o)
    (sameKey : o.key = hashKey r) : ¬ Purged cfg s r := by
  intro purged
  obtain ⟨client, now, pub, later, from?⟩ := served
  have clock : s.now + max (now - s.now) 0 = now := by
    rw [max_eq_left (sub_nonneg.mpr later), add_sub_cancel]
  have asked : hashKey (lookupRequest cfg client) = hashKey r := by
    rw [← from?.key, sameKey]
  have out : fromCache cfg { s with now := now } (lookupRequest cfg client) o ∈
      outputs (step cfg) (step cfg s (.request r)).1
        [.tick (now - s.now), .request client] := by
    rw [step_purge cfg s purge, outputs_cons, outputs_cons, outputs_nil, step_public cfg _ pub]
    simp only [step, clock]
    rcases from? with found | found <;> rw [found] <;> simp [onLookup, fromCache]
  have newer := purged _ _ out o.id rfl asked
  have older := traced.object_old o from?.found.1
  omega

/-- In a reachable state a PURGE keeps what the policy promises of it exactly when
its client is in the acl and no object under its key can be served any more. -/
theorem purge_law_iff (s : State) (reach : Reachable (step cfg) empty s) (r : Request)
    (purge : r.method = "PURGE") :
    PurgeLaw cfg s r ↔
      inPurgeAcl cfg r.clientIp = true ∧ ∀ o, CanBeServed cfg s o → o.key ≠ hashKey r := by
  have traced := reachable_traced cfg reach
  constructor
  · rintro ⟨listed, unlisted⟩
    have inAcl : inPurgeAcl cfg r.clientIp = true := by
      by_contra outside
      exact purge_not_rejected cfg s purge (unlisted (Bool.not_eq_true _ ▸ outside))
    exact ⟨inAcl, fun o served key => served_after_purge cfg s traced purge o served key
      (listed inAcl)⟩
  · rintro ⟨inAcl, nothing⟩
    refine ⟨fun _ => purged_of_nothing_served cfg s purge nothing, ?_⟩
    intro outside
    simp [inAcl] at outside

end

def purgeHome : Request := ⟨"PURGE", "/", [("Host", "example.com")], AccessRules.loopback4⟩

def newsPage : Request := { homePage with url := "/news" }

def stalePage : Response := ⟨200, [], "old page"⟩

def agedState : State :=
  finalState (step exampleConfig) empty
    [.request homePage, .fetched 0 stalePage, .tick 500, .request newsPage, .fetched 0 stalePage]

theorem purge_of_aged_page :
    agedState.cache.length = 2 ∧ PurgeLaw exampleConfig agedState purgeHome := by
  refine ⟨by decide +kernel,
    (purge_law_iff exampleConfig agedState ⟨_, rfl⟩ purgeHome rfl).mpr ⟨by decide, ?_⟩⟩
  rintro o ⟨client, now, -, later, served⟩ key
  have past : ∀ o ∈ agedState.cache, o.key = hashKey purgeHome →
      o.expires + max o.grace 0 ≤ agedState.now := by decide +kernel
  exact absurd (served.fresh.trans_le (past o served.found.1 key)) (not_lt.mpr later)

theorem old_page_after_purge :
    ¬ ∀ (cfg : Config) (s : State), Reachable (step cfg) empty s → ∀ r : Request,
      r.method = "PURGE" → PurgeLaw cfg s r := by
  intro all
  let s := finalState (step exampleConfig) empty [.request homePage, .fetched 0 stalePage]
  have law := (all exampleConfig s ⟨_, rfl⟩ purgeHome rfl).1 (by decide)
  have out : deliver (lookupRequest exampleConfig homePage) (200, "old page") 1 (some 0) ∈
      outputs (step exampleConfig) (step exampleConfig s (.request purgeHome)).1
        [.request homePage] := by decide +kernel
  have newer : s.nextId ≤ 0 := law _ _ out 0 rfl (by decide)
  exact absurd newer (by decide)

end LempStack.VarnishPurge
