import LempStack.VarnishMachine

/-! What may enter the shared cache. The requests that get there are right in every
run: GET or HEAD without Authorization, and no response with Set-Cookie is stored.
The rest of the policy holds for the runs whose backend answers do not need it: the
test for `private` sees one spelling, `no-store` is not looked for, and the origin
lifetime is overwritten before it is tested. An answer is judged as Varnish takes it
in, with repeated Cache-Control fields joined and a 304 merged with what it renews. -/

namespace LempStack.VarnishAdmission
open HeaderList VarnishPolicy VarnishMachine EventTrace

def forbidsSharing (resp : Response) : Bool :=
  match joined? resp.headers "Cache-Control" with
  | some value => hasDirective value "private" || hasDirective value "no-store"
  | none => false

structure Admissible (o : Object) : Prop where
  method : o.request.method = "GET" ∨ o.request.method = "HEAD"
  authorization : get? o.request.headers "Authorization" = none
  cookie : setsCookie o.response = false
  sharing : forbidsSharing o.response = false
  lifetime : 0 < o.originTtl

def CacheAdmissible (cfg : Config) (s : State) : Prop := ∀ o, CanBeServed cfg s o → Admissible o

/-- An answer to a fetch under way is kept from being served by the tests that work, or
it needs none of the others. -/
def AnswersWell (cfg : Config) (s : State) (e : Event) : Prop :=
  ∀ i resp f received, e = .fetched i resp → s.fetches[i]? = some f →
    received? f resp = some received →
      marked received = true ∨ forbidsSharing received = false ∧ 0 < cfg.originTtl resp

section
variable (cfg : Config)

theorem isPublic_iff (req : Request) :
    isPublic req = true ↔
      (req.method = "GET" ∨ req.method = "HEAD") ∧ get? req.headers "Authorization" = none := by
  simp [isPublic]

theorem stored_object_public (s : State) (h : Traced cfg s) (o : Object) (ho : o ∈ s.cache) :
    (o.request.method = "GET" ∨ o.request.method = "HEAD") ∧
      get? o.request.headers "Authorization" = none := by
  obtain ⟨client, pub, from?⟩ := h.object_from o ho
  rw [from?, lookupRequest_method, lookupRequest_authorization]
  exact (isPublic_iff client).mp pub

theorem stored_object_no_cookie (positive : 0 < cfg.varnishTtl) (s : State) (h : Traced cfg s)
    (o : Object) (ho : o ∈ s.cache) (shown : o.hitForMiss = false) :
    setsCookie o.response = false := by
  have unmarked : marked o.response = false := by
    rw [← h.object_marked positive o ho]
    exact shown
  exact (Bool.or_eq_false_iff.mp (Bool.or_eq_false_iff.mp unmarked).1).2

def Inv (s : State) : Prop :=
  Traced cfg s ∧ ∀ o ∈ s.cache, o.hitForMiss = false → Admissible o

theorem step_inv (positive : 0 < cfg.varnishTtl) (s : State) (e : Event) (h : Inv cfg s)
    (well : AnswersWell cfg s e) : Inv cfg (step cfg s e).1 := by
  have traced := step_traced cfg s e h.1
  refine ⟨traced, ?_⟩
  rcases step_cases cfg s e with ⟨cache, -⟩ | ⟨i, resp, f, received, fetched, waiting, got, next⟩
  · rw [cache]
    exact h.2
  · intro o ho shown
    have cookie := stored_object_no_cookie cfg positive _ traced o ho shown
    obtain ⟨method, authorization⟩ := stored_object_public cfg _ traced o ho
    rw [next] at ho
    rcases List.mem_cons.mp ho with rfl | old
    · have fit := well i resp f received fetched waiting got
      rw [store_hitForMiss cfg _ _ _ _ positive] at shown
      obtain ⟨sharing, lifetime⟩ := fit.resolve_left (by simp [shown])
      refine ⟨method, authorization, cookie, ?_, lifetime⟩
      rwa [store_response]
    · exact h.2 o old shown

theorem lookup_store (positive : 0 < cfg.varnishTtl) (s : State) (f : Fetch)
    (resp : Response) {received : Response} (kept : marked received = false) :
    lookup (store cfg s f resp received :: s.cache) f.request s.now =
      .hit (store cfg s f resp received) := by
  have living : s.now < (store cfg s f resp received).expires := by
    rw [store_expires]
    exact lt_add_of_pos_right _ positive
  have found : answers f.request (store cfg s f resp received) = true := by
    simp [answers, store]
  have shown := store_hitForMiss cfg s f resp received positive
  rw [kept] at shown
  exact lookup_hit.mpr ⟨List.find?_cons_of_pos (by simp [alive, found, living]), shown⟩

theorem admissible_answersWell (positive : 0 < cfg.varnishTtl) (s : State) (e : Event)
    (h : Traced cfg s) (after : CacheAdmissible cfg (step cfg s e).1) : AnswersWell cfg s e := by
  intro i resp f received fetched waiting got
  cases kept : marked received with
  | true => exact .inl rfl
  | false =>
    right
    obtain ⟨client, pub, from?⟩ := h.fetch_from f (List.mem_of_getElem? waiting)
    rw [fetched, step_fetched_some cfg s i resp waiting, onAnswer_stored cfg s i got] at after
    have hit := lookup_store cfg positive s f resp kept
    rw [from?] at hit
    have admissible := after (store cfg s f resp received)
      ⟨client, s.now, pub, le_refl _, .inl hit⟩
    have sharing := admissible.sharing
    rw [store_response] at sharing
    exact ⟨sharing, admissible.lifetime⟩

/-- In a run from the empty cache every object that can be served is admissible,
in every state, exactly when every answer to a fetch is one the policy handles. -/
theorem cache_admissible_iff (positive : 0 < cfg.varnishTtl) (es : List Event) :
    Throughout (step cfg) (CacheAdmissible cfg) empty es ↔
      Along (step cfg) (AnswersWell cfg) empty es := by
  constructor
  · exact along_of_throughout (step cfg) (step_traced cfg)
      (admissible_answersWell cfg positive) (empty_traced cfg)
  · intro well
    have start : Inv cfg empty := ⟨empty_traced cfg, by simp [empty]⟩
    refine (throughout_of_step (step cfg) (step_inv cfg positive) start well).mono _ ?_
    rintro s inv o ⟨client, now, -, -, served⟩
    exact inv.2 o served.found.1 served.found.2.1

end

def noStorePage : Response := ⟨200, [("Cache-Control", "no-store")], "account page"⟩

def plainPage : Response := ⟨200, [("Cache-Control", "max-age=60"), ("ETag", "1")], "front page"⟩

def unchanged : Response := ⟨304, [("Cache-Control", "public")], ""⟩

theorem exampleConfig_positive : 0 < exampleConfig.varnishTtl := by
  decide

theorem public_page_admissible :
    Throughout (step exampleConfig) (CacheAdmissible exampleConfig) empty
      [.request homePage, .fetched 0 plainPage, .tick 200, .request homePage,
        .fetched 0 unchanged] := by
  refine (cache_admissible_iff exampleConfig exampleConfig_positive _).mpr
    ⟨?_, ?_, ?_, ?_, ?_, trivial⟩ <;> intro i resp f received fetched <;> cases fetched
  · intro waiting got
    have first : some f = some ⟨lookupRequest exampleConfig homePage, true, none⟩ := waiting.symm
    cases first
    cases got
    exact .inr (by decide)
  · intro waiting got
    have second : some f = some ⟨lookupRequest exampleConfig homePage, false, some plainPage⟩ :=
      waiting.symm.trans (by decide +kernel)
    cases second
    cases got
    exact .inr (by decide)

theorem no_store_page_served :
    ¬ ∀ (cfg : Config) (es : List Event), 0 < cfg.varnishTtl →
      Throughout (step cfg) (CacheAdmissible cfg) empty es := by
  intro all
  have run := all exampleConfig [.request homePage, .fetched 0 noStorePage] exampleConfig_positive
  have well := admissible_answersWell exampleConfig exampleConfig_positive _ _
    (step_traced exampleConfig empty (.request homePage) (empty_traced exampleConfig)) run.2.2
  have fit := well 0 noStorePage ⟨lookupRequest exampleConfig homePage, true, none⟩ noStorePage
    rfl rfl rfl
  have kept : marked noStorePage = false := by decide
  have forbidden : forbidsSharing noStorePage = true := by decide
  rw [kept, forbidden] at fit
  simp at fit

end LempStack.VarnishAdmission
