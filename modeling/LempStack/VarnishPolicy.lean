import LempStack.AccessRules
import LempStack.HeaderList
import LempStack.PatternSearch
import Mathlib.Data.Rat.Defs
import Mathlib.Algebra.Order.Ring.Rat

/-! The subroutines of `default.vcl.j2`, statement by statement. A subroutine that
ends in `return` is a function to the action it returns; the built-in subroutine of
the same name is never reached. Varnish joins the fields of Cache-Control and of Vary
in a response before the policy sees it. The template variables and what Varnish
itself computes (address texts, names in the acl, the lifetime it reads off a
response, what it sends for a conditional or a Range request) form the
configuration. -/

namespace LempStack.VarnishPolicy
open AccessRules HeaderList PatternSearch

structure Request where
  method : String
  url : String
  headers : Headers
  clientIp : Address
  deriving DecidableEq, Repr

structure Response where
  status : ℕ
  headers : Headers
  body : String
  deriving DecidableEq, Repr

-- `originTtl` is `beresp.ttl` as Varnish sets it ahead of `vcl_backend_response`; `transmit` the
-- status and body sent at a time for a request and its response; `errorPage` what the built-in
-- `vcl_backend_error` makes
structure Config where
  varnishTtl : ℚ
  varnishGrace : ℚ
  resolve : String → List Address
  ipText : Address → String
  originTtl : Response → ℚ
  defaultKeep : ℚ
  transmit : ℚ → Request → Response → ℕ × String
  errorPage : Request → Response

def aclPurge : List String := ["localhost", "127.0.0.1", "::1"]

inductive RecvAction where
  | pass
  | hash
  | purge
  | synth (status : ℕ) (reason : String)
  deriving DecidableEq, Repr

section Recv
variable (cfg : Config)

def inPurgeAcl (ip : Address) : Bool := aclPurge.any fun name => (cfg.resolve name).contains ip

def forwardedFor (req : Request) : String :=
  match get? req.headers "X-Forwarded-For" with
  | some chain => chain ++ ", " ++ cfg.ipText req.clientIp
  | none => cfg.ipText req.clientIp

def addForwardedFor (req : Request) : Request :=
  { req with headers := put req.headers "X-Forwarded-For" (forwardedFor cfg req) }

def dropCookies (req : Request) : Request :=
  { req with headers := unset (unset req.headers "Cookie") "Cache-Control" }

def vclRecv (restarts : ℕ) (client : Request) : Request × RecvAction :=
  let req := if restarts = 0 then addForwardedFor cfg client else client
  if req.method ≠ "GET" ∧ req.method ≠ "HEAD" then (req, .pass)
  else if req.method = "PURGE" then
    if !inPurgeAcl cfg req.clientIp then (req, .synth 405 "此IP不允许清除缓存")
    else (req, .purge)
  else if (get? req.headers "Authorization").isSome then (req, .pass)
  else (dropCookies req, .hash)

def isPublic (req : Request) : Bool :=
  (req.method == "GET" || req.method == "HEAD") && (get? req.headers "Authorization").isNone

@[simp] theorem addForwardedFor_method (req : Request) :
    (addForwardedFor cfg req).method = req.method := rfl

theorem addForwardedFor_authorization (req : Request) :
    get? (addForwardedFor cfg req).headers "Authorization" = get? req.headers "Authorization" :=
  get?_put_of_ne _ _ (by decide)

/-- The method test stands first, so only `hash` and `pass` are ever returned. -/
theorem vclRecv_eq (req : Request) :
    vclRecv cfg 0 req =
      if isPublic req then (dropCookies (addForwardedFor cfg req), .hash)
      else (addForwardedFor cfg req, .pass) := by
  by_cases other : req.method ≠ "GET" ∧ req.method ≠ "HEAD"
  · simp [vclRecv, isPublic, other]
  · have read : req.method = "GET" ∨ req.method = "HEAD" := by
      by_contra neither
      exact other (not_or.mp neither)
    have notPurge : req.method ≠ "PURGE" := by
      rcases read with h | h <;> rw [h] <;> decide
    have listed : (req.method == "GET" || req.method == "HEAD") = true := by simpa using read
    simp only [vclRecv, isPublic, if_true, addForwardedFor_method, other, notPurge, if_false,
      addForwardedFor_authorization, listed, Bool.true_and]
    cases get? req.headers "Authorization" <;> simp

def lookupRequest (req : Request) : Request := dropCookies (addForwardedFor cfg req)

theorem vclRecv_public {req : Request} (h : isPublic req = true) :
    vclRecv cfg 0 req = (lookupRequest cfg req, .hash) := by
  rw [vclRecv_eq, if_pos h]
  rfl

theorem vclRecv_private {req : Request} (h : isPublic req = false) :
    vclRecv cfg 0 req = (addForwardedFor cfg req, .pass) := by
  simp [vclRecv_eq, h]

theorem lookupRequest_method (req : Request) : (lookupRequest cfg req).method = req.method := rfl

theorem lookupRequest_authorization (req : Request) :
    get? (lookupRequest cfg req).headers "Authorization" = get? req.headers "Authorization" := by
  rw [← addForwardedFor_authorization cfg req]
  simp only [lookupRequest, dropCookies]
  rw [get?_unset_of_ne _ (by decide), get?_unset_of_ne _ (by decide)]

theorem lookupRequest_dropCookies (req : Request) :
    lookupRequest cfg (dropCookies req) = lookupRequest cfg req := by
  have chain : forwardedFor cfg (dropCookies req) = forwardedFor cfg req := by
    simp only [forwardedFor, dropCookies]
    rw [get?_unset_of_ne _ (by decide), get?_unset_of_ne _ (by decide)]
  have twice : ∀ hs, unset (unset (unset (unset hs "Cookie") "Cache-Control") "Cookie")
      "Cache-Control" = unset (unset hs "Cookie") "Cache-Control" := by
    intro hs
    rw [unset_comm (unset hs "Cookie") "Cache-Control" "Cookie", unset_idem, unset_idem]
  simp only [lookupRequest, addForwardedFor, chain]
  simp only [dropCookies]
  rw [unset_put_of_ne _ _ (by decide), unset_put_of_ne _ _ (by decide),
    unset_put_of_ne _ _ (by decide), unset_put_of_ne _ _ (by decide), twice]

theorem isPublic_addForwardedFor (req : Request) :
    isPublic (addForwardedFor cfg req) = isPublic req := by
  simp only [isPublic, addForwardedFor_method, addForwardedFor_authorization]

theorem isPublic_dropCookies (req : Request) : isPublic (dropCookies req) = isPublic req := by
  simp only [isPublic, dropCookies]
  rw [get?_unset_of_ne _ (by decide), get?_unset_of_ne _ (by decide)]

theorem isPublic_lookupRequest (req : Request) :
    isPublic (lookupRequest cfg req) = isPublic req := by
  rw [lookupRequest, isPublic_dropCookies, isPublic_addForwardedFor]

end Recv

section BackendResponse
variable (cfg : Config)

structure Beresp where
  response : Response
  ttl : ℚ
  grace : ℚ
  uncacheable : Bool
  deriving DecidableEq, Repr

def saysPrivate (resp : Response) : Bool :=
  match joined? resp.headers "Cache-Control" with
  | some value => search id (lit "private".toList) value.toList
  | none => false

def setsCookie (resp : Response) : Bool := (get? resp.headers "Set-Cookie").isSome

def vclBackendResponse (fetched : Beresp) : Beresp :=
  let beresp := { fetched with ttl := cfg.varnishTtl, grace := cfg.varnishGrace }
  if saysPrivate beresp.response then { beresp with uncacheable := true }
  else if beresp.ttl ≤ 0 ∨ setsCookie beresp.response then { beresp with uncacheable := true }
  else beresp

def refused (resp : Response) : Bool := saysPrivate resp || setsCookie resp

/-- The lifetime test reads the value assigned four lines above it. -/
theorem vclBackendResponse_uncacheable (positive : 0 < cfg.varnishTtl) (fetched : Beresp)
    (cacheable : fetched.uncacheable = false) :
    (vclBackendResponse cfg fetched).uncacheable = refused fetched.response := by
  have notExpired : ¬ cfg.varnishTtl ≤ 0 := not_le.mpr positive
  cases marked : saysPrivate fetched.response <;> cases cookie : setsCookie fetched.response <;>
    simp [vclBackendResponse, refused, marked, cookie, notExpired, cacheable]

theorem vclBackendResponse_ttl (fetched : Beresp) :
    (vclBackendResponse cfg fetched).ttl = cfg.varnishTtl := by
  simp only [vclBackendResponse]
  split_ifs <;> rfl

theorem vclBackendResponse_grace (fetched : Beresp) :
    (vclBackendResponse cfg fetched).grace = cfg.varnishGrace := by
  simp only [vclBackendResponse]
  split_ifs <;> rfl

theorem vclBackendResponse_response (fetched : Beresp) :
    (vclBackendResponse cfg fetched).response = fetched.response := by
  simp only [vclBackendResponse]
  split_ifs <;> rfl

end BackendResponse

def vclDeliver (hits : ℕ) : String := if hits > 0 then "HIT" else "MISS"

def exampleConfig : Config where
  varnishTtl := 120
  varnishGrace := 300
  resolve name := if name = "::1" then [loopback6] else [loopback4]
  ipText _ := "203.0.113.5"
  originTtl _ := 120
  defaultKeep := 10
  transmit _ req resp := (resp.status, if req.method = "HEAD" then "" else resp.body)
  errorPage _ := ⟨503, [], "Backend fetch failed"⟩

def homePage : Request := ⟨"GET", "/", [("Host", "example.com")], .v4 0xCB007105#32⟩

end LempStack.VarnishPolicy
