import LempStack.AccessRules
import LempStack.PatternSearch

/-! How an nginx server block answers a normalised URI. An exact location wins;
else the longest location that starts the URI is remembered, the pattern locations
nested in it and then those of the block are tried in order of appearance, and the
remembered one is used when none is found. Access rules are read in the chosen
location only. Index files and `try_files` fallbacks go through the selection
again, at most ten times. -/

namespace LempStack.LocationSelect
open PatternSearch AccessRules

structure RegexLocation (α : Type*) where
  caseless : Bool
  pattern : Pattern
  conf : α

def RegexLocation.found {α : Type*} (loc : RegexLocation α) (uri : List Char) : Bool :=
  search (if loc.caseless then Char.toLower else id) loc.pattern uri

inductive Location (α : Type*) where
  | exact (path : List Char) (conf : α)
  | under (path : List Char) (conf : α) (nested : List (RegexLocation α))
  | regex (loc : RegexLocation α)

section Route
variable {α : Type*}

def exactMatch : List (Location α) → List Char → Option α
  | [], _ => none
  | .exact path conf :: locs, uri => if path = uri then some conf else exactMatch locs uri
  | _ :: locs, uri => exactMatch locs uri

def regexMatch : List (RegexLocation α) → List Char → Option α
  | [], _ => none
  | loc :: locs, uri => if loc.found uri then some loc.conf else regexMatch locs uri

def regexes : List (Location α) → List (RegexLocation α)
  | [] => []
  | .regex loc :: locs => loc :: regexes locs
  | _ :: locs => regexes locs

structure Remembered (α : Type*) where
  path : List Char
  conf : α
  nested : List (RegexLocation α)

def longest : List (Location α) → List Char → Option (Remembered α)
  | [], _ => none
  | .under path conf nested :: locs, uri =>
    if path.isPrefixOf uri then
      match longest locs uri with
      | some other => if path.length < other.path.length then some other
          else some ⟨path, conf, nested⟩
      | none => some ⟨path, conf, nested⟩
    else longest locs uri
  | _ :: locs, uri => longest locs uri

def route (locs : List (Location α)) (uri : List Char) : Option α :=
  match exactMatch locs uri, longest locs uri with
  | some conf, _ => some conf
  | none, none => regexMatch (regexes locs) uri
  | none, some kept =>
    ((regexMatch kept.nested uri).or (regexMatch (regexes locs) uri)).or (some kept.conf)

theorem regexMatch_nil (uri : List Char) : regexMatch ([] : List (RegexLocation α)) uri = none :=
  rfl

theorem regexMatch_cons (loc : RegexLocation α) (locs : List (RegexLocation α))
    (uri : List Char) :
    regexMatch (loc :: locs) uri = if loc.found uri then some loc.conf else regexMatch locs uri :=
  rfl

theorem regexMatch_cons_of_found {loc : RegexLocation α} {locs : List (RegexLocation α)}
    {uri : List Char} (h : loc.found uri = true) :
    regexMatch (loc :: locs) uri = some loc.conf := by
  rw [regexMatch_cons, if_pos h]

theorem regexMatch_cons_of_not_found {loc : RegexLocation α} {locs : List (RegexLocation α)}
    {uri : List Char} (h : loc.found uri = false) :
    regexMatch (loc :: locs) uri = regexMatch locs uri := by
  rw [regexMatch_cons, h]
  rfl

theorem regexMatch_mem {locs : List (RegexLocation α)} {uri : List Char} {conf : α}
    (h : regexMatch locs uri = some conf) :
    ∃ loc ∈ locs, loc.found uri = true ∧ loc.conf = conf := by
  induction locs with
  | nil => cases h
  | cons loc locs ih =>
    rw [regexMatch_cons] at h
    split_ifs at h with found
    · exact ⟨loc, List.mem_cons_self, found, Option.some.inj h⟩
    · obtain ⟨other, mem, rest⟩ := ih h
      exact ⟨other, List.mem_cons_of_mem loc mem, rest⟩

theorem exactMatch_map_regex (locs : List (RegexLocation α)) (rest : List (Location α))
    (uri : List Char) : exactMatch (locs.map .regex ++ rest) uri = exactMatch rest uri := by
  induction locs with
  | nil => rfl
  | cons loc locs ih => simpa only [List.map_cons, List.cons_append, exactMatch] using ih

theorem regexes_map_regex (locs : List (RegexLocation α)) (rest : List (Location α)) :
    regexes (locs.map .regex ++ rest) = locs ++ regexes rest := by
  induction locs with
  | nil => rfl
  | cons loc locs ih => simp [regexes, ih]

theorem longest_map_regex (locs : List (RegexLocation α)) (rest : List (Location α))
    (uri : List Char) : longest (locs.map .regex ++ rest) uri = longest rest uri := by
  induction locs with
  | nil => rfl
  | cons loc locs ih => simpa only [List.map_cons, List.cons_append, longest] using ih

end Route

structure Uri where
  path : List Char
  rooted : ∃ rest, path = '/' :: rest

/-- A block with `location /`, pattern locations and others that are exact: an exact
location decides its URI, and the first pattern found the others. -/
theorem route_root {α : Type*} (conf : α) (locs : List (RegexLocation α))
    (exacts : List (Location α)) (uri : List Char) (noPath : longest exacts uri = none)
    (noRegex : regexes exacts = []) :
    route (.under ['/'] conf [] :: (locs.map .regex ++ exacts)) uri =
      (exactMatch exacts uri).or
        ((regexMatch locs uri).or (if ['/'].isPrefixOf uri then some conf else none)) := by
  have kept : longest (.under ['/'] conf [] :: (locs.map Location.regex ++ exacts)) uri =
      if ['/'].isPrefixOf uri then some ⟨['/'], conf, []⟩ else none := by
    simp [longest, longest_map_regex, noPath]
  simp only [route, kept, exactMatch, exactMatch_map_regex, regexes, regexes_map_regex, noRegex,
    List.append_nil]
  cases exactMatch exacts uri <;> cases ['/'].isPrefixOf uri <;> simp [regexMatch_nil]

theorem route_regexes {α : Type*} (conf : α) (locs : List (RegexLocation α)) (uri : List Char) :
    route (.under ['/'] conf [] :: locs.map .regex) uri =
      (regexMatch locs uri).or (if ['/'].isPrefixOf uri then some conf else none) := by
  have routed := route_root conf locs [] uri rfl rfl
  rwa [List.append_nil, exactMatch, Option.none_or] at routed

theorem route_regexes_exact {α : Type*} (conf : α) (locs : List (RegexLocation α))
    (path : List Char) (own : α) (uri : List Char) :
    route (.under ['/'] conf [] :: (locs.map .regex ++ [.exact path own])) uri =
      if path = uri then some own
      else (regexMatch locs uri).or (if ['/'].isPrefixOf uri then some conf else none) := by
  rw [route_root conf locs [.exact path own] uri rfl rfl]
  by_cases here : path = uri <;> simp [exactMatch, here]

inductive Fallback where
  | code (status : ℕ)
  | uri (path : List Char)
  deriving DecidableEq, Repr

inductive Part where
  | text (t : String)
  | host
  | requestUri
  deriving DecidableEq, Repr

def expand (host requestUri : String) : List Part → String
  | [] => ""
  | .text t :: parts => t ++ expand host requestUri parts
  | .host :: parts => host ++ expand host requestUri parts
  | .requestUri :: parts => requestUri ++ expand host requestUri parts

inductive Content where
  | files
  | tryFiles (last : Fallback)
  | fastcgi (tryUri : Bool) (socket : String)
  | redirect (status : ℕ) (target : List Part)
  | stubStatus
  deriving DecidableEq, Repr

structure Conf where
  rules : List Rule := []
  index : List (List Char)
  content : Content
  deriving DecidableEq, Repr

structure Server where
  names : List (List Char)
  locations : List (Location Conf)
  fallback : Conf

structure Files where
  isFile : List Char → Bool
  isDir : List Char → Bool

inductive Reply where
  | status (code : ℕ)
  | redirect (code : ℕ) (target : List Part)
  | file (uri : List Char)
  | fastcgi (socket : String) (uri : List Char)
  | stub
  deriving DecidableEq, Repr

def withSlash (uri : List Char) : List Char :=
  if uri.getLast? = some '/' then uri else uri ++ ['/']

section Serve
variable (srv : Server) (fs : Files) (client : Address)

def openDir (again : List Char → Reply) (index : List (List Char)) (dir : List Char) : Reply :=
  match index.find? fun name => fs.isFile (dir ++ name) with
  | some name => again (dir ++ name)
  | none => .status 403

def openUri (again : List Char → Reply) (index : List (List Char)) (uri : List Char) : Reply :=
  if uri.getLast? = some '/' then openDir fs again index uri
  else if fs.isFile uri then .file uri
  else if fs.isDir uri then .status 301
  else .status 404

def answer (again : List Char → Reply) (conf : Conf) (uri : List Char) : Reply :=
  match conf.content with
  -- `return` answers before the access rules are read
  | .redirect status target => .redirect status target
  | .files =>
    if permits conf.rules client then openUri fs again conf.index uri else .status 403
  | .tryFiles last =>
    if permits conf.rules client then
      if fs.isFile uri then .file uri
      else if fs.isDir uri then openDir fs again conf.index (withSlash uri)
      else match last with
        | .code status => .status status
        | .uri path => again path
    else .status 403
  | .fastcgi tryUri socket =>
    if permits conf.rules client then
      if tryUri && !fs.isFile uri then .status 404 else .fastcgi socket uri
    else .status 403
  | .stubStatus => if permits conf.rules client then .stub else .status 403

def serve : ℕ → List Char → Reply
  | 0, _ => .status 500
  | n + 1, uri => answer fs client (serve n) ((route srv.locations uri).getD srv.fallback) uri

/-- nginx gives up on the eleventh change of the URI. -/
def handle (uri : List Char) : Reply := serve srv fs client 11 uri

/-- The URI is found by a pattern location that denies everyone. -/
def MatchesDeny (uri : List Char) : Prop :=
  ∃ loc ∈ regexes srv.locations, loc.conf.rules = [.deny .all] ∧ loc.found uri = true

theorem handle_eq (uri : List Char) :
    handle srv fs client uri =
      answer fs client (serve srv fs client 10)
        ((route srv.locations uri).getD srv.fallback) uri := rfl

theorem handle_root_regexes {conf : Conf} (locs : List (RegexLocation Conf))
    (block : srv.locations = .under ['/'] conf [] :: locs.map .regex) (uri : Uri) :
    handle srv fs client uri.path =
      answer fs client (serve srv fs client 10) ((regexMatch locs uri.path).getD conf)
        uri.path := by
  obtain ⟨rest, split⟩ := uri.rooted
  have rooted : ['/'].isPrefixOf uri.path = true := by simp [split]
  rw [handle_eq, block, route_regexes, if_pos rooted]
  cases regexMatch locs uri.path <;> rfl

theorem answer_refused {again : List Char → Reply} {conf : Conf} {uri : List Char}
    (refused : permits conf.rules client = false)
    (noReturn : ∀ status target, conf.content ≠ .redirect status target) :
    answer fs client again conf uri = .status 403 := by
  unfold answer
  cases content : conf.content with
  | redirect status target => exact absurd content (noReturn status target)
  | _ => simp [refused]

/-- Invariant rule: if no location hands a URI over to FastCGI for this client,
no chain of index files and fallbacks ends there. -/
theorem serve_ne_fastcgi
    (guard : ∀ uri tryUri socket,
      ((route srv.locations uri).getD srv.fallback).content = .fastcgi tryUri socket →
      permits ((route srv.locations uri).getD srv.fallback).rules client = false)
    (n : ℕ) (uri script : List Char) (sock : String) :
    serve srv fs client n uri ≠ .fastcgi sock script := by
  induction n generalizing uri with
  | zero => simp [serve]
  | succ n ih =>
    have dir : ∀ index d, openDir fs (serve srv fs client n) index d ≠ .fastcgi sock script := by
      intro index d
      unfold openDir
      split
      · exact ih _
      · simp
    rw [serve, answer]
    cases content : ((route srv.locations uri).getD srv.fallback).content with
    | redirect status target => simp
    | stubStatus => split_ifs <;> simp
    | files =>
      unfold openUri
      split_ifs <;> first | exact dir _ _ | simp
    | tryFiles last =>
      cases last <;> split_ifs <;> first | exact dir _ _ | exact ih _ | simp
    | fastcgi tryUri socket => simp [guard uri tryUri socket content]

/-- A file is sent only from a location that lets the client in, chosen for the URI of
the file itself, whatever index files and fallbacks led there. -/
theorem serve_file_permitted (n : ℕ) {uri path : List Char}
    (sent : serve srv fs client n uri = .file path) :
    permits ((route srv.locations path).getD srv.fallback).rules client = true := by
  induction n generalizing uri with
  | zero => simp [serve] at sent
  | succ n ih =>
    have dir : ∀ {index d}, openDir fs (serve srv fs client n) index d = .file path →
        permits ((route srv.locations path).getD srv.fallback).rules client = true := by
      intro index d opened
      unfold openDir at opened
      split at opened
      · exact ih opened
      · cases opened
    rw [serve, answer] at sent
    cases allowed : permits ((route srv.locations uri).getD srv.fallback).rules client with
    | false =>
      cases content : ((route srv.locations uri).getD srv.fallback).content <;>
        simp [content, allowed] at sent
    | true =>
      cases content : ((route srv.locations uri).getD srv.fallback).content with
      | redirect status target => simp [content] at sent
      | stubStatus => simp [content, allowed] at sent
      | fastcgi tryUri socket =>
        simp only [content, allowed, if_true] at sent
        split_ifs at sent
      | files =>
        simp only [content, allowed, if_true, openUri] at sent
        split_ifs at sent
        · exact dir sent
        · cases sent
          exact allowed
      | tryFiles last =>
        simp only [content, allowed, if_true] at sent
        split_ifs at sent
        · cases sent
          exact allowed
        · exact dir sent
        · cases last with
          | code status => cases sent
          | uri other => exact ih sent

end Serve

def hostName (host : List Char) : List Char :=
  let bare := match host with
    | '[' :: rest => '[' :: rest.takeWhile (· ≠ ']') ++ [']']
    | _ => host.takeWhile (· ≠ ':')
  let bare := if bare.getLast? = some '.' then bare.dropLast else bare
  bare.map Char.toLower

def Server.isNamed (srv : Server) (host : List Char) : Bool :=
  srv.names.any fun name => name.map Char.toLower == hostName host

/-- The first block that lists the name, else the first block of the port. -/
def chooseServer (first : Server) (others : List Server) (host : List Char) : Server :=
  ((first :: others).find? (·.isNamed host)).getD first

theorem chooseServer_pair (first second : Server) (host : List Char) :
    chooseServer first [second] host =
      if !first.isNamed host && second.isNamed host then second else first := by
  cases hf : first.isNamed host <;> cases hs : second.isNamed host <;>
    simp [chooseServer, hf, hs]

end LempStack.LocationSelect
