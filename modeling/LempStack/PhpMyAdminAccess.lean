import LempStack.DenyLocations

/-! Who reaches the phpMyAdmin scripts when remote access is off. The rendered
file has two server blocks for the same directory. The address list stands in the
first one only; the block of `localhost` hands the scripts to FastCGI for every
client. -/

namespace LempStack.PhpMyAdminAccess
open PatternSearch AccessRules LocationSelect SiteTemplates DenyLocations

section DomainBlock
variable (v : PmaVars) (fs : Files) (client : Address)

theorem pmaServer_fastcgi (uri : List Char) (tryUri : Bool) (socket : String)
    (content : ((route (pmaServer v).locations uri).getD (pmaServer v).fallback).content =
      .fastcgi tryUri socket) :
    (route (pmaServer v).locations uri).getD (pmaServer v).fallback = (pmaPhp v).conf := by
  have routed := route_regexes (⟨[], pmaIndex, .tryFiles (.code 404)⟩ : Conf) (pmaRegexes v) uri
  change route (pmaServer v).locations uri = _ at routed
  rw [routed] at content ⊢
  cases chosen : regexMatch (pmaRegexes v) uri with
  | none =>
    rw [chosen] at content
    cases rooted : ['/'].isPrefixOf uri <;> simp [rooted, pmaServer] at content
  | some conf =>
    obtain ⟨loc, mem, -, rfl⟩ := regexMatch_mem chosen
    rw [chosen] at content
    simp only [pmaRegexes, List.mem_cons, List.not_mem_nil, or_false] at mem
    rcases mem with rfl | rfl | rfl
    · rfl
    · cases content
    · cases content

theorem pmaServer_refuses (restricted : v.phpmyadminAllowRemoteAccess = false)
    (unlisted : v.phpmyadminAllowIps.any (·.covers client) = false)
    (uri script : List Char) (socket : String) :
    handle (pmaServer v) fs client uri ≠ .fastcgi socket script := by
  refine serve_ne_fastcgi _ _ _ ?_ 11 uri script socket
  intro uri tryUri socket content
  rw [pmaServer_fastcgi v uri tryUri socket content, pmaPhp_permits, restricted, unlisted]
  rfl

end DomainBlock

section LocalhostBlock
variable (v : PmaVars) (fs : Files) (client : Address)

def handedToPhp (uri : List Char) : Bool :=
  pmaPath.isPrefixOf uri && search id pmaSubPhpPattern uri

theorem pmaLocalhost_route (uri : List Char) :
    (route (pmaLocalhost v).locations uri).getD (pmaLocalhost v).fallback =
      if pmaPath.isPrefixOf uri then
        if (pmaSubPhp v).found uri then (pmaSubPhp v).conf
        else if pmaSubStatic.found uri then pmaSubStatic.conf
        else { index := pmaIndex, content := .files }
      else { index := [indexHtml], content := .files } := by
  by_cases below : pmaPath.isPrefixOf uri = true
  · simp only [route, pmaLocalhost, exactMatch, longest, below, regexes, regexMatch, if_true]
    split_ifs <;> rfl
  · simp only [route, pmaLocalhost, exactMatch, longest, below, regexes, regexMatch]
    rfl

theorem serve_of_handed (n : ℕ) (uri : List Char) (handed : handedToPhp uri = true) :
    serve (pmaLocalhost v) fs client (n + 1) uri =
      .fastcgi (phpSocket v.defaultPhpVersion) uri := by
  obtain ⟨below, found⟩ := Bool.and_eq_true_iff.mp handed
  have php : (pmaSubPhp v).found uri = true := found
  rw [serve, pmaLocalhost_route, if_pos below, if_pos php]
  simp [answer, pmaSubPhp]

theorem serve_of_not_handed (n : ℕ) (uri : List Char) (handed : handedToPhp uri = false) :
    ∃ index, serve (pmaLocalhost v) fs client (n + 1) uri =
        openUri fs (serve (pmaLocalhost v) fs client n) index uri ∧
      index = if pmaPath.isPrefixOf uri then pmaIndex else [indexHtml] := by
  rw [serve, pmaLocalhost_route]
  by_cases below : pmaPath.isPrefixOf uri = true
  · have php : (pmaSubPhp v).found uri = false := by
      rw [handedToPhp, below, Bool.true_and] at handed
      exact handed
    rw [if_pos below, if_pos below, php]
    cases static : pmaSubStatic.found uri <;> exact ⟨_, rfl, rfl⟩
  · rw [if_neg below, if_neg below]
    exact ⟨_, rfl, rfl⟩

theorem serve_file_reaches_iff (n : ℕ) {uri : List Char} (noSlash : uri.getLast? ≠ some '/') :
    (∃ socket script, serve (pmaLocalhost v) fs client (n + 1) uri = .fastcgi socket script) ↔
      handedToPhp uri = true := by
  cases handed : handedToPhp uri with
  | true => simp [serve_of_handed v fs client n uri handed]
  | false =>
    obtain ⟨index, served, -⟩ := serve_of_not_handed v fs client n uri handed
    rw [served, openUri, if_neg noSlash]
    split_ifs <;> simp

theorem handed_getLast? {uri : List Char} (handed : handedToPhp uri = true) :
    ∃ c, uri.getLast? = some c ∧ (c = '\n' ∨ c ∈ ".php".toList) := by
  have found := (Bool.and_eq_true_iff.mp handed).2
  rw [pmaSubPhpPattern, search_iff] at found
  obtain ⟨u, t, x, split, hx⟩ := found
  obtain ⟨y, hy, rest⟩ := (mem_ends_seq id).mp hx
  obtain ⟨z, hz, rest⟩ := (mem_ends_seq id).mp rest
  obtain ⟨a, ha, rest⟩ := (mem_ends_seq id).mp rest
  have tail : a.2 <:+ uri := by
    rw [split]
    exact ((ends_suffix id ha).trans ((ends_suffix id hz).trans (ends_suffix id hy))).trans
      (List.suffix_append u t)
  obtain ⟨w, rfl⟩ := tail
  obtain ⟨c, last, which⟩ := ((ends_lit_stop id rest).append id w).getLast? id (by decide)
  exact ⟨c, last, by simpa only [List.map_id, id] using which⟩

theorem not_handed_of_getLast? {uri : List Char} {c : Char} (last : uri.getLast? = some c)
    (other : c ≠ '\n' ∧ c ∉ ".php".toList) : handedToPhp uri = false := by
  rw [Bool.eq_false_iff]
  intro handed
  obtain ⟨d, hd, which⟩ := handed_getLast? handed
  obtain rfl : c = d := Option.some.inj (last.symm.trans hd)
  exact which.elim other.1 other.2

theorem serve_indexPhp_reaches_iff (n : ℕ) (dir : List Char) :
    (∃ socket script, serve (pmaLocalhost v) fs client (n + 1) (dir ++ indexPhp) =
        .fastcgi socket script) ↔ handedToPhp (dir ++ indexPhp) = true := by
  refine serve_file_reaches_iff v fs client n ?_
  rw [List.getLast?_append_of_ne_nil _ (by decide)]
  decide

theorem serve_indexHtml_reaches (n : ℕ) (dir : List Char) :
    ¬ ∃ socket script, serve (pmaLocalhost v) fs client (n + 1) (dir ++ indexHtml) =
        .fastcgi socket script := by
  have last : (dir ++ indexHtml).getLast? = some 'l' := by
    rw [List.getLast?_append_of_ne_nil _ (by decide)]
    decide
  rw [serve_file_reaches_iff v fs client n (by rw [last]; decide),
    not_handed_of_getLast? last (by decide)]
  simp

/-- A directory ends at a script through its `index.php`, looked for under
`/phpmyadmin/` only. -/
theorem openDir_reaches_iff (n : ℕ) (dir : List Char) :
    (∃ socket script, openDir fs (serve (pmaLocalhost v) fs client (n + 1))
        (if pmaPath.isPrefixOf dir then pmaIndex else [indexHtml]) dir =
          .fastcgi socket script) ↔
      pmaPath.isPrefixOf dir = true ∧ fs.isFile (dir ++ indexPhp) = true ∧
        handedToPhp (dir ++ indexPhp) = true := by
  have html := serve_indexHtml_reaches v fs client n dir
  by_cases below : pmaPath.isPrefixOf dir = true
  · rw [if_pos below]
    cases php : fs.isFile (dir ++ indexPhp) with
    | true =>
      have script : pmaIndex.find? (fun name => fs.isFile (dir ++ name)) = some indexPhp := by
        rw [pmaIndex, List.find?_cons_of_pos (by simpa using php)]
      rw [openDir, script, serve_indexPhp_reaches_iff]
      simp [below]
    | false =>
      simp only [openDir, pmaIndex, List.find?_cons, php, List.find?_nil]
      cases fs.isFile (dir ++ indexHtml) <;> simp [html]
  · rw [if_neg below]
    simp only [openDir, List.find?_cons, List.find?_nil, below]
    cases fs.isFile (dir ++ indexHtml) <;> simp [html]

def reachesPhp (uri : List Char) : Bool :=
  handedToPhp uri ||
    (uri.getLast? == some '/' && pmaPath.isPrefixOf uri &&
      fs.isFile (uri ++ indexPhp) && handedToPhp (uri ++ indexPhp))

theorem pmaLocalhost_reaches_iff (uri : List Char) :
    (∃ socket script, handle (pmaLocalhost v) fs client uri = .fastcgi socket script) ↔
      reachesPhp fs uri = true := by
  by_cases slash : uri.getLast? = some '/'
  · have notHanded : handedToPhp uri = false := not_handed_of_getLast? slash (by decide)
    obtain ⟨index, served, rfl⟩ := serve_of_not_handed v fs client 10 uri notHanded
    rw [handle, served, openUri, if_pos slash, openDir_reaches_iff v fs client 9 uri]
    simp [reachesPhp, notHanded, slash, and_assoc]
  · rw [handle, serve_file_reaches_iff v fs client 10 slash]
    simp [reachesPhp, slash]

end LocalhostBlock

def picksLocalhost (v : PmaVars) (host : List Char) : Bool :=
  hostName host == "localhost".toList &&
    !(serverNames v.phpmyadminDomain).any fun name =>
      name.map Char.toLower == "localhost".toList

theorem pmaChoose_eq (v : PmaVars) (host : List Char) :
    pmaChoose v host = if picksLocalhost v host then pmaLocalhost v else pmaServer v := by
  have small : "localhost".toList.map Char.toLower = "localhost".toList := by decide
  rw [pmaChoose, chooseServer_pair]
  refine congrArg (fun b : Bool => if b then pmaLocalhost v else pmaServer v) ?_
  simp only [Server.isNamed, pmaServer, pmaLocalhost, List.any_cons, List.any_nil,
    Bool.or_false, small, picksLocalhost]
  generalize "localhost".toList = name
  by_cases named : hostName host = name
  · rw [named, beq_self_eq_true, Bool.and_true, Bool.true_and]
  · have other : (name == hostName host) = false := beq_eq_false_iff_ne.mpr (Ne.symm named)
    rw [other, beq_eq_false_iff_ne.mpr named, Bool.and_false, Bool.false_and]

/-- With remote access off, an unlisted client is kept from the scripts exactly
when the request does not reach one through the block of `localhost`. -/
theorem unlisted_client_kept_out_iff (v : PmaVars) (fs : Files) (host : List Char)
    (client : Address) (uri : Uri) (restricted : v.phpmyadminAllowRemoteAccess = false)
    (unlisted : v.phpmyadminAllowIps.any (·.covers client) = false) :
    (∀ socket script, handle (pmaChoose v host) fs client uri.path ≠ .fastcgi socket script) ↔
      ¬ (picksLocalhost v host = true ∧ reachesPhp fs uri.path = true) := by
  rw [pmaChoose_eq]
  cases local? : picksLocalhost v host with
  | true =>
    rw [if_pos rfl, ← pmaLocalhost_reaches_iff v fs client uri.path]
    simp
  | false =>
    simp only [Bool.false_eq_true, if_false, false_and, not_false_eq_true, iff_true]
    exact fun socket script => pmaServer_refuses v fs client restricted unlisted _ script socket

def outsider : Address := .v4 0xcb007105#32

def scriptUri : Uri := ⟨"/phpmyadmin/index.php".toList, "phpmyadmin/index.php".toList, rfl⟩

theorem outsider_kept_out_of_domain :
    exampleVars.phpmyadminAllowIps.any (·.covers outsider) = false ∧
      ∀ socket script, handle (pmaChoose exampleVars "pma.example.com".toList) everyFile outsider
        scriptUri.path ≠ .fastcgi socket script :=
  ⟨by decide, (unlisted_client_kept_out_iff exampleVars everyFile "pma.example.com".toList outsider
    scriptUri rfl (by decide)).mpr (by decide)⟩

theorem outsider_at_localhost :
    handle (pmaChoose exampleVars "localhost".toList) everyFile outsider scriptUri.path =
      .fastcgi (phpSocket "8.4") scriptUri.path := by
  rw [pmaChoose_eq, if_pos (by decide)]
  exact serve_of_handed exampleVars everyFile outsider 10 scriptUri.path (by decide)

theorem outsider_runs_script :
    ¬ ∀ (v : PmaVars) (fs : Files) (host : List Char) (client : Address) (uri : Uri),
      v.phpmyadminAllowRemoteAccess = false →
      v.phpmyadminAllowIps.any (·.covers client) = false →
      ∀ socket script, handle (pmaChoose v host) fs client uri.path ≠ .fastcgi socket script := by
  intro all
  exact all exampleVars everyFile "localhost".toList outsider scriptUri rfl (by decide) _ _
    outsider_at_localhost

end LempStack.PhpMyAdminAccess
