import LempStack.SiteTemplates

/-! Which location wins where a `deny all` pattern overlaps another one. In both
templates the PHP handler is written before the deny locations, so first match
order decides against them on every URI that the PHP pattern finds. What is to be
denied is written out in words of its own beside the templates' patterns. -/

namespace LempStack.DenyLocations
open PatternSearch AccessRules LocationSelect SiteTemplates

section Patterns

theorem hiddenPattern_found (uri : List Char) :
    search id hiddenPattern uri = true ↔ ∃ u t, uri = u ++ "/.".toList ++ t := by
  have found := search_lit id "/.".toList uri
  simp only [List.map_id] at found
  refine found.trans ⟨?_, ?_⟩
  · rintro ⟨u, m, t, split, rfl⟩
    exact ⟨u, t, split⟩
  · rintro ⟨u, t, split⟩
    exact ⟨u, _, t, split, rfl⟩

theorem extensionPattern_found (words : List String) (uri : List Char) :
    search Char.toLower (extensionPattern words) uri = true ↔
      ∃ w ∈ words, EndsIn Char.toLower ('.' :: w.toList) uri := by
  refine (search_extension Char.toLower (words.map String.toList) uri).trans ?_
  simp only [List.mem_map, exists_exists_and_eq_and]

theorem sensitiveDirPattern_found (uri : List Char) :
    search Char.toLower sensitiveDirPattern uri = true ↔
      ∃ w ∈ ["doc", "sql", "setup"], ∃ u m t, uri = u ++ m ++ t ∧
        m.map Char.toLower = ('/' :: w.toList ++ ['/']).map Char.toLower := by
  refine (search_enclosed Char.toLower '/' '/' ["doc".toList, "sql".toList, "setup".toList]
    uri).trans ?_
  simp

end Patterns

def HasHidden (uri : List Char) : Prop := ∃ u t, uri = u ++ "/.".toList ++ t

/-- What the vhost block is to deny: a hidden segment, or one of the extensions in any
letter case. -/
def VhostDenied (uri : List Char) : Prop :=
  HasHidden uri ∨ ∃ w ∈ ["htaccess", "htpasswd", "ini", "log", "sh", "sql", "conf"],
    EndsIn Char.toLower ('.' :: w.toList) uri

/-- What the phpMyAdmin block is to deny: a hidden segment, or one of the directories in any
letter case. -/
def PmaDenied (uri : List Char) : Prop :=
  HasHidden uri ∨ ∃ w ∈ ["doc", "sql", "setup"], ∃ u m t, uri = u ++ m ++ t ∧
    m.map Char.toLower = ('/' :: w.toList ++ ['/']).map Char.toLower

section Vhost
variable (defaultPhp : String) (item : Website)

def vhostRegexes : List (RegexLocation Conf) :=
  [vhostPhp defaultPhp item, vhostHidden, vhostStatic, vhostSensitive]

theorem vhost_handle (fs : Files) (client : Address) (uri : Uri) :
    handle (vhostContent defaultPhp item) fs client uri.path =
      answer fs client (serve (vhostContent defaultPhp item) fs client 10)
        ((regexMatch (vhostRegexes defaultPhp item) uri.path).getD
          { index := vhostIndex, content := .tryFiles (.uri "/index.php".toList) }) uri.path :=
  handle_root_regexes _ fs client (vhostRegexes defaultPhp item) rfl uri

theorem vhost_matchesDeny_iff (uri : List Char) :
    MatchesDeny (vhostContent defaultPhp item) uri ↔
      vhostHidden.found uri = true ∨ vhostSensitive.found uri = true := by
  simp [MatchesDeny, vhostContent, regexes, vhostPhp, vhostHidden, vhostStatic, vhostSensitive]

theorem vhost_denied_words (uri : List Char) :
    MatchesDeny (vhostContent defaultPhp item) uri ↔ VhostDenied uri := by
  rw [vhost_matchesDeny_iff]
  exact or_congr (hiddenPattern_found uri) (extensionPattern_found sensitiveWords uri)

theorem static_sensitive_disjoint (uri : List Char) (static : vhostStatic.found uri = true) :
    vhostSensitive.found uri = false :=
  search_extension_disjoint Char.toLower (by decide) (by decide) static

theorem vhost_denied_of_not_php (fs : Files) (client : Address) (uri : Uri)
    (denied : MatchesDeny (vhostContent defaultPhp item) uri.path)
    (notPhp : (vhostPhp defaultPhp item).found uri.path = false) :
    handle (vhostContent defaultPhp item) fs client uri.path = .status 403 := by
  rw [vhost_handle, vhostRegexes, regexMatch_cons_of_not_found notPhp]
  cases hidden : vhostHidden.found uri.path with
  | true =>
    rw [regexMatch_cons_of_found hidden]
    exact answer_refused fs client rfl (by simp [vhostHidden])
  | false =>
    have sensitive : vhostSensitive.found uri.path = true := by
      simpa [vhost_matchesDeny_iff, hidden] using denied
    have static : vhostStatic.found uri.path = false := by
      by_contra found
      rw [Bool.not_eq_false] at found
      simp [static_sensitive_disjoint uri.path found] at sensitive
    rw [regexMatch_cons_of_not_found hidden, regexMatch_cons_of_not_found static,
      regexMatch_cons_of_found sensitive]
    exact answer_refused fs client rfl (by simp [vhostSensitive])

theorem vhost_php_not_denied (fs : Files) (client : Address) (uri : Uri)
    (php : (vhostPhp defaultPhp item).found uri.path = true) :
    handle (vhostContent defaultPhp item) fs client uri.path ≠ .status 403 := by
  rw [vhost_handle, vhostRegexes, regexMatch_cons_of_found php]
  cases file : fs.isFile uri.path <;> simp [answer, vhostPhp, file]

theorem vhostRedirect_handle (fs : Files) (client : Address) (uri : Uri) :
    handle (vhostRedirect item) fs client uri.path =
      .redirect 301 [.text "https://", .host, .requestUri] := by
  rw [handle_root_regexes _ fs client [] rfl uri]
  rfl

end Vhost

section PhpMyAdmin
variable (v : PmaVars)

def pmaRegexes : List (RegexLocation Conf) := [pmaPhp v, pmaHidden, pmaSensitive]

theorem pma_handle (fs : Files) (client : Address) (uri : Uri) :
    handle (pmaServer v) fs client uri.path =
      answer fs client (serve (pmaServer v) fs client 10)
        ((regexMatch (pmaRegexes v) uri.path).getD
          { index := pmaIndex, content := .tryFiles (.code 404) }) uri.path :=
  handle_root_regexes _ fs client (pmaRegexes v) rfl uri

theorem pmaPhp_permits (client : Address) :
    permits (pmaPhp v).conf.rules client =
      (v.phpmyadminAllowRemoteAccess || v.phpmyadminAllowIps.any (·.covers client)) := by
  cases remote : v.phpmyadminAllowRemoteAccess with
  | true => simp [pmaPhp, remote]
  | false => simp only [pmaPhp, remote, Bool.false_eq_true, if_false, permits_allowList,
      Bool.false_or]

theorem pma_php_handle (fs : Files) (client : Address) (uri : Uri)
    (php : (pmaPhp v).found uri.path = true) :
    handle (pmaServer v) fs client uri.path =
      if permits (pmaPhp v).conf.rules client then
        .fastcgi (phpSocket v.defaultPhpVersion) uri.path else .status 403 := by
  rw [pma_handle, pmaRegexes, regexMatch_cons_of_found php]
  rfl

theorem pmaDenied_found (uri : List Char) :
    PmaDenied uri ↔ pmaHidden.found uri = true ∨ pmaSensitive.found uri = true :=
  (or_congr (hiddenPattern_found uri) (sensitiveDirPattern_found uri)).symm

/-- An empty address list makes the PHP location one more that denies everyone. -/
theorem pma_denied_words (uri : List Char) :
    MatchesDeny (pmaServer v) uri ↔
      PmaDenied uri ∨ (pmaPhp v).found uri = true ∧
        v.phpmyadminAllowRemoteAccess = false ∧ v.phpmyadminAllowIps = [] := by
  have rules : (pmaPhp v).conf.rules = [.deny .all] ↔
      v.phpmyadminAllowRemoteAccess = false ∧ v.phpmyadminAllowIps = [] := by
    cases remote : v.phpmyadminAllowRemoteAccess <;> cases ips : v.phpmyadminAllowIps <;>
      simp [pmaPhp, remote, ips]
  have each : MatchesDeny (pmaServer v) uri ↔
      ((pmaPhp v).conf.rules = [.deny .all] ∧ (pmaPhp v).found uri = true) ∨
        pmaHidden.found uri = true ∨ pmaSensitive.found uri = true := by
    simp [MatchesDeny, pmaServer, regexes, pmaHidden, pmaSensitive]
  rw [each, rules, pmaDenied_found, or_comm, and_comm]

theorem pma_denied_of_not_php (fs : Files) (client : Address) (uri : Uri)
    (denied : PmaDenied uri.path) (notPhp : (pmaPhp v).found uri.path = false) :
    handle (pmaServer v) fs client uri.path = .status 403 := by
  rw [pma_handle, pmaRegexes, regexMatch_cons_of_not_found notPhp]
  cases hidden : pmaHidden.found uri.path with
  | true =>
    rw [regexMatch_cons_of_found hidden]
    exact answer_refused fs client rfl (by simp [pmaHidden])
  | false =>
    have sensitive : pmaSensitive.found uri.path = true := by
      simpa [pmaDenied_found, hidden] using denied
    rw [regexMatch_cons_of_not_found hidden, regexMatch_cons_of_found sensitive]
    exact answer_refused fs client rfl (by simp [pmaSensitive])

end PhpMyAdmin

/-- The deny locations of the two blocks find what they are to deny, and a URI they find is
refused unless `\.php$` finds it first. In the phpMyAdmin block the address list can still
refuse the client there. The port 80 block of an `ssl` item sends every URI to https. -/
theorem denied_uri_refused_iff (defaultPhp : String) (item : Website) (v : PmaVars) (fs : Files)
    (client : Address) (uri : Uri) :
    ((MatchesDeny (vhostContent defaultPhp item) uri.path ↔ VhostDenied uri.path) ∧
      (VhostDenied uri.path →
        (handle (vhostContent defaultPhp item) fs client uri.path = .status 403 ↔
          search id phpPattern uri.path = false))) ∧
    ((MatchesDeny (pmaServer v) uri.path ↔ PmaDenied uri.path ∨
        search id phpPattern uri.path = true ∧
          v.phpmyadminAllowRemoteAccess = false ∧ v.phpmyadminAllowIps = []) ∧
      (PmaDenied uri.path →
        (handle (pmaServer v) fs client uri.path = .status 403 ↔
          search id phpPattern uri.path = false ∨
            v.phpmyadminAllowRemoteAccess = false ∧
              v.phpmyadminAllowIps.any (·.covers client) = false))) ∧
    (sslEnabled item = true →
      (80, vhostRedirect item) ∈ vhostBlocks defaultPhp item ∧
        ∀ srv, (80, srv) ∈ vhostBlocks defaultPhp item →
          ∃ target, handle srv fs client uri.path = .redirect 301 target ∧
            ∀ host requestUri, expand host requestUri target =
              "https://" ++ host ++ requestUri) := by
  refine ⟨⟨vhost_denied_words defaultPhp item uri.path, ?_⟩,
    ⟨pma_denied_words v uri.path, ?_⟩, ?_⟩
  · intro denied
    rw [← vhost_denied_words defaultPhp item] at denied
    constructor
    · intro refused
      by_contra php
      rw [Bool.not_eq_false] at php
      exact vhost_php_not_denied defaultPhp item fs client uri php refused
    · exact vhost_denied_of_not_php defaultPhp item fs client uri denied
  · intro denied
    cases php : search id phpPattern uri.path with
    | false => simp [pma_denied_of_not_php v fs client uri denied php]
    | true =>
      rw [pma_php_handle v fs client uri php, pmaPhp_permits]
      cases v.phpmyadminAllowRemoteAccess <;>
        cases v.phpmyadminAllowIps.any (·.covers client) <;> simp
  · intro ssl
    refine ⟨by simp [vhostBlocks, ssl], ?_⟩
    intro srv mem
    obtain rfl : srv = vhostRedirect item := by simpa [vhostBlocks, ssl] using mem
    refine ⟨_, vhostRedirect_handle item fs client uri, fun host requestUri => ?_⟩
    simp [expand, String.append_assoc]

def exampleSite : Website :=
  ⟨"example.com", "example.com www.example.com", "/var/www/example.com", some "8.4", some false⟩

def exampleVars : PmaVars :=
  ⟨"pma.example.com", false, [.net4 0x7f000001#32 32, .net6 1#128 128], "8.4"⟩

def everyFile : Files := ⟨fun _ => true, fun _ => false⟩

def envUri : Uri := ⟨"/.env".toList, ".env".toList, rfl⟩

def hiddenScript : Uri := ⟨"/.git/x.php".toList, ".git/x.php".toList, rfl⟩

theorem envUri_denied : VhostDenied envUri.path := .inl ⟨[], "env".toList, rfl⟩

theorem hiddenScript_denied : VhostDenied hiddenScript.path := .inl ⟨[], "git/x.php".toList, rfl⟩

theorem env_file_refused :
    VhostDenied envUri.path ∧
      handle (vhostContent "8.4" exampleSite) everyFile loopback4 envUri.path = .status 403 :=
  ⟨envUri_denied, ((denied_uri_refused_iff "8.4" exampleSite exampleVars everyFile loopback4
    envUri).1.2 envUri_denied).mpr (by decide)⟩

theorem hidden_script_executed :
    ¬ ∀ defaultPhp item fs client (uri : Uri), VhostDenied uri.path →
      handle (vhostContent defaultPhp item) fs client uri.path = .status 403 := by
  intro all
  exact vhost_php_not_denied "8.4" exampleSite everyFile loopback4 hiddenScript (by decide)
    (all "8.4" exampleSite everyFile loopback4 hiddenScript hiddenScript_denied)

end LempStack.DenyLocations
