import LempStack.DenyLocations

/-! Who is refused by the default site, over every URI and client. Four pattern
locations follow one another, the one for static files before two that deny; since
no URI has a static extension and a denied one, their order does no harm. A pattern
that ends in `$` also finds its extension before a final newline, which a decoded
URI can have. The block has no PHP handler, so a script that got past the rules
would be sent as it is. -/

namespace LempStack.DefaultSiteAccess
open PatternSearch AccessRules LocationSelect SiteTemplates DenyLocations

def defaultRegexes : List (RegexLocation Conf) :=
  [defaultHidden, defaultStatic, defaultScripts, defaultSensitive]

def chosen (uri : List Char) : Conf :=
  (route defaultServer.locations uri).getD defaultServer.fallback

def refuses (client : Address) (uri : List Char) : Bool := !permits (chosen uri).rules client

def deniedWords : List String := scriptWords ++ sensitiveWords

theorem chosen_eq (uri : List Char) :
    chosen uri =
      if statusPath = uri then defaultStatus
      else ((regexMatch defaultRegexes uri).or
        (if ['/'].isPrefixOf uri then
            some { index := defaultIndex, content := .tryFiles (.code 404) }
          else none)).getD defaultServer.fallback := by
  have routed := route_regexes_exact (⟨[], defaultIndex, .tryFiles (.code 404)⟩ : Conf)
    defaultRegexes statusPath defaultStatus uri
  change route defaultServer.locations uri = _ at routed
  rw [chosen, routed]
  split_ifs <;> rfl

theorem defaultStatus_permits (client : Address) :
    permits defaultStatus.rules client = true ↔ client = loopback4 := by
  cases client <;> simp [defaultStatus, permits, Range.covers, loopback4]

theorem static_scripts_disjoint (uri : List Char) (static : defaultStatic.found uri = true) :
    defaultScripts.found uri = false :=
  search_extension_disjoint Char.toLower (by decide) (by decide) static

theorem refuses_iff_found (client : Address) {uri : List Char} (other : statusPath ≠ uri) :
    refuses client uri = true ↔
      defaultHidden.found uri = true ∨ defaultScripts.found uri = true ∨
        defaultSensitive.found uri = true := by
  rw [refuses, chosen_eq, if_neg other, defaultRegexes]
  cases hidden : defaultHidden.found uri with
  | true =>
    rw [regexMatch_cons_of_found hidden]
    simp [defaultHidden, permits, Range.covers]
  | false =>
    rw [regexMatch_cons_of_not_found hidden]
    cases static : defaultStatic.found uri with
    | true =>
      have sensitive : defaultSensitive.found uri = false := static_sensitive_disjoint uri static
      rw [regexMatch_cons_of_found static, static_scripts_disjoint uri static, sensitive]
      simp [defaultStatic]
    | false =>
      rw [regexMatch_cons_of_not_found static]
      cases scripts : defaultScripts.found uri with
      | true =>
        rw [regexMatch_cons_of_found scripts]
        simp [defaultScripts, permits, Range.covers]
      | false =>
        rw [regexMatch_cons_of_not_found scripts]
        cases sensitive : defaultSensitive.found uri with
        | true =>
          rw [regexMatch_cons_of_found sensitive]
          simp [defaultSensitive, permits, Range.covers]
        | false =>
          rw [regexMatch_cons_of_not_found sensitive, regexMatch_nil, Option.none_or]
          split_ifs <;> simp [defaultServer]

theorem refuses_iff_words (client : Address) {uri : List Char} (other : statusPath ≠ uri) :
    refuses client uri = true ↔
      (∃ u t, uri = u ++ "/.".toList ++ t) ∨
        ∃ w ∈ deniedWords, EndsIn Char.toLower ('.' :: w.toList) uri := by
  rw [refuses_iff_found client other, deniedWords]
  simp only [List.mem_append, or_and_right, exists_or]
  exact or_congr (hiddenPattern_found uri) (or_congr (extensionPattern_found scriptWords uri)
    (extensionPattern_found sensitiveWords uri))

theorem refuses_script (client : Address) {uri : List Char} {w : String} (script : w ∈ scriptWords)
    (ends : EndsIn Char.toLower ('.' :: w.toList) uri) : refuses client uri = true := by
  have other : statusPath ≠ uri := by
    rintro rfl
    have found := (extensionPattern_found scriptWords statusPath).mpr ⟨w, script, ends⟩
    revert found
    decide
  exact (refuses_iff_words client other).mpr
    (.inr ⟨w, List.mem_append_left _ script, ends⟩)

/-- The rules refuse the status page to all but 127.0.0.1, and of the other URIs those
with a hidden segment or a denied extension, in any letter case and a final newline
aside. No script is ever sent as a file, through index files neither. -/
theorem default_site_policy (client : Address) (uri : Uri) :
    (refuses client uri.path = true ↔
      uri.path = statusPath ∧ client ≠ loopback4 ∨
        uri.path ≠ statusPath ∧ ((∃ u t, uri.path = u ++ "/.".toList ++ t) ∨
          ∃ w ∈ deniedWords, EndsIn Char.toLower ('.' :: w.toList) uri.path)) ∧
    ∀ (fs : Files) (file : List Char), handle defaultServer fs client uri.path = .file file →
      ∀ w ∈ scriptWords, ¬ EndsIn Char.toLower ('.' :: w.toList) file := by
  constructor
  · by_cases status : uri.path = statusPath
    · have outside := not_congr (defaultStatus_permits client)
      rw [status, refuses, chosen_eq, if_pos rfl, Bool.not_eq_true', ← Bool.not_eq_true, outside]
      simp
    · rw [refuses_iff_words client (Ne.symm status)]
      simp [status]
  · intro fs file sent w script ends
    have permitted := serve_file_permitted defaultServer fs client 11 sent
    have refused := refuses_script client script ends
    rw [refuses, chosen, permitted] at refused
    cases refused

def homeUri : Uri := ⟨['/'], [], rfl⟩

def htmlOnly : Files := ⟨fun p => p == "/index.html".toList, fun p => p == ['/']⟩

theorem html_index_sent :
    handle defaultServer htmlOnly loopback4 homeUri.path = .file "/index.html".toList ∧
      ∀ w ∈ scriptWords, ¬ EndsIn Char.toLower ('.' :: w.toList) "/index.html".toList := by
  have sent : handle defaultServer htmlOnly loopback4 homeUri.path =
      .file "/index.html".toList := by decide
  exact ⟨sent, (default_site_policy loopback4 homeUri).2 htmlOnly _ sent⟩

def newlineUri : Uri := ⟨"/x.php\n".toList, "x.php\n".toList, rfl⟩

/-- A URI that ends in `.php` and a newline is refused, though it does not end in any
of the extensions. -/
theorem newline_uri_refused :
    ¬ ∀ (client : Address) (uri : Uri), refuses client uri.path = true ↔
      uri.path = statusPath ∧ client ≠ loopback4 ∨
        uri.path ≠ statusPath ∧ (("/.".toList <:+: uri.path) ∨
          ∃ w ∈ deniedWords, ('.' :: w.toList).map Char.toLower <:+ uri.path.map Char.toLower) := by
  intro all
  have words := (all loopback4 newlineUri).mp (by decide)
  revert words
  decide

end LempStack.DefaultSiteAccess
