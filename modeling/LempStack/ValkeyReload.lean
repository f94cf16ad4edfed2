import LempStack.ValkeyRewrite

/-! What CONFIG REWRITE writes is read back: the new file is accepted, gives every config the
value it was written with, and has kept the comments of the old file and its own
directives. -/

namespace LempStack.ValkeyReload
open SdsStrings ValkeyNumbers ValkeyOptions OwnedLines ValkeyRestore ValkeyLoad ValkeyRewrite

section Loadable
variable {sys : System} {configs : List StandardConfig}

/-- A line that stays on its line and that the loader does not refuse, unless it sets a config. -/
structure Loadable (sys : System) (configs : List StandardConfig) (l : Bytes) : Prop where
  inline : Inline l
  accepted : configOf configs l = none → checkLine sys l = .ok ()

theorem loadable_inert {l : Bytes} (inline : Inline l) (inert : argvOf l = some []) :
    Loadable sys configs l :=
  ⟨inline, fun _ => by rw [checkLine, inert]⟩

theorem signature_loadable : Loadable sys configs signature :=
  loadable_inert ⟨by decide, by decide⟩ (argvOf_comment _)

theorem blank_loadable : Loadable sys configs [] :=
  loadable_inert ⟨List.not_mem_nil, List.not_mem_nil⟩ argvOf_nil

theorem rewriteLine_all {P : Bytes → Prop} (sign : P signature) {st : RewriteState}
    (all : ∀ l ∈ st.lines, P l) {option line : Bytes} (own : P line) (force : Bool) :
    ∀ l ∈ (rewriteLine st option line force).lines, P l := by
  rcases rewriteLine_cases st option force with
    ⟨i, rest, pending⟩ | ⟨pending, must⟩ | ⟨pending, idle⟩
  · rw [rewriteLine_place pending]
    intro l listed
    rcases List.mem_or_eq_of_mem_set listed with old | rfl
    · exact all l old
    · exact own
  · obtain ⟨filler, signed, lines⟩ := appendSigned_lines (markAsProcessed st option) line
    have inert : ∀ l ∈ filler, P l := by
      rcases signed with ⟨rfl, -⟩ | ⟨rfl, -⟩
      · exact List.forall_mem_nil _
      · exact List.forall_mem_singleton.mpr sign
    rw [rewriteLine_append pending must, lines, List.forall_mem_append, List.forall_mem_append]
    exact ⟨⟨all, inert⟩, List.forall_mem_singleton.mpr own⟩
  · rw [rewriteLine_skip pending idle]
    exact all

theorem options_all {P : Bytes → Prop} (sign : P signature)
    {os : List (Bytes × List (Bytes × Bool))} (own : ∀ o ∈ os, ∀ w ∈ o.2, P w.1)
    {st : RewriteState} (all : ∀ l ∈ st.lines, P l) :
    ∀ l ∈ (os.foldl rewriteOption st).lines, P l := by
  have lines {ws : List (Bytes × Bool)} (own : ∀ w ∈ ws, P w.1) (option : Bytes)
      {st : RewriteState} (all : ∀ l ∈ st.lines, P l) :
      ∀ l ∈ (ws.foldl (fun st w => rewriteLine st option w.1 w.2) st).lines, P l :=
    List.foldlRecOn ws (motive := fun st : RewriteState => ∀ l ∈ st.lines, P l)
      _ all fun st all w listed => rewriteLine_all sign all (own w listed) w.2
  exact List.foldlRecOn os (motive := fun st : RewriteState => ∀ l ∈ st.lines, P l)
    _ all fun st all o listed => lines (own o listed) o.1 all

theorem linesOf_all {P : Bytes → Prop} (blank : P []) {st : RewriteState}
    (inline : ∀ l ∈ st.lines, Inline l) (all : ∀ l ∈ st.lines, P l) :
    ∀ l ∈ linesOf (getContentFromState st), P l := by
  have subset := withoutRuns_subset false st.lines
  obtain ⟨last, kind, lines⟩ := linesOf_written fun l listed => inline l (subset listed)
  have ends : ∀ l ∈ last, P l := by
    rcases kind with rfl | rfl
    · exact List.forall_mem_nil _
    · exact List.forall_mem_singleton.mpr blank
  rw [getContentFromState, lines]
  exact List.forall_mem_append.mpr ⟨fun l listed => all l (subset listed), ends⟩

end Loadable

section Reload
variable {sys : System} {configs : List StandardConfig}

structure FileTable (configs : List StandardConfig) : Prop extends Table configs where
  directives : ∀ d ∈ fileDirectives, (lookupConfig configs d).isNone = true
  logfile : ∃ c ∈ configs, c.name = bytes "logfile"

theorem staticConfigs_fileTable : FileTable staticConfigs :=
  ⟨staticConfigs_table, by decide +kernel, by decide +kernel⟩

theorem plain_name (table : Table configs) {c : StandardConfig} (listed : c ∈ configs) :
    Plain c.name :=
  plain_of_bare (table.regular c listed).word.1 (table.regular c listed).word.2

theorem argvOf_text (table : Table configs) {c : StandardConfig} (listed : c ∈ configs)
    {text : Bytes}
    {args : List Bytes} (spells : Spells text args) :
    argvOf (c.name ++ byte ' ' :: text) = some (c.name :: args) := by
  rw [argvOf_line (plain_name table listed) (table.regular c listed).noComment spells.inline,
    spells.tokensOf_rtrim, Option.map_some]

theorem optionOf_text (table : Table configs) {c : StandardConfig} (listed : c ∈ configs)
    {text : Bytes}
    {args : List Bytes} (spells : Spells text args) :
    optionOf configs (c.name ++ byte ' ' :: text) = some c.name := by
  simp only [optionOf, argvOf_text table listed spells, table.lookup listed]

theorem changeLine_text (table : Table configs) {c : StandardConfig} (listed : c ∈ configs)
    {text : Bytes}
    {args : List Bytes} (spells : Spells text args) (v : Value) :
    changeLine sys configs (c.name ++ byte ' ' :: text) v = setText sys c text v := by
  simp only [changeLine, argvOf_text table listed spells, lookupConfig_tolower, table.lookup listed,
    setText_spells spells]

theorem configOf_iff (table : Table configs) {c : StandardConfig} (listed : c ∈ configs)
    (l : Bytes) :
    configOf configs l = some c.name ↔ optionOf configs l = some c.name := by
  unfold configOf optionOf
  rcases argvOf l with _ | _ | ⟨name, args⟩
  · simp
  · simp
  · dsimp only
    rw [lookupConfig_tolower]
    cases found : lookupConfig configs name with
    | some d => rfl
    | none =>
      refine iff_of_false (by simp) fun file => ?_
      split_ifs at file
      have same := table.lookup listed
      rw [← Option.some.inj file, lookupConfig_tolower, found] at same
      cases same

theorem configOf_mem {l k : Bytes} (owned : configOf configs l = some k) :
    ∃ c ∈ configs, c.name = k := by
  unfold configOf at owned
  split at owned
  · obtain ⟨c, found, same⟩ := Option.map_eq_some_iff.mp owned
    exact ⟨c, lookupConfig_mem found, same⟩
  · cases owned

theorem splitOn_inline (s : Bytes) (noNul : 0 ∉ s) : ∀ l ∈ s.splitOn (byte '\n'), Inline l := by
  induction len : s.length using Nat.strong_induction_on generalizing s with
  | _ n ih =>
    by_cases feed : byte '\n' ∈ s
    · obtain ⟨u, v, rfl, own⟩ := List.eq_append_cons_of_mem feed
      rw [List.mem_append, List.mem_cons, not_or, not_or] at noNul
      rw [List.splitOn_append_cons_self_of_not_mem own, List.forall_mem_cons]
      refine ⟨⟨noNul.1, own⟩, ih v.length ?_ v noNul.2.2 rfl⟩
      rw [← len, List.length_append, List.length_cons]
      omega
    · rw [List.splitOn_eq_singleton feed]
      exact List.forall_mem_singleton.mpr ⟨noNul, feed⟩

theorem sdssplitlen_inline {s : Bytes} (noNul : 0 ∉ s) :
    ∀ l ∈ sdssplitlen s (byte '\n'), Inline l := by
  unfold sdssplitlen
  split
  · exact List.forall_mem_nil _
  · exact splitOn_inline s noNul

/-- What the new file takes over is accepted: the directives of the old file, and the lines
of the users and modules, which are read as such. -/
structure Accepted (sys : System) (configs : List StandardConfig) (run : Running) (old : Bytes) :
    Prop where
  noNul : 0 ∉ old
  directives : ∀ raw ∈ sdssplitlen old (byte '\n'), optionOf configs raw ≠ none →
    configOf configs raw = none → checkLine sys raw = .ok ()
  running : ∀ o ∈ [userOption run, loadmoduleOption run], ∀ w ∈ o.2,
    optionOf configs w.1 = some o.1 ∧ Loadable sys configs w.1

theorem storedLine_loadable {run : Running} {old : Bytes} (accepted : Accepted sys configs run old)
    {raw : Bytes} (listed : raw ∈ sdssplitlen old (byte '\n')) :
    Loadable sys configs (storedLine configs raw) := by
  have inline : Inline (storedLine configs raw) :=
    storedLine_inline (sdssplitlen_inline accepted.noNul raw listed)
  obtain ⟨-, argv⟩ : optionOf configs (storedLine configs raw) = optionOf configs raw ∧ _ :=
    storedLine_argv raw
  split_ifs at argv with unowned
  · exact loadable_inert inline argv
  · refine ⟨inline, fun free => ?_⟩
    rw [configOf, argv, ← configOf] at free
    rw [checkLine, argv, ← checkLine]
    exact accepted.directives raw listed unowned free

variable {s : Settings} {order : List StandardConfig} {run : Running} {forceWrite : Bool}
  {old : Bytes}

theorem options_distinct (table : FileTable configs) (perm : order.Perm configs) :
    ((options order run s).map Prod.fst).Nodup := by
  have names : (order.map StandardConfig.name).Nodup := by
    rw [(perm.map _).nodup_iff]
    refine List.pairwise_map.mpr (table.distinct.imp fun {c d} apart same => ?_)
    rw [← same, answers_self] at apart
    cases apart
  have apart {d : Bytes} (directive : d ∈ fileDirectives) : d ∉ order.map StandardConfig.name := by
    intro listed
    obtain ⟨c, member, rfl⟩ := List.mem_map.mp listed
    have missing := table.directives c.name directive
    rw [table.lookup (perm.mem_iff.mp member)] at missing
    cases missing
  have first : (order.map (configOption s)).map Prod.fst = order.map StandardConfig.name := by
    rw [List.map_map]
    rfl
  have last : [bytes "user", bytes "loadmodule"].Nodup := by decide
  rw [options, List.map_append, first]
  refine List.nodup_append.mpr ⟨names, last, fun a named b listed same => ?_⟩
  have file : b ∈ fileDirectives := by
    have two : b = bytes "user" ∨ b = bytes "loadmodule" := by
      simpa [userOption, loadmoduleOption] using listed
    rcases two with rfl | rfl <;> decide
  exact apart file (same ▸ named)

section Settings
variable (table : FileTable configs) (perm : order.Perm configs) (formed : Formed sys configs s)
  (carried : ∀ c ∈ configs, Carried c.data (s c.name)) (accepted : Accepted sys configs run old)

include table formed carried in
theorem config_restored {c : StandardConfig} (listed : c ∈ configs) : Restored sys c (s c.name) :=
  rewrite_restored (table.regular c listed) (formed c listed) (carried c listed)

include table perm formed carried accepted in
theorem options_owned : ∀ o ∈ options order run s, ∀ w ∈ o.2,
    optionOf configs w.1 = some o.1 ∧ Loadable sys configs w.1 := by
  intro o listed w handed
  rcases List.mem_append.mp listed with config | other
  · obtain ⟨c, member, rfl⟩ := List.mem_map.mp config
    have listed := perm.mem_iff.mp member
    obtain ⟨r, written, rfl⟩ := List.mem_map.mp handed
    obtain ⟨args, spells⟩ := (config_restored table formed carried listed).spelled r written
    have owned := optionOf_text table.toTable listed spells
    have blank : Inline [byte ' '] := ⟨by decide, by decide⟩
    have inline := (inline_of_ordinary (plain_name table.toTable listed).ordinary).append
      (blank.append spells.inline)
    refine ⟨owned, inline, fun free => ?_⟩
    have own := (configOf_iff table.toTable listed _).mpr owned
    rw [free] at own
    cases own
  · exact accepted.running o other w handed

theorem emitted_forced (forceWrite : Bool) (n : ℕ) (ws : List (Bytes × Bool)) :
    ∃ m, emitted n (forced forceWrite ws) = emitted m ws := by
  cases forceWrite with
  | false => exact ⟨n, by simp [forced]⟩
  | true =>
    refine ⟨ws.length, ?_⟩
    rw [emitted_eq_map ws.length ws (.inl (le_refl _)), emitted_eq_map n (forced true ws)]
    · rw [forced, List.map_map]
      rfl
    · exact .inr fun w listed => by
        obtain ⟨v, -, rfl⟩ := List.mem_map.mp listed
        exact Bool.or_true _

theorem removeOrphaned_own {st : RewriteState} {done : Bytes → List Bytes}
    (progress : Progress configs st done) {k : Bytes} (processed : k ∈ st.rewritten) :
    own (optionOf configs) k (removeOrphaned st).lines = done k := by
  refine (progress k).own_blankAll (optionOf_inert argvOf_nil) (fun i pending => ?_)
    fun i listed place => ?_
  · exact List.mem_flatMap.mpr ⟨k, processed, pending⟩
  · obtain ⟨k', -, pending⟩ := List.mem_flatMap.mp listed
    have same := mem_places.mp ((progress k').mem_places pending)
    rw [mem_places.mp place] at same
    exact Option.some.inj same ▸ pending

theorem linesOf_filter {st : RewriteState} (inline : ∀ l ∈ st.lines, Inline l) {p : Bytes → Bool}
    (blank : p [] = false) : (linesOf (getContentFromState st)).filter p = st.lines.filter p := by
  obtain ⟨last, kind, lines⟩ := linesOf_written fun l listed =>
    inline l (withoutRuns_subset false st.lines listed)
  have dropped : last.filter p = [] := by
    rcases kind with rfl | rfl
    · rfl
    · rw [List.filter_singleton, blank]
      rfl
  rw [getContentFromState, lines, List.filter_append, dropped, List.append_nil,
    withoutRuns_filter blank]

variable {content : Bytes}

include table perm formed carried accepted in
/-- The new file is written from a state in which all the options have been rewritten. -/
theorem rewriteConfig_state
    (written : rewriteConfig configs order run forceWrite old s = some content) :
    ∃ (before after : RewriteState) (done : Bytes → List Bytes),
      ReadOld configs (sdssplitlen old (byte '\n')) before ∧
      after = (options order run s).foldl rewriteOption before ∧
      Rewrote configs before after (fun _ => []) done (options order run s) ∧
      content = getContentFromState (removeOrphaned after) ∧
      ∀ l ∈ (removeOrphaned after).lines, Loadable sys configs l := by
  obtain ⟨before, read, rfl⟩ := Option.map_eq_some_iff.mp written
  obtain ⟨was, -⟩ := readOldFile_spec read
  have owned := options_owned table perm formed carried accepted
  obtain ⟨done, rewrote⟩ := options_rewrote (options_distinct table perm)
    (fun o listed w handed => (owned o listed w handed).1) was.progress
  refine ⟨before, _, done, was, rfl, rewrote, rfl, fun l listed => ?_⟩
  have stored : ∀ l ∈ before.lines, Loadable sys configs l := by
    rw [was.lines]
    intro l listed
    obtain ⟨raw, member, rfl⟩ := List.mem_map.mp listed
    exact storedLine_loadable accepted member
  rcases mem_blankAll listed with rfl | kept
  · exact blank_loadable
  · exact options_all signature_loadable (fun o listed w handed => (owned o listed w handed).2)
      stored l kept

include table perm formed carried accepted in
theorem rewriteConfig_own
    (written : rewriteConfig configs order run forceWrite old s = some content)
    {c : StandardConfig} (listed : c ∈ configs) :
    ∃ n, own (configOf configs) c.name (linesOf content) =
      (emitted n ((rewrite c.data (s c.name)).map fun r => (r.text, r.force))).map
        fun text => c.name ++ byte ' ' :: text := by
  obtain ⟨before, after, done, was, -, rewrote, rfl, loadable⟩ :=
    rewriteConfig_state table perm formed carried accepted written
  have option : configOption s c ∈ options order run s :=
    List.mem_append_left _ (List.mem_map_of_mem (perm.mem_iff.mpr listed))
  have processed : c.name ∈ after.rewritten :=
    (rewrote.rewritten c.name).mpr (.inl (List.mem_map_of_mem option))
  have readings : own (configOf configs) c.name
      (linesOf (getContentFromState (removeOrphaned after))) =
      own (optionOf configs) c.name (linesOf (getContentFromState (removeOrphaned after))) := by
    simp only [own, configOf_iff table.toTable listed]
  have blank : decide (optionOf configs [] = some c.name) = false := by
    rw [optionOf_inert argvOf_nil]
    rfl
  obtain ⟨n, same⟩ := emitted_forced before.forceWrite (before.optionToLine c.name).length
    (configOption s c).2
  refine ⟨n, ?_⟩
  rw [readings, own, linesOf_filter (fun l listed => (loadable l listed).inline) blank, ← own,
    removeOrphaned_own rewrote.progress processed]
  refine ((rewrote.written _ option).trans (List.nil_append _)).trans (same.trans ?_)
  rw [← emitted_map, List.map_map]
  rfl

include table perm formed carried accepted in
theorem rewriteConfig_value
    (written : rewriteConfig configs order run forceWrite old s = some content)
    {c : StandardConfig} (listed : c ∈ configs) :
    ∃ v, (own (configOf configs) c.name (linesOf content)).foldlM
        (fun v l => changeLine sys configs l v) (initConfigValues sys configs c.name) = .ok v ∧
      observed v = observed (s c.name) := by
  have restored := config_restored table formed carried listed
  obtain ⟨n, lines⟩ := rewriteConfig_own table perm formed carried accepted written listed
  obtain ⟨v, read, same⟩ := restored.read n
  refine ⟨v, ?_, same⟩
  rw [lines, List.foldlM_map, initConfigValues_eq table.toTable listed, ← read]
  refine foldlM_congr_mem (fun text emits old => ?_) _
  obtain ⟨w, handed, rfl⟩ := mem_emitted emits
  obtain ⟨r, rewrites, rfl⟩ := List.mem_map.mp handed
  obtain ⟨args, spells⟩ := restored.spelled r rewrites
  exact changeLine_text table.toTable listed spells old

theorem isInclude_config {l : Bytes} (owned : configOf configs l ≠ none) :
    isInclude configs l = false := by
  unfold configOf at owned
  unfold isInclude
  revert owned
  rcases argvOf l with _ | _ | ⟨name, args⟩ <;> intro owned
  · rfl
  · rfl
  · dsimp only at owned ⊢
    cases found : lookupConfig configs (name.map tolower) with
    | some c => rfl
    | none => exact absurd (by rw [found]; rfl) owned

theorem isInclude_option {l k : Bytes} (option : optionOf configs l = some k)
    (other : sameCaseless k (bytes "include") = false) : isInclude configs l = false := by
  unfold optionOf at option
  unfold isInclude
  revert option
  rcases argvOf l with _ | _ | ⟨name, args⟩ <;> intro option
  · rfl
  · rfl
  · dsimp only at option ⊢
    rw [lookupConfig_tolower]
    cases found : lookupConfig configs name with
    | some c => rfl
    | none =>
      simp only [found, Option.ite_none_right_eq_some, Option.some.injEq] at option
      rw [option.2]
      have own : includedFile k args = none := by
        unfold includedFile
        split
        · rw [if_neg (by simp [other])]
        · rfl
      rw [own]
      rfl

theorem isInclude_inert {l : Bytes} (inert : argvOf l = some []) : isInclude configs l = false := by
  rw [isInclude, inert]

include table perm formed carried accepted in
theorem rewriteConfig_alone
    (alone : ∀ raw ∈ sdssplitlen old (byte '\n'), isInclude configs raw = false)
    (written : rewriteConfig configs order run forceWrite old s = some content) :
    ∀ l ∈ linesOf content, isInclude configs l = false := by
  obtain ⟨before, after, done, was, ran, -, rfl, loadable⟩ :=
    rewriteConfig_state table perm formed carried accepted written
  have owned := options_owned table perm formed carried accepted
  have handed : ∀ o ∈ options order run s, ∀ w ∈ o.2, isInclude configs w.1 = false := by
    intro o listed w written
    have option := (owned o listed w written).1
    rcases List.mem_append.mp listed with config | other
    · obtain ⟨c, member, rfl⟩ := List.mem_map.mp config
      have own := (configOf_iff table.toTable (perm.mem_iff.mp member) w.1).mpr option
      exact isInclude_config (by simp [own])
    · have two : ∀ k ∈ [bytes "user", bytes "loadmodule"],
          sameCaseless k (bytes "include") = false := by decide
      exact isInclude_option option (two o.1 (List.mem_map_of_mem (f := Prod.fst) other))
  have stored : ∀ l ∈ before.lines, isInclude configs l = false := by
    rw [was.lines]
    intro l listed
    obtain ⟨raw, member, rfl⟩ := List.mem_map.mp listed
    obtain ⟨-, argv⟩ : optionOf configs (storedLine configs raw) = optionOf configs raw ∧ _ :=
      storedLine_argv raw
    split_ifs at argv
    · exact isInclude_inert argv
    · rw [isInclude, argv, ← isInclude]
      exact alone raw member
  refine linesOf_all (isInclude_inert argvOf_nil) (fun l listed => (loadable l listed).inline)
    fun l listed => ?_
  rcases mem_blankAll listed with rfl | kept
  · exact isInclude_inert argvOf_nil
  · rw [ran] at kept
    exact options_all (isInclude_inert (argvOf_comment _)) handed stored l kept

theorem logError_observed (sys : System) (v : Value) :
    logError sys (observed v) = logError sys v := by
  cases v <;> rfl

theorem observed_clampedHz (v : Value) : observed (clampedHz v) = clampedHz (observed v) := by
  cases v <;> rfl

include table perm formed carried accepted in
theorem rewriteConfig_loads (log : logError sys (s (bytes "logfile")) = none) (hz : clampHz s = s)
    (alone : ∀ raw ∈ sdssplitlen old (byte '\n'), isInclude configs raw = false)
    (written : rewriteConfig configs order run forceWrite old s = some content) :
    ∃ s', loadServerConfigFromString sys configs content (initConfigValues sys configs) = .ok s' ∧
      ∀ c ∈ configs, observed (s' c.name) = observed (s c.name) := by
  have value (k : Bytes) : ∃ v, (own (configOf configs) k (linesOf content)).foldlM
      (fun v l => changeLine sys configs l v) (initConfigValues sys configs k) = .ok v ∧
        ((∃ c ∈ configs, c.name = k) → observed v = observed (s k)) := by
    by_cases config : ∃ c ∈ configs, c.name = k
    · obtain ⟨c, listed, rfl⟩ := config
      obtain ⟨v, read, same⟩ :=
        rewriteConfig_value table perm formed carried accepted written listed
      exact ⟨v, read, fun _ => same⟩
    · have nothing : own (configOf configs) k (linesOf content) = [] := by
        refine List.filter_eq_nil_iff.mpr fun l listed owned => config ?_
        exact configOf_mem (of_decide_eq_true owned)
      exact ⟨_, by rw [nothing]; rfl, fun found => absurd found config⟩
  choose t read same using value
  have own := rewriteConfig_alone table perm formed carried accepted alone written
  refine ⟨clampHz t, (loadServerConfigFromString_iff own).mpr ⟨?_, t, read, ?_, rfl⟩, ?_⟩
  · obtain ⟨before, after, done, -, -, -, rfl, loadable⟩ :=
      rewriteConfig_state table perm formed carried accepted written
    exact linesOf_all blank_loadable.accepted (fun l listed => (loadable l listed).inline)
      fun l listed => (loadable l listed).accepted
  · rw [← logError_observed, same _ table.logfile, logError_observed, log]
  · intro c listed
    have kept := same c.name ⟨c, listed, rfl⟩
    rcases eq_or_ne c.name (bytes "hz") with named | other
    · rw [named] at kept ⊢
      rw [clampHz, Function.update_self, observed_clampedHz, kept, ← observed_clampedHz]
      conv_rhs => rw [← hz, clampHz, Function.update_self]
    · rw [clampHz, Function.update_of_ne other, kept]

/-- A line that no option of the server takes over: a comment, or one of the directives that
CONFIG REWRITE leaves to the file. -/
def untouched (configs : List StandardConfig) (l : Bytes) : Bool :=
  l != [] && (optionOf configs l).all fun k =>
    [bytes "include", bytes "rename-command", bytes "sentinel"].contains k

theorem options_untouched (table : FileTable configs) (perm : order.Perm configs) :
    ∀ o ∈ options order run s, ∀ l, optionOf configs l = some o.1 →
      untouched configs l = false := by
  intro o listed l names
  have own : [bytes "include", bytes "rename-command", bytes "sentinel"].contains o.1 = false := by
    rcases List.mem_append.mp listed with config | other
    · obtain ⟨c, member, rfl⟩ := List.mem_map.mp config
      rw [Bool.eq_false_iff, ne_eq, List.contains_iff_mem]
      intro left
      have file : c.name ∈ fileDirectives :=
        (by decide :
          [bytes "include", bytes "rename-command", bytes "sentinel"] ⊆ fileDirectives) left
      have missing := table.directives c.name file
      rw [table.lookup (perm.mem_iff.mp member)] at missing
      cases missing
    · have two : ∀ k ∈ [bytes "user", bytes "loadmodule"],
          [bytes "include", bytes "rename-command", bytes "sentinel"].contains k = false := by
        decide
      exact two o.1 (List.mem_map_of_mem (f := Prod.fst) other)
  rw [untouched, names, Option.all_some, own, Bool.and_false]

end Settings

def secretFile : Bytes := bytes "# cache\nrequirepass \"a b\"\nmaxmemory 1gb\n"

def secretSettings : Settings :=
  (loadServerConfigFromString plainSystem staticConfigs secretFile
    (initConfigValues plainSystem staticConfigs)).toOption.getD
    (initConfigValues plainSystem staticConfigs)

theorem secretFile_loaded : loadServerConfigFromString plainSystem staticConfigs secretFile
    (initConfigValues plainSystem staticConfigs) = .ok secretSettings := by
  have accepted : (loadServerConfigFromString plainSystem staticConfigs secretFile
      (initConfigValues plainSystem staticConfigs)).toBool = true := by decide +kernel
  obtain ⟨s, loaded⟩ := exists_ok accepted
  rw [secretSettings, loaded]
  rfl

def bareRunning : Running := ⟨true, [], []⟩

theorem secretFile_accepted : Accepted plainSystem staticConfigs bareRunning secretFile where
  noNul := by decide +kernel
  directives raw listed known free := by
    have all : ∀ raw ∈ sdssplitlen secretFile (byte '\n'), optionOf staticConfigs raw ≠ none →
      configOf staticConfigs raw ≠ none := by decide +kernel
    exact absurd free (all raw listed known)
  running := by simp [bareRunning, userOption, loadmoduleOption]

theorem secretFile_alone : ∀ l ∈ linesOf secretFile, isInclude staticConfigs l = false := by
  decide +kernel

theorem secretFile_carried : ∀ c ∈ staticConfigs, Carried c.data (secretSettings c.name) := by
  decide +kernel

theorem secretFile_written : (rewriteConfig staticConfigs staticConfigs bareRunning false secretFile
    secretSettings).isSome = true := by
  decide +kernel

end Reload

end LempStack.ValkeyReload
