import LempStack.ValkeyLoad

/-! CONFIG REWRITE, after `rewriteConfig` of `config.c`: the old file is read into lines and a
map from options to the numbers of their lines; every option uses up its lines, appends
what finds no line, and the lines left over are blanked. Sentinel mode is off. -/

namespace LempStack.ValkeyRewrite
open SdsStrings ValkeyNumbers ValkeyOptions OwnedLines ValkeyRestore ValkeyLoad

structure RewriteState where
  optionToLine : Bytes → List ℕ
  rewritten : List Bytes
  lines : List Bytes
  needsSignature : Bool
  forceWrite : Bool

def signature : Bytes := bytes "# Generated by CONFIG REWRITE"

-- whether a file of users is configured, and the users and modules with the texts of their lines
structure Running where
  aclFile : Bool
  users : List (Bytes × Bytes)
  modules : List (Bytes × List Bytes)

section Rewriting
variable (configs : List StandardConfig)

def fileDirectives : List Bytes :=
  [bytes "include", bytes "rename-command", bytes "user", bytes "loadmodule", bytes "sentinel"]

def isFileDirective (name : Bytes) : Bool := fileDirectives.any fun d => sameCaseless name d

/-- The option that a line is filed under: an alias stands for the name. -/
def optionOf (line : Bytes) : Option Bytes :=
  match argvOf line with
  | some (name :: _) =>
    match lookupConfig configs name with
    | some c => some c.name
    | none => if isFileDirective name then some (name.map tolower) else none
  | _ => none

def appendLine (st : RewriteState) (line : Bytes) : RewriteState :=
  { st with lines := st.lines ++ [line] }

def addLineNumberToOption (st : RewriteState) (option : Bytes) (n : ℕ) : RewriteState :=
  { st with optionToLine := Function.update st.optionToLine option (st.optionToLine option ++ [n]) }

/-- One line of the old file. A line that is neither blank nor a comment but has no argument, for
all its bytes are vertical tabs and form feeds, makes the server read a name that is not there. -/
def readOldLine (st : RewriteState) (raw : Bytes) : Option RewriteState :=
  let line := sdstrim raw (bytes "\r\n\t ")
  if line.head? = some (byte '#') ∨ line = [] then
    some { appendLine st line with
      needsSignature := st.needsSignature && cString line != signature }
  else
    match sdssplitargs line with
    | some [] => none
    | none => some (appendLine st (bytes "# ??? " ++ line))
    | some (name :: _) =>
      match lookupConfig configs name with
      | some c => some (addLineNumberToOption (appendLine st line) c.name st.lines.length)
      | none =>
        if isFileDirective name then
          some (addLineNumberToOption (appendLine st line) (name.map tolower) st.lines.length)
        else some (appendLine st (bytes "# ??? " ++ line))

def rewriteConfigReadOldFile (forceWrite : Bool) (old : Bytes) : Option RewriteState :=
  (sdssplitlen old (byte '\n')).foldlM (readOldLine configs) ⟨fun _ => [], [], [], true, forceWrite⟩

def markAsProcessed (st : RewriteState) (option : Bytes) : RewriteState :=
  { st with rewritten := if option ∈ st.rewritten then st.rewritten else option :: st.rewritten }

def appendSigned (st : RewriteState) (line : Bytes) : RewriteState :=
  appendLine
    (if st.needsSignature then { appendLine st signature with needsSignature := false } else st)
    line

def rewriteLine (st : RewriteState) (option line : Bytes) (force : Bool) : RewriteState :=
  let marked := markAsProcessed st option
  match st.optionToLine option with
  | i :: rest => { marked with lines := st.lines.set i line,
                               optionToLine := Function.update st.optionToLine option rest }
  | [] => if !force && !st.forceWrite then marked else appendSigned marked line

def rewriteOption (st : RewriteState) (option : Bytes × List (Bytes × Bool)) : RewriteState :=
  markAsProcessed (option.2.foldl (fun st w => rewriteLine st option.1 w.1 w.2) st) option.1

def configOption (s : Settings) (c : StandardConfig) : Bytes × List (Bytes × Bool) :=
  (c.name, (rewrite c.data (s c.name)).map fun r => (c.name ++ byte ' ' :: r.text, r.force))

def userOption (run : Running) : Bytes × List (Bytes × Bool) :=
  (bytes "user", if run.aclFile then []
    else run.users.map fun u => (bytes "user" ++ byte ' ' :: (u.1 ++ byte ' ' :: u.2), true))

def loadmoduleOption (run : Running) : Bytes × List (Bytes × Bool) :=
  (bytes "loadmodule",
    run.modules.map fun m => (bytes "loadmodule" ++ byte ' ' :: spaced (m.1 :: m.2), true))

/-- The options in the order they are rewritten in; `order` is that of the dictionary. -/
def options (order : List StandardConfig) (run : Running) (s : Settings) :
    List (Bytes × List (Bytes × Bool)) :=
  order.map (configOption s) ++ [userOption run, loadmoduleOption run]

def removeOrphaned (st : RewriteState) : RewriteState :=
  { st with lines := blankAll [] (st.rewritten.flatMap st.optionToLine) st.lines }

def withoutRuns : Bool → List Bytes → List Bytes
  | _, [] => []
  | wasEmpty, l :: ls =>
    if l = [] then if wasEmpty then withoutRuns true ls else l :: withoutRuns true ls
    else l :: withoutRuns false ls

def getContentFromState (st : RewriteState) : Bytes :=
  (withoutRuns false st.lines).flatMap fun l => l ++ [byte '\n']

def rewriteConfig (order : List StandardConfig) (run : Running) (forceWrite : Bool) (old : Bytes)
    (s : Settings) : Option Bytes :=
  (rewriteConfigReadOldFile configs forceWrite old).map fun st =>
    getContentFromState (removeOrphaned ((options order run s).foldl rewriteOption st))

end Rewriting

section Old
variable {configs : List StandardConfig}

theorem sdstrim_old (raw : Bytes) : sdstrim raw (bytes "\r\n\t ") = sdstrim raw lineBlanks := by
  have old : bytes "\r\n\t " = [0x0d, 0x0a, 0x09, 0x20] := by decide
  have load : lineBlanks = [0x20, 0x09, 0x0d, 0x0a] := by decide
  have same : inSet (bytes "\r\n\t ") = inSet lineBlanks := by
    funext b
    rw [old, load, inSet, inSet, Bool.eq_iff_iff]
    simp only [Bool.or_eq_true, beq_iff_eq, List.contains_eq_mem, List.mem_cons, List.not_mem_nil,
      or_false, decide_eq_true_eq]
    tauto
  rw [sdstrim, sdstrim, same]

/-- What the state has for a line of the old file: a line that is not understood becomes a
comment. -/
def storedLine (configs : List StandardConfig) (raw : Bytes) : Bytes :=
  let line := sdstrim raw lineBlanks
  if optionOf configs line = none ∧ line.head? ≠ some (byte '#') ∧ line ≠ [] then
    bytes "# ??? " ++ line
  else line

theorem optionOf_inert {m : Bytes} (inert : argvOf m = some []) : optionOf configs m = none := by
  rw [optionOf, inert]

theorem signature_inert : optionOf configs signature = none :=
  optionOf_inert (argvOf_comment _)

theorem optionOf_sdstrim (raw : Bytes) :
    optionOf configs (sdstrim raw lineBlanks) = optionOf configs raw := by
  rw [optionOf, argvOf_sdstrim, optionOf]

theorem argvOf_mark (line : Bytes) : argvOf (bytes "# ??? " ++ line) = some [] :=
  argvOf_comment (bytes " ??? " ++ line)

theorem storedLine_inline {raw : Bytes} (inline : Inline raw) :
    Inline (storedLine configs raw) := by
  have mark : Inline (bytes "# ??? ") := ⟨by decide, by decide⟩
  have trimmed := inline.subset (sdstrim_subset raw lineBlanks)
  unfold storedLine
  dsimp only
  split
  · exact mark.append trimmed
  · exact trimmed

theorem storedLine_argv (raw : Bytes) :
    optionOf configs (storedLine configs raw) = optionOf configs raw ∧
      if optionOf configs raw = none then argvOf (storedLine configs raw) = some []
      else argvOf (storedLine configs raw) = argvOf raw := by
  unfold storedLine
  dsimp only
  rw [optionOf_sdstrim]
  by_cases unowned : optionOf configs raw = none
  · rw [if_pos unowned]
    split
    · rw [optionOf_inert (argvOf_mark _), unowned]
      exact ⟨rfl, argvOf_mark _⟩
    · rename_i known
      have inert : argvOf (sdstrim raw lineBlanks) = some [] := by
        rw [argvOf, sdstrim_sdstrim, if_pos]
        by_contra directive
        rw [not_or] at directive
        exact known ⟨unowned, directive⟩
      rw [optionOf_inert inert, unowned]
      exact ⟨rfl, inert⟩
  · rw [if_neg unowned, if_neg fun unknown => unowned unknown.1, optionOf_sdstrim]
    exact ⟨rfl, argvOf_sdstrim raw⟩

def Filed (configs : List StandardConfig) (before after : Bytes → List ℕ) (n : ℕ) (m : Bytes) :
    Prop :=
  ∀ k, after k = before k ++ if optionOf configs m = some k then [n] else []

theorem filed_none {f : Bytes → List ℕ} {n : ℕ} {m : Bytes} (inert : optionOf configs m = none) :
    Filed configs f f n m := by
  intro k
  rw [inert, if_neg (Option.some_ne_none k).symm, List.append_nil]

theorem filed_option {f : Bytes → List ℕ} {n : ℕ} {m option : Bytes}
    (names : optionOf configs m = some option) :
    Filed configs f (Function.update f option (f option ++ [n])) n m := by
  intro k
  rw [names]
  rcases eq_or_ne k option with rfl | other
  · rw [Function.update_self, if_pos rfl]
  · rw [Function.update_of_ne other, if_neg fun same => other (Option.some.inj same).symm,
      List.append_nil]

theorem readOldLine_stored {st st' : RewriteState} {raw : Bytes}
    (read : readOldLine configs st raw = some st') :
    st'.lines = st.lines ++ [storedLine configs raw] ∧
      Filed configs st.optionToLine st'.optionToLine st.lines.length (storedLine configs raw) ∧
      st'.rewritten = st.rewritten ∧ st'.forceWrite = st.forceWrite ∧
      (st'.needsSignature = true →
        st.needsSignature = true ∧ storedLine configs raw ≠ signature) := by
  simp only [readOldLine, sdstrim_old] at read
  have option : optionOf configs (storedLine configs raw) = optionOf configs raw :=
    (storedLine_argv raw).1
  split at read
  · rename_i inert
    cases read
    have argv : argvOf raw = some [] := by rw [argvOf, if_pos inert]
    have same : storedLine configs raw = sdstrim raw lineBlanks :=
      if_neg fun unknown => inert.elim unknown.2.1 unknown.2.2
    rw [optionOf_inert argv] at option
    refine ⟨by rw [same]; rfl, filed_none option, rfl, rfl, fun needed => ?_⟩
    obtain ⟨before, other⟩ := Bool.and_eq_true_iff.mp needed
    refine ⟨before, fun signed => ?_⟩
    rw [← same, signed] at other
    exact absurd other (by decide)
  · rename_i directive
    have solid := not_or.mp directive
    -- a line that names no option
    have unknown (unowned : optionOf configs raw = none) :
        storedLine configs raw = bytes "# ??? " ++ sdstrim raw lineBlanks :=
      if_pos ⟨(optionOf_sdstrim raw).trans unowned, solid⟩
    have marked (unowned : optionOf configs raw = none) : storedLine configs raw ≠ signature := by
      intro signed
      rw [unknown unowned] at signed
      have third : (bytes "# ??? " ++ sdstrim raw lineBlanks)[2]? = signature[2]? := by rw [signed]
      rw [List.getElem?_append_left (by decide)] at third
      exact absurd third (by decide)
    have unsigned {k : Bytes} (names : optionOf configs raw = some k) :
        storedLine configs raw ≠ signature := by
      intro signed
      rw [signed, signature_inert, names] at option
      cases option
    have known {k : Bytes} (names : optionOf configs raw = some k) :
        storedLine configs raw = sdstrim raw lineBlanks :=
      if_neg fun both => by
        rw [optionOf_sdstrim, names] at both
        cases both.1
    split at read
    · cases read
    · rename_i unbalanced
      cases read
      have unowned : optionOf configs raw = none := by
        simp only [optionOf, argvOf, if_neg directive, unbalanced]
      exact ⟨by rw [unknown unowned]; rfl, filed_none (option.trans unowned), rfl, rfl,
        fun needed => ⟨needed, marked unowned⟩⟩
    · rename_i name args parsed
      have argv : argvOf raw = some (name :: args) := by
        rw [argvOf, if_neg directive, parsed]
      split at read
      · rename_i c found
        cases read
        have names : optionOf configs raw = some c.name := by simp only [optionOf, argv, found]
        exact ⟨by rw [known names]; rfl, filed_option (option.trans names), rfl, rfl,
          fun needed => ⟨needed, unsigned names⟩⟩
      · rename_i missing
        split at read
        · rename_i file
          cases read
          have names : optionOf configs raw = some (name.map tolower) := by
            simp only [optionOf, argv, missing, file, if_true]
          exact ⟨by rw [known names]; rfl, filed_option (option.trans names), rfl, rfl,
            fun needed => ⟨needed, unsigned names⟩⟩
        · rename_i file
          cases read
          have unowned : optionOf configs raw = none := by
            simp only [optionOf, argv, missing, file, Bool.false_eq_true, if_false]
          exact ⟨by rw [unknown unowned]; rfl, filed_none (option.trans unowned), rfl, rfl,
            fun needed => ⟨needed, marked unowned⟩⟩

/-- The state some lines of the old file are read into: every option has the numbers of its
lines. -/
structure ReadOld (configs : List StandardConfig) (raws : List Bytes) (st : RewriteState) :
    Prop where
  lines : st.lines = raws.map (storedLine configs)
  filed : ∀ k, st.optionToLine k = places (optionOf configs) k st.lines
  rewritten : st.rewritten = []
  unsigned : st.needsSignature = true → signature ∉ st.lines

theorem ReadOld.line {raws : List Bytes} {st st' : RewriteState} (before : ReadOld configs raws st)
    {raw : Bytes} (read : readOldLine configs st raw = some st') :
    ReadOld configs (raws ++ [raw]) st' := by
  obtain ⟨lines, filed, rewritten, -, unsigned⟩ := readOldLine_stored read
  refine ⟨?_, fun k => ?_, rewritten.trans before.rewritten, fun needed => ?_⟩
  · rw [lines, before.lines, List.map_append, List.map_singleton]
  · rw [filed k, before.filed k, lines, places_append]
  · rw [lines, List.mem_append, List.mem_singleton, not_or]
    exact ⟨before.unsigned (unsigned needed).1, (unsigned needed).2.symm⟩

theorem foldlM_readOldLine {raws ls : List Bytes} {st st' : RewriteState}
    (before : ReadOld configs raws st) (read : ls.foldlM (readOldLine configs) st = some st') :
    ReadOld configs (raws ++ ls) st' ∧ st'.forceWrite = st.forceWrite := by
  induction ls generalizing raws st with
  | nil =>
    cases read
    rw [List.append_nil]
    exact ⟨before, rfl⟩
  | cons raw ls ih =>
    rw [List.foldlM_cons] at read
    obtain ⟨next, line, rest⟩ := Option.bind_eq_some_iff.mp read
    obtain ⟨after, force⟩ := ih (before.line line) rest
    rw [List.append_assoc, List.singleton_append] at after
    exact ⟨after, force.trans (readOldLine_stored line).2.2.2.1⟩

theorem readOldFile_spec {forceWrite : Bool} {old : Bytes} {st : RewriteState}
    (read : rewriteConfigReadOldFile configs forceWrite old = some st) :
    ReadOld configs (sdssplitlen old (byte '\n')) st ∧ st.forceWrite = forceWrite := by
  have start : ReadOld configs [] ⟨fun _ => [], [], [], true, forceWrite⟩ :=
    ⟨rfl, fun _ => rfl, rfl, fun _ => List.not_mem_nil⟩
  exact foldlM_readOldLine start read

end Old

section Progress
variable {configs : List StandardConfig}

/-- Every option has used the first of its places for the lines `done`. -/
def Progress (configs : List StandardConfig) (st : RewriteState) (done : Bytes → List Bytes) :
    Prop :=
  ∀ k, Written (optionOf configs) k st.lines (st.optionToLine k) (done k)

theorem ReadOld.progress {raws : List Bytes} {st : RewriteState} (read : ReadOld configs raws st) :
    Progress configs st fun _ => [] := by
  intro k
  rw [read.filed k]
  exact Written.init k st.lines

section Line
variable {st : RewriteState} {option line : Bytes} {force : Bool}

def Signed (before after : RewriteState) (filler : List Bytes) : Prop :=
  filler = [] ∧ after.needsSignature = before.needsSignature ∨
    filler = [signature] ∧ before.needsSignature = true ∧ after.needsSignature = false

theorem appendSigned_lines (st : RewriteState) (line : Bytes) :
    ∃ filler, Signed st (appendSigned st line) filler ∧
      (appendSigned st line).lines = st.lines ++ filler ++ [line] := by
  unfold appendSigned
  split
  · rename_i needed
    exact ⟨[signature], .inr ⟨rfl, needed, rfl⟩, rfl⟩
  · exact ⟨[], .inl ⟨rfl, rfl⟩, by rw [List.append_nil]; rfl⟩

theorem appendSigned_rest (st : RewriteState) (line : Bytes) :
    (appendSigned st line).optionToLine = st.optionToLine ∧
      (appendSigned st line).rewritten = st.rewritten ∧
      (appendSigned st line).forceWrite = st.forceWrite := by
  unfold appendSigned
  split <;> exact ⟨rfl, rfl, rfl⟩

theorem rewriteLine_place {i : ℕ} {rest : List ℕ} (pending : st.optionToLine option = i :: rest) :
    rewriteLine st option line force =
      ⟨Function.update st.optionToLine option rest, (markAsProcessed st option).rewritten,
        st.lines.set i line, st.needsSignature, st.forceWrite⟩ := by
  simp only [rewriteLine, pending]
  rfl

theorem rewriteLine_append (pending : st.optionToLine option = [])
    (must : (force || st.forceWrite) = true) :
    rewriteLine st option line force = appendSigned (markAsProcessed st option) line := by
  simp only [rewriteLine, pending]
  exact if_neg (by simpa [imp_iff_not_or] using must)

theorem rewriteLine_skip (pending : st.optionToLine option = [])
    (idle : (force || st.forceWrite) = false) :
    rewriteLine st option line force = markAsProcessed st option := by
  simp only [rewriteLine, pending]
  exact if_pos (by simpa using idle)

theorem rewriteLine_cases (st : RewriteState) (option : Bytes) (force : Bool) :
    (∃ i rest, st.optionToLine option = i :: rest) ∨
      st.optionToLine option = [] ∧ (force || st.forceWrite) = true ∨
      st.optionToLine option = [] ∧ (force || st.forceWrite) = false := by
  cases st.optionToLine option with
  | cons i rest => exact .inl ⟨i, rest, rfl⟩
  | nil => cases force || st.forceWrite <;> simp

theorem markAsProcessed_rewritten {k : Bytes} :
    k ∈ (markAsProcessed st option).rewritten ↔ k = option ∨ k ∈ st.rewritten := by
  unfold markAsProcessed
  dsimp only
  split
  · rename_i listed
    exact ⟨.inr, fun either => either.elim (fun same => same ▸ listed) id⟩
  · exact List.mem_cons

theorem rewriteLine_rest (st : RewriteState) (option line : Bytes) (force : Bool) :
    (rewriteLine st option line force).forceWrite = st.forceWrite ∧
      (rewriteLine st option line force).rewritten = (markAsProcessed st option).rewritten ∧
      (∀ k, k ≠ option → (rewriteLine st option line force).optionToLine k = st.optionToLine k) ∧
      ((rewriteLine st option line force).optionToLine option).length =
        (st.optionToLine option).length - 1 := by
  rcases rewriteLine_cases st option force with
    ⟨i, rest, pending⟩ | ⟨pending, must⟩ | ⟨pending, idle⟩
  · rw [rewriteLine_place pending, pending]
    refine ⟨rfl, rfl, fun k other => Function.update_of_ne other _ _, ?_⟩
    dsimp only
    rw [Function.update_self]
    rfl
  · obtain ⟨numbers, rewritten, forced⟩ := appendSigned_rest (markAsProcessed st option) line
    rw [rewriteLine_append pending must, numbers, rewritten, forced]
    exact ⟨rfl, rfl, fun _ _ => rfl, by rw [pending]; exact congrArg List.length pending⟩
  · rw [rewriteLine_skip pending idle]
    exact ⟨rfl, rfl, fun _ _ => rfl, by rw [pending]; exact congrArg List.length pending⟩

/-- What one line for an option does to the lines of all the options. -/
theorem rewriteLine_progress {done : Bytes → List Bytes} (progress : Progress configs st done)
    (owned : optionOf configs line = some option) (force : Bool) :
    Progress configs (rewriteLine st option line force) (Function.update done option
      (done option ++
        emitted (st.optionToLine option).length [(line, force || st.forceWrite)])) := by
  intro k
  have apart (other : k ≠ option) : optionOf configs line ≠ some k := by
    rw [owned]
    exact fun same => other (Option.some.inj same).symm
  rcases rewriteLine_cases st option force with
    ⟨i, rest, pending⟩ | ⟨pending, must⟩ | ⟨pending, idle⟩
  · have here := progress option
    rw [pending] at here
    rw [rewriteLine_place pending, pending]
    dsimp only
    rcases eq_or_ne k option with rfl | other
    · rw [Function.update_self, Function.update_self]
      exact here.replace owned
    · rw [Function.update_of_ne other, Function.update_of_ne other]
      exact (progress k).replace_other other.symm (here.mem_places List.mem_cons_self) owned
  · obtain ⟨filler, kind, lines⟩ := appendSigned_lines (markAsProcessed st option) line
    have filled (k : Bytes) : Written (optionOf configs) k (st.lines ++ filler)
        (st.optionToLine k) (done k) := by
      rcases kind with ⟨rfl, -⟩ | ⟨rfl, -⟩
      · rw [List.append_nil]
        exact progress k
      · exact (progress k).append_other
          (by rw [signature_inert]; exact (Option.some_ne_none k).symm)
    have numbers := (appendSigned_rest (markAsProcessed st option) line).1
    rw [rewriteLine_append pending must, lines, numbers, pending, must]
    change Written _ k (st.lines ++ filler ++ [line]) (st.optionToLine k) _
    rcases eq_or_ne k option with rfl | other
    · have here := filled k
      rw [pending] at here ⊢
      rw [Function.update_self]
      exact here.append owned
    · rw [Function.update_of_ne other]
      exact (filled k).append_other (apart other)
  · rw [rewriteLine_skip pending idle, pending, idle]
    change Written _ k st.lines (st.optionToLine k) _
    rcases eq_or_ne k option with rfl | other
    · rw [Function.update_self]
      simpa [emitted] using progress k
    · rw [Function.update_of_ne other]
      exact progress k

end Line

def forced (forceWrite : Bool) (ws : List (Bytes × Bool)) : List (Bytes × Bool) :=
  ws.map fun w => (w.1, w.2 || forceWrite)

theorem rewriteLines_progress {option : Bytes} {ws : List (Bytes × Bool)}
    (owned : ∀ w ∈ ws, optionOf configs w.1 = some option) {st : RewriteState}
    {done : Bytes → List Bytes} (progress : Progress configs st done) :
    Progress configs (ws.foldl (fun st w => rewriteLine st option w.1 w.2) st)
        (Function.update done option (done option ++
          emitted (st.optionToLine option).length (forced st.forceWrite ws))) ∧
      (ws.foldl (fun st w => rewriteLine st option w.1 w.2) st).forceWrite = st.forceWrite ∧
      (∀ k, k ≠ option → (ws.foldl (fun st w => rewriteLine st option w.1 w.2) st).optionToLine k =
        st.optionToLine k) ∧
      ∀ k, k = option ∨ k ∈ (ws.foldl (fun st w => rewriteLine st option w.1 w.2) st).rewritten ↔
        k = option ∨ k ∈ st.rewritten := by
  induction ws generalizing st done with
  | nil =>
    refine ⟨?_, rfl, fun _ _ => rfl, fun _ => Iff.rfl⟩
    rw [forced, List.map_nil, emitted, List.append_nil, Function.update_eq_self]
    exact progress
  | cons w ws ih =>
    obtain ⟨own, owned⟩ := List.forall_mem_cons.mp owned
    obtain ⟨force, marked, others, fewer⟩ := rewriteLine_rest st option w.1 w.2
    obtain ⟨after, force', others', marked'⟩ := ih owned (rewriteLine_progress progress own w.2)
    rw [List.foldl_cons]
    refine ⟨?_, force'.trans force, fun k other => (others' k other).trans (others k other),
      fun k => ?_⟩
    · rw [Function.update_idem, Function.update_self, force, fewer] at after
      rw [forced, List.map_cons, emitted_cons, ← forced, ← List.append_assoc]
      exact after
    · rw [marked' k, marked, markAsProcessed_rewritten, or_self_left]

/-- The state after some options have been rewritten, the others being as they were. -/
structure Rewrote (configs : List StandardConfig) (st st' : RewriteState)
    (done done' : Bytes → List Bytes)
    (os : List (Bytes × List (Bytes × Bool))) : Prop where
  progress : Progress configs st' done'
  written : ∀ o ∈ os, done' o.1 =
    done o.1 ++ emitted (st.optionToLine o.1).length (forced st.forceWrite o.2)
  others : ∀ k, k ∉ os.map Prod.fst → done' k = done k ∧ st'.optionToLine k = st.optionToLine k
  rewritten : ∀ k, k ∈ st'.rewritten ↔ k ∈ os.map Prod.fst ∨ k ∈ st.rewritten
  forceWrite : st'.forceWrite = st.forceWrite

theorem rewriteOption_rewrote {o : Bytes × List (Bytes × Bool)}
    (owned : ∀ w ∈ o.2, optionOf configs w.1 = some o.1) {st : RewriteState}
    {done : Bytes → List Bytes} (progress : Progress configs st done) :
    ∃ done', Rewrote configs st (rewriteOption st o) done done' [o] := by
  obtain ⟨after, force, others, marked⟩ := rewriteLines_progress owned progress
  refine ⟨_, after, ?_, fun k other => ?_, fun k => ?_, force⟩
  · exact List.forall_mem_singleton.mpr (Function.update_self _ _ _)
  · rw [List.map_singleton, List.mem_singleton] at other
    exact ⟨Function.update_of_ne other _ _, others k other⟩
  · rw [rewriteOption, markAsProcessed_rewritten, List.map_singleton, List.mem_singleton]
    exact marked k

theorem options_rewrote {os : List (Bytes × List (Bytes × Bool))}
    (distinct : (os.map Prod.fst).Nodup)
    (owned : ∀ o ∈ os, ∀ w ∈ o.2, optionOf configs w.1 = some o.1) {st : RewriteState}
    {done : Bytes → List Bytes} (progress : Progress configs st done) :
    ∃ done', Rewrote configs st (os.foldl rewriteOption st) done done' os := by
  induction os generalizing st done with
  | nil => exact ⟨done, progress, List.forall_mem_nil _, fun _ _ => ⟨rfl, rfl⟩, by simp, rfl⟩
  | cons o os ih =>
    obtain ⟨own, owned⟩ := List.forall_mem_cons.mp owned
    rw [List.map_cons, List.nodup_cons] at distinct
    obtain ⟨outside, distinct⟩ := distinct
    obtain ⟨middle, first⟩ := rewriteOption_rewrote own progress
    obtain ⟨last, rest⟩ := ih distinct owned first.progress
    rw [List.foldl_cons]
    refine ⟨last, rest.progress, ?_, ?_, ?_, rest.forceWrite.trans first.forceWrite⟩
    · refine List.forall_mem_cons.mpr ⟨?_, fun p listed => ?_⟩
      · rw [(rest.others o.1 outside).1]
        exact first.written o (List.mem_singleton_self o)
      · have other : p.1 ∉ [o].map Prod.fst := fun same => outside (by
          rw [List.map_singleton, List.mem_singleton] at same
          exact same ▸ List.mem_map_of_mem listed)
        rw [rest.written p listed, (first.others p.1 other).1, (first.others p.1 other).2,
          first.forceWrite]
    · intro k other
      rw [List.map_cons, List.mem_cons, not_or] at other
      have apart : k ∉ [o].map Prod.fst := by simpa using other.1
      exact ⟨(rest.others k other.2).1.trans (first.others k apart).1,
        (rest.others k other.2).2.trans (first.others k apart).2⟩
    · intro k
      rw [rest.rewritten, first.rewritten, List.map_singleton, List.mem_singleton, List.map_cons,
        List.mem_cons]
      tauto

end Progress

section Kept
variable {configs : List StandardConfig}

theorem Signed.trans {a b c : RewriteState} {f g : List Bytes} (first : Signed a b f)
    (second : Signed b c g) : Signed a c (f ++ g) := by
  rcases first with ⟨rfl, same⟩ | ⟨rfl, needed, given⟩
  · rcases second with ⟨rfl, same'⟩ | ⟨rfl, needed', given'⟩
    · exact .inl ⟨rfl, same'.trans same⟩
    · exact .inr ⟨rfl, same ▸ needed', given'⟩
  · rcases second with ⟨rfl, same'⟩ | ⟨rfl, needed', given'⟩
    · exact .inr ⟨rfl, needed, same'.trans given⟩
    · rw [given] at needed'
      cases needed'

theorem rewriteLine_filter {p : Bytes → Bool} {option line : Bytes}
    (out : ∀ l, optionOf configs l = some option → p l = false)
    (owned : optionOf configs line = some option) {st : RewriteState} {done : Bytes → List Bytes}
    (progress : Progress configs st done) (force : Bool) :
    ∃ filler, Signed st (rewriteLine st option line force) filler ∧
      (rewriteLine st option line force).lines.filter p = (st.lines ++ filler).filter p := by
  rcases rewriteLine_cases st option force with
    ⟨i, rest, pending⟩ | ⟨pending, must⟩ | ⟨pending, idle⟩
  · refine ⟨[], .inl ⟨rfl, by rw [rewriteLine_place pending]⟩, ?_⟩
    have place : i ∈ places (optionOf configs) option st.lines :=
      (progress option).mem_places (by rw [pending]; exact List.mem_cons_self)
    rw [rewriteLine_place pending, List.append_nil]
    refine filter_set (out line owned) fun x found => out x ?_
    rw [mem_places, found] at place
    exact place
  · obtain ⟨filler, signed, lines⟩ := appendSigned_lines (markAsProcessed st option) line
    rw [rewriteLine_append pending must]
    refine ⟨filler, signed, ?_⟩
    rw [lines, List.filter_append, List.filter_singleton, out line owned]
    exact List.append_nil _
  · exact ⟨[], .inl ⟨rfl, by rw [rewriteLine_skip pending idle]; rfl⟩,
      by rw [rewriteLine_skip pending idle, List.append_nil]; rfl⟩

theorem rewriteLines_filter {p : Bytes → Bool} {option : Bytes}
    (out : ∀ l, optionOf configs l = some option → p l = false) {ws : List (Bytes × Bool)}
    (owned : ∀ w ∈ ws, optionOf configs w.1 = some option) {st : RewriteState}
    {done : Bytes → List Bytes} (progress : Progress configs st done) :
    ∃ filler, Signed st (ws.foldl (fun st w => rewriteLine st option w.1 w.2) st) filler ∧
      (ws.foldl (fun st w => rewriteLine st option w.1 w.2) st).lines.filter p =
        (st.lines ++ filler).filter p := by
  induction ws generalizing st done with
  | nil => exact ⟨[], .inl ⟨rfl, rfl⟩, by rw [List.append_nil]; rfl⟩
  | cons w ws ih =>
    obtain ⟨own, owned⟩ := List.forall_mem_cons.mp owned
    obtain ⟨f, first, kept⟩ := rewriteLine_filter out own progress w.2
    obtain ⟨g, second, kept'⟩ := ih owned (rewriteLine_progress progress own w.2)
    refine ⟨f ++ g, first.trans second, ?_⟩
    rw [List.foldl_cons, kept', List.filter_append, kept, ← List.filter_append, List.append_assoc]

theorem options_filter {p : Bytes → Bool} {os : List (Bytes × List (Bytes × Bool))}
    (out : ∀ o ∈ os, ∀ l, optionOf configs l = some o.1 → p l = false)
    (owned : ∀ o ∈ os, ∀ w ∈ o.2, optionOf configs w.1 = some o.1) {st : RewriteState}
    {done : Bytes → List Bytes} (progress : Progress configs st done) :
    ∃ filler, Signed st (os.foldl rewriteOption st) filler ∧
      (os.foldl rewriteOption st).lines.filter p = (st.lines ++ filler).filter p := by
  induction os generalizing st done with
  | nil => exact ⟨[], .inl ⟨rfl, rfl⟩, by rw [List.append_nil]; rfl⟩
  | cons o os ih =>
    obtain ⟨own, owned⟩ := List.forall_mem_cons.mp owned
    obtain ⟨here, out⟩ := List.forall_mem_cons.mp out
    obtain ⟨f, first, kept⟩ := rewriteLines_filter here own progress
    obtain ⟨done', rewrote⟩ := rewriteOption_rewrote own progress
    obtain ⟨g, second, kept'⟩ := ih out owned rewrote.progress
    refine ⟨f ++ g, Signed.trans first second, ?_⟩
    have lines : (rewriteOption st o).lines.filter p = (st.lines ++ f).filter p := kept
    rw [List.foldl_cons, kept', List.filter_append, lines, ← List.filter_append, List.append_assoc]

theorem withoutRuns_filter {p : Bytes → Bool} (blank : p [] = false) (wasEmpty : Bool)
    (ls : List Bytes) : (withoutRuns wasEmpty ls).filter p = ls.filter p := by
  induction ls generalizing wasEmpty with
  | nil => rfl
  | cons l ls ih =>
    rw [withoutRuns]
    split_ifs with empty was
    · subst empty
      rw [ih, List.filter_cons_of_neg (by simp [blank])]
    · rw [List.filter_cons, List.filter_cons, ih]
    · rw [List.filter_cons, List.filter_cons, ih]

theorem withoutRuns_subset (wasEmpty : Bool) (ls : List Bytes) : withoutRuns wasEmpty ls ⊆ ls := by
  induction ls generalizing wasEmpty with
  | nil => exact List.Subset.refl _
  | cons l ls ih =>
    rw [withoutRuns]
    split_ifs
    · exact List.subset_cons_of_subset l (ih true)
    · exact List.cons_subset_cons l (ih true)
    · exact List.cons_subset_cons l (ih false)

theorem splitOn_lines {ls : List Bytes} (inline : ∀ l ∈ ls, Inline l) :
    (ls.flatMap fun l => l ++ [byte '\n']).splitOn (byte '\n') = ls ++ [[]] := by
  induction ls with
  | nil => rfl
  | cons l ls ih =>
    obtain ⟨own, inline⟩ := List.forall_mem_cons.mp inline
    rw [List.flatMap_cons, List.append_assoc, List.singleton_append, List.splitOn_append_cons_self,
      List.splitOn_eq_singleton own.2, ih inline, List.singleton_append, List.cons_append]

theorem linesOf_written {ls : List Bytes} (inline : ∀ l ∈ ls, Inline l) :
    ∃ last, (last = [] ∨ last = [[]]) ∧
      linesOf (ls.flatMap fun l => l ++ [byte '\n']) = ls ++ last := by
  have noNul : 0 ∉ ls.flatMap fun l => l ++ [byte '\n'] := by
    intro nul
    obtain ⟨l, listed, own⟩ := List.mem_flatMap.mp nul
    rcases List.mem_append.mp own with inside | feed
    · exact (inline l listed).1 inside
    · exact absurd feed (by decide)
  rw [linesOf, cString_eq_self noNul, sdssplitlen]
  cases ls with
  | nil => exact ⟨[], .inl rfl, rfl⟩
  | cons l ls =>
    refine ⟨[[]], .inr rfl, ?_⟩
    rw [if_neg (by simp), splitOn_lines inline]

end Kept

end LempStack.ValkeyRewrite
