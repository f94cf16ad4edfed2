import LempStack.ValkeyRestore

/-! The Valkey server reads its configuration file, after `loadServerConfigFromString` of
`config.c`. The settings are kept by the names of the configs; a line changes the setting
of the config it names, or none. Sentinel mode and cluster mode are off, as the role has
them. -/

namespace LempStack.ValkeyLoad
open SdsStrings ValkeyNumbers ValkeyOptions OwnedLines ValkeyRestore

abbrev Settings := Bytes → Value

structure LoadError where
  line : Option (ℕ × Bytes)
  err : String
  deriving DecidableEq, Repr

section Loader
variable (sys : System) (configs : List StandardConfig)

/-- The keys of the dictionary of configs are hashed and compared without their case. -/
def sameOption (a b : Bytes) : Bool := a.map tolower == b.map tolower

def answers (c : StandardConfig) (name : Bytes) : Bool :=
  sameOption c.name name || c.aliasName.any fun other => sameOption other name

def lookupConfig (name : Bytes) : Option StandardConfig := configs.find? fun c => answers c name

def initConfigValues : Settings := fun name =>
  match lookupConfig configs name with
  | some c => defaultValue sys c.data
  | none => .text none

/-- Names with the numbers of arguments they may stand with, their own included. -/
def deprecatedConfigs : List (Bytes × ℕ × ℕ) :=
  [(bytes "list-max-ziplist-entries", 2, 2), (bytes "list-max-ziplist-value", 2, 2),
    (bytes "lua-replicate-commands", 2, 2)]

def isDeprecated (name : Bytes) (argc : ℕ) : Bool :=
  deprecatedConfigs.any fun d =>
    sameCaseless name d.1 && decide (d.2.1 ≤ argc) && decide (argc ≤ d.2.2)

def includedFile (name : Bytes) : List Bytes → Option Bytes
  | [path] => if sameCaseless name (bytes "include") then some path else none
  | _ => none

/-- The directives that are no configs; what an included file sets is not said here. -/
def otherDirective (name : Bytes) (args : List Bytes) : Except String Unit :=
  let refused : Except String Unit :=
    match sys.other (name :: args) with
    | some err => .error err
    | none => .ok ()
  if isDeprecated name (args.length + 1) then .ok ()
  else if sameCaseless name (bytes "include") ∧ args.length = 1 then .ok ()
  else if sameCaseless name (bytes "rename-command") ∧ args.length = 2 then refused
  else if sameCaseless name (bytes "user") ∧ 1 ≤ args.length then refused
  else if sameCaseless name (bytes "loadmodule") ∧ 1 ≤ args.length then .ok ()
  else if (cString name).contains (byte '.') then
    if args = [] then .error "Module config specified without value" else .ok ()
  else if sameCaseless name (bytes "sentinel") then
    if args = [] then .ok () else .error "sentinel directive while not in sentinel mode"
  else .error "Bad directive or wrong number of arguments"

def loadDirective (s : Settings) : List Bytes → Except String Settings
  | [] => .ok s
  | name :: args =>
    match lookupConfig configs (name.map tolower) with
    | some c => (applyArgs sys c args (s c.name)).map (Function.update s c.name)
    | none =>
      match includedFile (name.map tolower) args with
      | some path => sys.included path s
      | none => (otherDirective sys (name.map tolower) args).map fun _ => s

def argvOf (line : Bytes) : Option (List Bytes) :=
  let trimmed := sdstrim line lineBlanks
  if trimmed.head? = some (byte '#') ∨ trimmed = [] then some [] else sdssplitargs trimmed

def loadLine (s : Settings) (line : Bytes) : Except String Settings :=
  match argvOf line with
  | none => .error "Unbalanced quotes in configuration line"
  | some argv => loadDirective sys configs s argv

def loadLines (n : ℕ) : List Bytes → Settings → Except LoadError Settings
  | [], s => .ok s
  | line :: rest, s =>
    match loadLine sys configs s line with
    | .ok s => loadLines (n + 1) rest s
    | .error err => .error ⟨some (n, sdstrim line lineBlanks), err⟩

def logError : Value → Option String
  | .text (some (b :: path)) => sys.openLog (b :: path)
  | _ => none

def clampedHz : Value → Value
  | .numeric hz => .numeric (min (max hz 1) 500)
  | v => v

def clampHz (s : Settings) : Settings :=
  Function.update s (bytes "hz") (clampedHz (s (bytes "hz")))

theorem clampHz_clampHz (s : Settings) : clampHz (clampHz s) = clampHz s := by
  simp only [clampHz, Function.update_self, Function.update_idem]
  congr 1
  cases s (bytes "hz") with
  | numeric hz =>
    simp only [clampedHz]
    congr 1
    omega
  | _ => rfl

def finish (s : Settings) : Except LoadError Settings :=
  match logError sys (s (bytes "logfile")) with
  | some err => .error ⟨none, "Can't open the log file: " ++ err⟩
  | none => .ok (clampHz s)

def loadServerConfigFromString (config : Bytes) (s : Settings) : Except LoadError Settings :=
  (loadLines sys configs 1 (sdssplitlen (cString config) (byte '\n')) s).bind (finish sys)

end Loader

section Lines

theorem tolower_tolower (b : UInt8) : tolower (tolower b) = tolower b := by
  unfold tolower
  split_ifs with upper again
  · have small : b.toNat ≤ 0x5a := UInt8.le_iff_toNat_le.mp upper.2
    have large : 0x41 ≤ b.toNat := UInt8.le_iff_toNat_le.mp upper.1
    have cased : (b + 0x20).toNat ≤ 0x5a := UInt8.le_iff_toNat_le.mp again.2
    rw [UInt8.toNat_add] at cased
    simp at cased
    omega
  · rfl
  · rfl

theorem lookupConfig_tolower (configs : List StandardConfig) (name : Bytes) :
    lookupConfig configs (name.map tolower) = lookupConfig configs name := by
  have same (a : Bytes) : sameOption a (name.map tolower) = sameOption a name := by
    rw [sameOption, sameOption, List.map_map]
    congr 2
    exact funext tolower_tolower
  simp only [lookupConfig, answers, same]

theorem argvOf_sdstrim (line : Bytes) : argvOf (sdstrim line lineBlanks) = argvOf line := by
  simp only [argvOf, sdstrim_sdstrim]

theorem argvOf_nil : argvOf [] = some [] := rfl

theorem argvOf_comment (rest : Bytes) : argvOf (byte '#' :: rest) = some [] := by
  have first : (sdstrim (byte '#' :: rest) lineBlanks).head? = some (byte '#') := by
    have cut := rtrim_append [byte '#'] rest
    have own : rtrim [byte '#'] = [byte '#'] := by decide
    rw [List.singleton_append, own] at cut
    rw [sdstrim, List.dropWhile_cons_of_neg (by decide), ← rtrim, cut]
    split_ifs <;> rfl
  rw [argvOf, if_pos (.inl first)]

theorem argvOf_line {name : Bytes} (plain : Plain name) (noComment : name.head? ≠ some (byte '#'))
    {text : Bytes} (inline : Inline text) :
    argvOf (name ++ byte ' ' :: text) = (tokensOf (rtrim text)).map (name :: ·) := by
  have blank : Inline [byte ' '] := ⟨by decide, by decide⟩
  have whole : Inline (name ++ byte ' ' :: text) := by
    rw [← List.singleton_append]
    exact (inline_of_ordinary plain.ordinary).append (blank.append inline)
  have first : (sdstrim (name ++ byte ' ' :: text) lineBlanks).head? = name.head? := by
    obtain ⟨b, rest, split, -⟩ := plain.begins
    rw [sdstrim_line plain, split]
    split_ifs <;> rfl
  have directive : ¬ ((sdstrim (name ++ byte ' ' :: text) lineBlanks).head? = some (byte '#') ∨
      sdstrim (name ++ byte ' ' :: text) lineBlanks = []) := by
    rintro (comment | empty)
    · exact noComment (first ▸ comment)
    · obtain ⟨b, rest, split, -⟩ := plain.begins
      rw [empty, split] at first
      cases first
  simp only [argvOf]
  rw [if_neg directive, sdssplitargs_eq (whole.subset (sdstrim_subset _ _)).1, tokensOf_line plain]

end Lines

section Keys
variable (sys : System) (configs : List StandardConfig)

def configOf (line : Bytes) : Option Bytes :=
  match argvOf line with
  | some (name :: _) => (lookupConfig configs (name.map tolower)).map StandardConfig.name
  | _ => none

def changeLine (line : Bytes) (v : Value) : Except String Value :=
  match argvOf line with
  | some (name :: args) =>
    match lookupConfig configs (name.map tolower) with
    | some c => applyArgs sys c args v
    | none => .ok v
  | _ => .ok v

def checkLine (line : Bytes) : Except String Unit :=
  match argvOf line with
  | none => .error "Unbalanced quotes in configuration line"
  | some [] => .ok ()
  | some (name :: args) => otherDirective sys (name.map tolower) args

def isInclude (line : Bytes) : Bool :=
  match argvOf line with
  | some (name :: args) =>
    (lookupConfig configs (name.map tolower)).isNone &&
    (includedFile (name.map tolower) args).isSome
  | _ => false

theorem loadLine_eq (s : Settings) {line : Bytes} (alone : isInclude configs line = false) :
    loadLine sys configs s line =
      readLine (configOf configs) (changeLine sys configs) (checkLine sys) s line := by
  unfold loadLine readLine configOf changeLine checkLine
  unfold isInclude at alone
  revert alone
  rcases argvOf line with _ | _ | ⟨name, args⟩ <;> intro alone
  · rfl
  · rfl
  · dsimp only [loadDirective] at alone ⊢
    cases found : lookupConfig configs (name.map tolower) with
    | some c => rfl
    | none =>
      have own : includedFile (name.map tolower) args = none := by simpa [found] using alone
      rw [own]
      rfl

variable {sys configs}

theorem loadLines_foldlM {n : ℕ} {lines : List Bytes} {s s' : Settings} :
    loadLines sys configs n lines s = .ok s' ↔
      lines.foldlM (loadLine sys configs) s = .ok s' := by
  induction lines generalizing n s with
  | nil => simp [loadLines, pure, Except.pure]
  | cons line lines ih =>
    rw [loadLines, List.foldlM_cons]
    cases loadLine sys configs s line with
    | error err => simp [bind, Except.bind]
    | ok t => exact ih

def linesOf (config : Bytes) : List Bytes := sdssplitlen (cString config) (byte '\n')

theorem finish_iff {s s' : Settings} :
    finish sys s = .ok s' ↔ logError sys (s (bytes "logfile")) = none ∧ clampHz s = s' := by
  unfold finish
  cases logError sys (s (bytes "logfile")) <;> simp

theorem loadServerConfigFromString_read {config : Bytes} {s s' : Settings} :
    loadServerConfigFromString sys configs config s = .ok s' ↔
      ∃ t, loadLines sys configs 1 (linesOf config) s = .ok t ∧
        logError sys (t (bytes "logfile")) = none ∧ clampHz t = s' := by
  rw [loadServerConfigFromString, ← linesOf]
  cases loadLines sys configs 1 (linesOf config) s with
  | error err => simp [Except.bind]
  | ok t => simp [Except.bind, finish_iff]

/-- A file that includes no other is read key by key. -/
theorem loadServerConfigFromString_iff {config : Bytes} {s s' : Settings}
    (alone : ∀ l ∈ linesOf config, isInclude configs l = false) :
    loadServerConfigFromString sys configs config s = .ok s' ↔
      (∀ l ∈ linesOf config, configOf configs l = none → checkLine sys l = .ok ()) ∧
        ∃ t : Settings,
          (∀ k, (own (configOf configs) k (linesOf config)).foldlM
            (fun v l => changeLine sys configs l v) (s k) = .ok (t k)) ∧
          logError sys (t (bytes "logfile")) = none ∧ clampHz t = s' := by
  have lines := foldlM_congr_mem fun l listed s => loadLine_eq sys configs s (alone l listed)
  simp only [loadServerConfigFromString_read, loadLines_foldlM, lines, foldlM_readLine_iff,
    and_assoc, exists_and_left]

end Keys

section Formed
variable {sys : System} {configs : List StandardConfig}

/-- The number of the `hz` config, whose bounds are wider than what the loader leaves of it. -/
def isHz : TypeData → Bool
  | .numeric n => n == ⟨.int, {}, 0, intMax, 10⟩
  | _ => false

/-- A table whose configs are regular and answer to different names. -/
structure Table (configs : List StandardConfig) : Prop where
  regular : ∀ c ∈ configs, Regular c
  distinct : configs.Pairwise fun c d => answers c d.name = false
  hz : ∀ c ∈ configs, c.name = bytes "hz" → isHz c.data = true

theorem staticConfigs_table : Table staticConfigs :=
  ⟨staticConfigs_regular, by decide +kernel, by decide +kernel⟩

theorem answers_self (c : StandardConfig) : answers c c.name = true := by
  simp [answers, sameOption]

theorem Table.lookup (table : Table configs) {c : StandardConfig} (listed : c ∈ configs) :
    lookupConfig configs c.name = some c := by
  obtain ⟨before, after, split⟩ := List.append_of_mem listed
  have apart := table.distinct
  rw [split, List.pairwise_append] at apart
  rw [lookupConfig, List.find?_eq_some_iff_append]
  refine ⟨answers_self c, before, after, split, fun d first => ?_⟩
  rw [apart.2.2 d first c List.mem_cons_self]
  rfl

theorem lookupConfig_mem {name : Bytes} {c : StandardConfig}
    (found : lookupConfig configs name = some c) :
    c ∈ configs :=
  List.mem_of_find?_eq_some found

theorem Table.name_inj (table : Table configs) {c d : StandardConfig} (hc : c ∈ configs)
    (hd : d ∈ configs) (same : c.name = d.name) : c = d := by
  have found := table.lookup hc
  rw [same, table.lookup hd] at found
  exact (Option.some.inj found).symm

def Formed (sys : System) (configs : List StandardConfig) (s : Settings) : Prop :=
  ∀ c ∈ configs, WellFormed sys c.data (s c.name)

theorem initConfigValues_eq (table : Table configs) {c : StandardConfig} (listed : c ∈ configs) :
    initConfigValues sys configs c.name = defaultValue sys c.data := by
  rw [initConfigValues, table.lookup listed]

theorem initConfigValues_formed (table : Table configs) :
    Formed sys configs (initConfigValues sys configs) := by
  intro c listed
  rw [initConfigValues_eq table listed]
  exact defaultValue_wellFormed (table.regular c listed).data

theorem applyArgs_wellFormed {c : StandardConfig} (regular : RegularData c.data) {args : List Bytes}
    {v v' : Value} (formed : WellFormed sys c.data v) (applied : applyArgs sys c args v = .ok v') :
    WellFormed sys c.data v' := by
  unfold applyArgs at applied
  split at applied
  · exact set_wellFormed regular formed applied
  · cases applied
  · split_ifs at applied
    · exact set_wellFormed regular formed applied
    · exact set_wellFormed regular formed applied
  · exact set_wellFormed regular formed applied

theorem changeLine_wellFormed (table : Table configs) {c : StandardConfig} (listed : c ∈ configs)
    {line : Bytes} (owned : configOf configs line = some c.name) {v v' : Value}
    (formed : WellFormed sys c.data v) (changed : changeLine sys configs line v = .ok v') :
    WellFormed sys c.data v' := by
  unfold configOf at owned
  unfold changeLine at changed
  split at owned
  · rename_i name args read
    obtain ⟨d, found, same⟩ := Option.map_eq_some_iff.mp owned
    have one : d = c := table.name_inj (lookupConfig_mem found) listed same
    subst one
    simp only [read, found] at changed
    exact applyArgs_wellFormed (table.regular d listed).data formed changed
  · cases owned

theorem clampedHz_wellFormed {d : TypeData} (kind : isHz d = true) {v : Value}
    (formed : WellFormed sys d v) : WellFormed sys d (clampedHz v) := by
  cases d with
  | numeric n =>
    have bounds : n = ⟨.int, {}, 0, intMax, 10⟩ := by simpa [isHz] using kind
    subst bounds
    cases v with
    | numeric hz =>
      obtain ⟨low, high⟩ : 1 ≤ min (max hz 1) 500 ∧ min (max hz 1) 500 ≤ 500 := by omega
      refine ⟨?_, ?_⟩
      · rw [numericBoundaryCheck, if_neg (by decide), if_neg (by simp), if_neg]
        simp only [intMax]
        omega
      · simp only [llongMin, llongMax]
        omega
    | _ => cases formed
  | _ => cases kind

theorem clampHz_formed (table : Table configs) {s : Settings} (formed : Formed sys configs s) :
    Formed sys configs (clampHz s) := by
  intro c listed
  rcases eq_or_ne c.name (bytes "hz") with named | other
  · rw [named, clampHz, Function.update_self, ← named]
    exact clampedHz_wellFormed (table.hz c listed named) (formed c listed)
  · rw [clampHz, Function.update_of_ne other]
    exact formed c listed

/-- Whatever file is read, the settings are well formed. -/
theorem load_formed (table : Table configs) {config : Bytes} {s s' : Settings}
    (formed : Formed sys configs s) (alone : ∀ l ∈ linesOf config, isInclude configs l = false)
    (loaded : loadServerConfigFromString sys configs config s = .ok s') :
    Formed sys configs s' := by
  obtain ⟨-, t, keys, -, rfl⟩ := (loadServerConfigFromString_iff alone).mp loaded
  refine clampHz_formed table fun c listed => ?_
  refine foldlM_keeps (P := WellFormed sys c.data) (fun line mine v v' formed changed => ?_)
    (formed c listed) (keys c.name)
  have owned : configOf configs line = some c.name := by
    simpa [own] using (List.mem_filter.mp mine).2
  exact changeLine_wellFormed table listed owned formed changed

end Formed

end LempStack.ValkeyLoad
