import LempStack.ValkeyLoad

/-! The template `valkey.conf.j2` of the valkey role, and the server that reads what it
renders. A variable is the text that the template writes for it, so a line of a loop or of a
condition is there as often as the variables say. The directives of the template that are no
configs are deprecated names, which the server ignores. -/

namespace LempStack.ValkeyConf
open SdsStrings ValkeyNumbers ValkeyOptions OwnedLines ValkeyRestore ValkeyLoad

inductive ConfLine where
  | blank
  | comment (rest : Bytes)
  | option (name text : Bytes)

namespace ConfLine

def render : ConfLine → Bytes
  | blank => []
  | comment rest => byte '#' :: rest
  | option name text => name ++ byte ' ' :: text

def text : ConfLine → Bytes
  | option _ text => text
  | _ => []

section Reading
variable (sys : System) (configs : List StandardConfig)

def owner : ConfLine → Option Bytes
  | option name _ => (lookupConfig configs name).map StandardConfig.name
  | _ => none

def change : ConfLine → Value → Except String Value
  | option name text, v =>
    match lookupConfig configs name with
    | some c => setText sys c text v
    | none => .ok v
  | _, v => .ok v

def check : ConfLine → Except String Unit
  | option name text =>
    match sdssplitargs (rtrim text) with
    | some args => otherDirective sys (name.map tolower) args
    | none => .error "Unbalanced quotes in configuration line"
  | _ => .ok ()

end Reading

def Directive (name : Bytes) : Prop :=
  Plain name ∧ name.head? ≠ some (byte '#') ∧
    sameCaseless (name.map tolower) (bytes "include") = false

instance : DecidablePred Directive := fun name =>
  inferInstanceAs (Decidable (Plain name ∧ name.head? ≠ some (byte '#') ∧
    sameCaseless (name.map tolower) (bytes "include") = false))

def Clean : ConfLine → Prop
  | blank => True
  | comment rest => Inline rest
  | option name text => Directive name ∧ Inline text

theorem Clean.inline {l : ConfLine} (clean : l.Clean) : Inline l.render := by
  cases l with
  | blank => exact ⟨List.not_mem_nil, List.not_mem_nil⟩
  | comment rest =>
    have sign : Inline [byte '#'] := ⟨by decide, by decide⟩
    exact sign.append clean
  | option name text =>
    have blank : Inline [byte ' '] := ⟨by decide, by decide⟩
    exact (inline_of_ordinary clean.1.1.ordinary).append (blank.append clean.2)

/-- The loader makes of a line what its name and its text say. -/
theorem loadLine_render {l : ConfLine} (clean : l.Clean) (sys : System)
    (configs : List StandardConfig)
    (s : Settings) :
    loadLine sys configs s l.render =
      readLine (owner configs) (change sys configs) (check sys) s l := by
  cases l with
  | blank => rfl
  | comment rest =>
    rw [loadLine, render, argvOf_comment]
    rfl
  | option name text =>
    obtain ⟨⟨plain, noComment, noInclude⟩, inline⟩ := clean
    have own (args : List Bytes) : includedFile (name.map tolower) args = none := by
      unfold includedFile
      split
      · rw [if_neg (by simp [noInclude])]
      · rfl
    have noNul : 0 ∉ rtrim text := (inline.subset (rtrim_subset text)).1
    simp only [loadLine, render, argvOf_line plain noComment inline, readLine, owner, change, check,
      setText, sdssplitargs_eq noNul]
    cases tokensOf (rtrim text) with
    | none => cases lookupConfig configs name <;> rfl
    | some args =>
      simp only [Option.map_some, loadDirective, lookupConfig_tolower, own]
      cases lookupConfig configs name <;> rfl

end ConfLine

section Files
variable {sys : System} {configs : List StandardConfig} {lines : List ConfLine} {s s' : Settings}

def fileOf (lines : List ConfLine) : Bytes := [byte '\n'].intercalate (lines.map ConfLine.render)

theorem fileOf_ne_nil {l : ConfLine} {ls : List ConfLine} (nonempty : l.render ≠ []) :
    fileOf (l :: ls) ≠ [] := by
  cases ls <;> simp [fileOf, List.intercalate, nonempty]

theorem intercalate_noNul {ms : List Bytes} (inline : ∀ m ∈ ms, Inline m) :
    0 ∉ [byte '\n'].intercalate ms := by
  induction ms with
  | nil => exact List.not_mem_nil
  | cons m ms ih =>
    obtain ⟨own, inline⟩ := List.forall_mem_cons.mp inline
    cases ms with
    | nil => simpa [List.intercalate] using own.1
    | cons m' ms =>
      have step : [byte '\n'].intercalate (m :: m' :: ms) =
          m ++ byte '\n' :: [byte '\n'].intercalate (m' :: ms) := by simp [List.intercalate]
      rw [step, List.mem_append, List.mem_cons, not_or, not_or]
      exact ⟨own.1, by decide, ih inline⟩

theorem linesOf_fileOf (clean : ∀ l ∈ lines, l.Clean) (nonempty : fileOf lines ≠ []) :
    linesOf (fileOf lines) = lines.map ConfLine.render := by
  have rendered : ∀ m ∈ lines.map ConfLine.render, Inline m := by
    intro m listed
    obtain ⟨l, member, rfl⟩ := List.mem_map.mp listed
    exact (clean l member).inline
  have noNul : 0 ∉ fileOf lines := intercalate_noNul rendered
  have linesThere : lines.map ConfLine.render ≠ [] := by
    intro noLines
    rw [fileOf, noLines] at nonempty
    exact nonempty rfl
  rw [linesOf, cString_eq_self noNul, sdssplitlen, if_neg (by simpa using nonempty), fileOf,
    List.splitOn_intercalate _ (fun m listed => (rendered m listed).2) linesThere]

theorem load_fileOf_iff (clean : ∀ l ∈ lines, l.Clean) (nonempty : fileOf lines ≠ []) :
    loadServerConfigFromString sys configs (fileOf lines) s = .ok s' ↔
      (∀ l ∈ lines, l.owner configs = none → l.check sys = .ok ()) ∧
        ∃ t : Settings,
          (∀ k, (own (ConfLine.owner configs) k lines).foldlM
            (fun v l => l.change sys configs v) (s k) = .ok (t k)) ∧
          logError sys (t (bytes "logfile")) = none ∧ clampHz t = s' := by
  have reading (t : Settings) : loadLines sys configs 1 (linesOf (fileOf lines)) s = .ok t ↔
      lines.foldlM (readLine (ConfLine.owner configs) (ConfLine.change sys configs)
        (ConfLine.check sys)) s = .ok t := by
    rw [linesOf_fileOf clean nonempty, loadLines_foldlM, List.foldlM_map,
      foldlM_congr_mem fun l listed s => ConfLine.loadLine_render (clean l listed) sys configs s]
  simp only [loadServerConfigFromString_read, reading, foldlM_readLine_iff, and_assoc,
    exists_and_left]

def textsOf (configs : List StandardConfig) (lines : List ConfLine) (k : Bytes) : List Bytes :=
  (own (ConfLine.owner configs) k lines).map ConfLine.text

theorem foldlM_change (table : Table configs) {c : StandardConfig} (listed : c ∈ configs)
    (v : Value) :
    (own (ConfLine.owner configs) c.name lines).foldlM (fun v l => l.change sys configs v) v =
      (textsOf configs lines c.name).foldlM (fun v text => setText sys c text v) v := by
  rw [textsOf, List.foldlM_map]
  refine foldlM_congr_mem (fun l owned v => ?_) v
  have owns : l.owner configs = some c.name := of_decide_eq_true (List.mem_filter.mp owned).2
  cases l with
  | blank => cases owns
  | comment rest => cases owns
  | option name text =>
    obtain ⟨d, found, same⟩ := Option.map_eq_some_iff.mp owns
    have one := table.name_inj (lookupConfig_mem found) listed same
    subst one
    simp only [ConfLine.change, found, ConfLine.text]

theorem own_owner_free {k : Bytes} (free : ∀ c ∈ configs, c.name ≠ k) :
    own (ConfLine.owner configs) k lines = [] := by
  refine List.filter_eq_nil_iff.mpr fun l listed owned => ?_
  cases l with
  | blank => cases of_decide_eq_true owned
  | comment rest => cases of_decide_eq_true owned
  | option name text =>
    obtain ⟨c, found, same⟩ := Option.map_eq_some_iff.mp (of_decide_eq_true owned)
    exact free c (lookupConfig_mem found) same

end Files

structure ValkeyVars where
  bindInterface : Bytes
  port : Bytes
  tcpBacklog : Bytes
  unixsocket : Bytes
  unixsocketperm : Bytes
  tcpKeepalive : Bytes
  daemonize : Bytes
  supervised : Bytes
  loglevel : Bytes
  logfile : Bytes
  databases : Bytes
  save : List Bytes
  password : Bytes
  maxclients : Bytes
  maxmemory : Bytes
  maxmemoryPolicy : Bytes
  appendonly : Bytes
  appendfsync : Bytes

def roleDefaults : ValkeyVars where
  bindInterface := bytes "127.0.0.1"
  port := bytes "6379"
  tcpBacklog := bytes "511"
  unixsocket := bytes "/var/run/valkey/valkey.sock"
  unixsocketperm := bytes "775"
  tcpKeepalive := bytes "300"
  daemonize := bytes "no"
  supervised := bytes "systemd"
  loglevel := bytes "notice"
  logfile := bytes "/var/log/valkey/valkey.log"
  databases := bytes "16"
  save := [bytes "900 1", bytes "300 10", bytes "60 10000"]
  password := []
  maxclients := bytes "10000"
  maxmemory := bytes "128mb"
  maxmemoryPolicy := bytes "allkeys-lru"
  appendonly := bytes "yes"
  appendfsync := bytes "everysec"

/-- A piece of the template; the last kind is a line for every text the variables give. -/
inductive Piece where
  | blank
  | comment (rest : Bytes)
  | fixed (name text : Bytes)
  | written (name : Bytes) (texts : ValkeyVars → List Bytes)

namespace Piece

def lines (v : ValkeyVars) : Piece → List ConfLine
  | blank => [.blank]
  | comment rest => [.comment rest]
  | fixed name text => [.option name text]
  | written name texts => (texts v).map (.option name)

end Piece

section Template

def varLine (name : String) (text : ValkeyVars → Bytes) : Piece :=
  .written (bytes name) fun v => [text v]

def fixedLine (name text : String) : Piece := .fixed (bytes name) (bytes text)

/-- There is no such line where the password is empty. -/
def passwordLine : Piece :=
  .written (bytes "requirepass") fun v => if v.password = [] then [] else [v.password]

def valkeyConfTemplate : List Piece :=
  [.comment (bytes " Valkey配置文件"),
    .comment (bytes " Ansible管理，请勿手动修改"),
    .blank,
    .comment (bytes " 网络"),
    varLine "bind" ValkeyVars.bindInterface,
    varLine "port" ValkeyVars.port,
    varLine "tcp-backlog" ValkeyVars.tcpBacklog,
    varLine "unixsocket" ValkeyVars.unixsocket,
    varLine "unixsocketperm" ValkeyVars.unixsocketperm,
    fixedLine "timeout" "0",
    varLine "tcp-keepalive" ValkeyVars.tcpKeepalive,
    .blank,
    .comment (bytes " 通用"),
    varLine "daemonize" ValkeyVars.daemonize,
    varLine "supervised" ValkeyVars.supervised,
    fixedLine "pidfile" "/var/run/valkey/valkey.pid",
    varLine "loglevel" ValkeyVars.loglevel,
    varLine "logfile" ValkeyVars.logfile,
    varLine "databases" ValkeyVars.databases,
    .blank,
    .comment (bytes " 快照"),
    .written (bytes "save") ValkeyVars.save,
    fixedLine "stop-writes-on-bgsave-error" "yes",
    fixedLine "rdbcompression" "yes",
    fixedLine "rdbchecksum" "yes",
    fixedLine "dbfilename" "dump.rdb",
    fixedLine "dir" "/var/lib/valkey",
    .blank,
    .comment (bytes " 安全"),
    passwordLine,
    .blank,
    .comment (bytes " 客户端"),
    varLine "maxclients" ValkeyVars.maxclients,
    .blank,
    .comment (bytes " 内存管理"),
    varLine "maxmemory" ValkeyVars.maxmemory,
    varLine "maxmemory-policy" ValkeyVars.maxmemoryPolicy,
    fixedLine "maxmemory-samples" "5",
    .blank,
    .comment (bytes " 追加模式"),
    varLine "appendonly" ValkeyVars.appendonly,
    fixedLine "appendfilename" "\"appendonly.aof\"",
    varLine "appendfsync" ValkeyVars.appendfsync,
    fixedLine "no-appendfsync-on-rewrite" "no",
    fixedLine "auto-aof-rewrite-percentage" "100",
    fixedLine "auto-aof-rewrite-min-size" "64mb",
    .blank,
    .comment (bytes " 高级配置"),
    fixedLine "hash-max-ziplist-entries" "512",
    fixedLine "hash-max-ziplist-value" "64",
    fixedLine "list-max-ziplist-entries" "512",
    fixedLine "list-max-ziplist-value" "64",
    fixedLine "set-max-intset-entries" "512",
    fixedLine "zset-max-ziplist-entries" "128",
    fixedLine "zset-max-ziplist-value" "64",
    fixedLine "hll-sparse-max-bytes" "3000",
    fixedLine "activerehashing" "yes",
    fixedLine "client-output-buffer-limit" "normal 0 0 0",
    fixedLine "client-output-buffer-limit" "slave 256mb 64mb 60",
    fixedLine "client-output-buffer-limit" "pubsub 32mb 8mb 60",
    fixedLine "hz" "10",
    fixedLine "aof-rewrite-incremental-fsync" "yes "]

def valkeyConfLines (v : ValkeyVars) : List ConfLine := valkeyConfTemplate.flatMap (Piece.lines v)

def valkeyConf (v : ValkeyVars) : Bytes := fileOf (valkeyConfLines v)

end Template

namespace Piece

def owner : Piece → Option Bytes
  | fixed name _ | written name _ => (lookupConfig staticConfigs name).map StandardConfig.name
  | _ => none

def texts (v : ValkeyVars) : Piece → List Bytes
  | fixed _ text => [text]
  | written _ texts => texts v
  | _ => []

def given (v : ValkeyVars) : Piece → List Bytes
  | written _ texts => texts v
  | _ => []

def ignored : Piece → Bool
  | fixed name text =>
    match sdssplitargs (rtrim text) with
    | some args => isDeprecated (name.map tolower) (args.length + 1)
    | none => false
  | written _ _ => false
  | _ => true

def isFixed : Piece → Bool
  | written _ _ => false
  | _ => true

def Named : Piece → Prop
  | blank => True
  | comment rest => Inline rest
  | fixed name text => ConfLine.Directive name ∧ Inline text
  | written name _ => ConfLine.Directive name

instance : DecidablePred Named
  | blank => .isTrue trivial
  | comment rest => inferInstanceAs (Decidable (0 ∉ rest ∧ byte '\n' ∉ rest))
  | fixed name text => inferInstanceAs (Decidable (ConfLine.Directive name ∧
      (0 ∉ text ∧ byte '\n' ∉ text)))
  | written name _ => inferInstanceAs (Decidable (ConfLine.Directive name))

theorem lines_owner {p : Piece} {v : ValkeyVars} {l : ConfLine} (listed : l ∈ p.lines v) :
    l.owner staticConfigs = p.owner := by
  cases p with
  | written name texts =>
    obtain ⟨text, -, rfl⟩ := List.mem_map.mp listed
    rfl
  | _ =>
    rw [List.mem_singleton.mp listed]
    rfl

theorem lines_texts {p : Piece} {k : Bytes} (owns : p.owner = some k) (v : ValkeyVars) :
    (p.lines v).map ConfLine.text = p.texts v := by
  cases p with
  | blank | comment rest => cases owns
  | fixed name text => rfl
  | written name texts => simp [lines, Piece.texts, Function.comp_def, ConfLine.text]

end Piece

section Reading
variable {v : ValkeyVars}

theorem template_named : ∀ p ∈ valkeyConfTemplate, p.Named := by
  decide +kernel

def ValkeyVars.texts (v : ValkeyVars) : List Bytes :=
  [v.bindInterface, v.port, v.tcpBacklog, v.unixsocket, v.unixsocketperm, v.tcpKeepalive,
    v.daemonize, v.supervised, v.loglevel, v.logfile, v.databases] ++ v.save ++
  [v.password, v.maxclients, v.maxmemory, v.maxmemoryPolicy, v.appendonly, v.appendfsync]

def ValkeyVars.Inline (v : ValkeyVars) : Prop := ∀ t ∈ v.texts, SdsStrings.Inline t

theorem template_given : ∀ p ∈ valkeyConfTemplate, p.given v ⊆ v.texts := by
  have save : v.save ⊆ v.texts := fun t given =>
    List.mem_append_left _ (List.mem_append_right _ given)
  have password : (if v.password = [] then [] else [v.password]) ⊆ v.texts := by
    split_ifs <;> simp [ValkeyVars.texts]
  simp only [valkeyConfTemplate, varLine, fixedLine, List.forall_mem_cons, passwordLine,
    Piece.given, List.nil_subset, List.cons_subset, true_and, and_true, password, save]
  simp [ValkeyVars.texts]

theorem valkeyConfLines_clean (inline : v.Inline) : ∀ l ∈ valkeyConfLines v, l.Clean := by
  intro l listed
  obtain ⟨p, piece, line⟩ := List.mem_flatMap.mp listed
  have named := template_named p piece
  cases p with
  | written name texts =>
    obtain ⟨text, given, rfl⟩ := List.mem_map.mp line
    exact ⟨named, inline text (template_given _ piece given)⟩
  | _ =>
    rw [List.mem_singleton.mp line]
    exact named

/-- The lines without a config are blank, comments or of deprecated names. -/
theorem valkeyConfLines_check (sys : System) : ∀ l ∈ valkeyConfLines v,
    l.owner staticConfigs = none → l.check sys = .ok () := by
  have all : ∀ p ∈ valkeyConfTemplate, p.owner = none → p.ignored = true := by decide +kernel
  intro l listed free
  obtain ⟨p, piece, line⟩ := List.mem_flatMap.mp listed
  rw [Piece.lines_owner line] at free
  have ignored := all p piece free
  cases p with
  | written name texts => cases ignored
  | fixed name text =>
    rw [List.mem_singleton.mp line, ConfLine.check]
    unfold Piece.ignored at ignored
    cases parsed : sdssplitargs (rtrim text) with
    | none => simp [parsed] at ignored
    | some args =>
      simp only [parsed] at ignored ⊢
      rw [otherDirective, if_pos ignored]
  | _ =>
    rw [List.mem_singleton.mp line]
    rfl

def piecesOf (k : Bytes) : List Piece := valkeyConfTemplate.filter fun p => p.owner = some k

def confTexts (v : ValkeyVars) (k : Bytes) : List Bytes := (piecesOf k).flatMap (Piece.texts v)

theorem textsOf_valkeyConf (k : Bytes) :
    textsOf staticConfigs (valkeyConfLines v) k = confTexts v k := by
  have pieces : own (ConfLine.owner staticConfigs) k (valkeyConfLines v) =
      (piecesOf k).flatMap (Piece.lines v) :=
    own_flatMap (fun p l listed => Piece.lines_owner listed) k valkeyConfTemplate
  rw [textsOf, pieces, List.map_flatMap, confTexts]
  refine List.flatMap_congr fun p listed => ?_
  exact Piece.lines_texts (of_decide_eq_true (List.mem_filter.mp listed).2) v

def readTexts (sys : System) (c : StandardConfig) (texts : List Bytes) : Except String Value :=
  texts.foldlM (fun old text => setText sys c text old) (defaultValue sys c.data)

variable {sys : System} {s : Settings}

/-- The server reads the file config by config, each from its own texts. -/
theorem valkeyConf_loaded (inline : v.Inline) :
    loadServerConfigFromString sys staticConfigs (valkeyConf v)
        (initConfigValues sys staticConfigs) = .ok s ↔
      ∃ t : Settings, (∀ c ∈ staticConfigs, readTexts sys c (confTexts v c.name) = .ok (t c.name)) ∧
        (∀ k, (∀ c ∈ staticConfigs, c.name ≠ k) → t k = initConfigValues sys staticConfigs k) ∧
        logError sys (t (bytes "logfile")) = none ∧ clampHz t = s := by
  have nonempty : valkeyConf v ≠ [] := fileOf_ne_nil (List.cons_ne_nil _ _)
  rw [valkeyConf, load_fileOf_iff (valkeyConfLines_clean inline) nonempty,
    and_iff_right (valkeyConfLines_check sys)]
  refine exists_congr fun t => ?_
  have config {c : StandardConfig} (listed : c ∈ staticConfigs) :
      (own (ConfLine.owner staticConfigs) c.name (valkeyConfLines v)).foldlM
        (fun v l => l.change sys staticConfigs v) (initConfigValues sys staticConfigs c.name) =
      readTexts sys c (confTexts v c.name) := by
    rw [foldlM_change staticConfigs_table listed, textsOf_valkeyConf,
      initConfigValues_eq staticConfigs_table listed, readTexts]
  have other {k : Bytes} (free : ∀ c ∈ staticConfigs, c.name ≠ k) :
      (own (ConfLine.owner staticConfigs) k (valkeyConfLines v)).foldlM
        (fun v l => l.change sys staticConfigs v) (initConfigValues sys staticConfigs k) =
      .ok (initConfigValues sys staticConfigs k) := by
    rw [own_owner_free free]
    rfl
  refine (and_congr_left' ⟨fun keys => And.intro (fun c listed => ?_) fun k free => ?_,
    fun keys k => ?_⟩).trans and_assoc
  · rw [← config listed]
    exact keys c.name
  · have kept := keys k
    rw [other free] at kept
    exact (Except.ok.inj kept).symm
  · by_cases named : ∃ c ∈ staticConfigs, c.name = k
    · obtain ⟨c, listed, rfl⟩ := named
      rw [config listed]
      exact keys.1 c listed
    · have free : ∀ c ∈ staticConfigs, c.name ≠ k := fun c listed same => named ⟨c, listed, same⟩
      rw [other free, keys.2 k free]

theorem setConfig_system {d : TypeData} (inside : d ≠ .dir) (sys' : System) (argv : List Bytes)
    (old : Value) :
    setConfig sys d argv old = setConfig sys' d argv old := by
  cases d with
  | dir => exact absurd rfl inside
  | _ => cases argv <;> cases old <;> rfl

theorem readTexts_system {c : StandardConfig} (inside : c.data ≠ .dir) (sys' : System)
    (texts : List Bytes) :
    readTexts sys c texts = readTexts sys' c texts := by
  have default : defaultValue sys c.data = defaultValue sys' c.data := by
    cases data : c.data with
    | dir => exact absurd data inside
    | _ => rfl
  simp only [readTexts, default, setText, applyArgs, setConfig_system inside sys']

def isFixed (k : Bytes) : Bool := (piecesOf k).all Piece.isFixed

theorem confTexts_fixed {k : Bytes} (fixed : isFixed k = true) (w : ValkeyVars) :
    confTexts v k = confTexts w k := by
  refine List.flatMap_congr fun p listed => ?_
  have own := List.all_eq_true.mp fixed p listed
  cases p with
  | written name texts => cases own
  | _ => rfl

/-- The lines that are always the same are always accepted, that of the directory aside. -/
theorem fixed_accepted {c : StandardConfig} (listed : c ∈ staticConfigs)
    (fixed : isFixed c.name = true)
    (inside : c.data.isDir = false) : ∃ x, readTexts sys c (confTexts v c.name) = .ok x := by
  have all : ∀ c ∈ staticConfigs, isFixed c.name = true → c.data.isDir = false →
      (readTexts plainSystem c (confTexts roleDefaults c.name)).toBool = true := by decide +kernel
  have accepted := all c listed fixed inside
  have noDir : c.data ≠ .dir := by
    intro data
    rw [data] at inside
    cases inside
  rw [readTexts_system noDir plainSystem, confTexts_fixed fixed roleDefaults]
  exact exists_ok accepted

def dataDir : Bytes := bytes "/var/lib/valkey"

theorem dir_accepted {c : StandardConfig} (listed : c ∈ staticConfigs)
    (data : c.data.isDir = true) :
    (∃ x, readTexts sys c (confTexts v c.name) = .ok x) ↔ ∃ path, sys.chdir dataDir = .ok path := by
  have all : ∀ c ∈ staticConfigs, c.data.isDir = true → isFixed c.name = true ∧
      confTexts roleDefaults c.name = [dataDir] ∧ c.multiArg = false := by decide +kernel
  obtain ⟨fixed, texts, one⟩ := all c listed data
  have dir : c.data = .dir := by
    cases kind : c.data with
    | dir => rfl
    | _ => rw [kind] at data; cases data
  have parsed : sdssplitargs (rtrim dataDir) = some [dataDir] := by decide
  have path : cString dataDir = dataDir := by decide
  have nonempty : dataDir ≠ [] := by decide
  rw [confTexts_fixed fixed roleDefaults, texts, readTexts]
  simp only [List.foldlM_cons, List.foldlM_nil, setText, parsed, applyArgs, one, dir, setConfig,
    path, if_neg nonempty, bind_pure]
  cases sys.chdir dataDir with
  | error err => simp
  | ok path => simp

/-- The loader accepts the rendered file exactly when every variable is accepted for its own
option, the directory can be entered and the log file opened. -/
theorem valkeyConf_loads_iff (inline : v.Inline) :
    (∃ s, loadServerConfigFromString sys staticConfigs (valkeyConf v)
        (initConfigValues sys staticConfigs) = .ok s) ↔
      (∀ c ∈ staticConfigs, isFixed c.name = false →
        ∃ x, readTexts sys c (confTexts v c.name) = .ok x ∧
          (c.name = bytes "logfile" → logError sys x = none)) ∧
      ∃ path, sys.chdir dataDir = .ok path := by
  constructor
  · rintro ⟨s, loaded⟩
    obtain ⟨t, values, -, log, -⟩ := (valkeyConf_loaded inline).mp loaded
    refine ⟨fun c listed _ => ⟨t c.name, values c listed, fun named => named ▸ log⟩, ?_⟩
    obtain ⟨c, listed, data⟩ : ∃ c ∈ staticConfigs, c.data.isDir = true := by decide +kernel
    exact (dir_accepted listed data).mp ⟨_, values c listed⟩
  · rintro ⟨accepts, directory⟩
    have value (k : Bytes) : ∃ x,
        (∀ c ∈ staticConfigs, c.name = k → readTexts sys c (confTexts v c.name) = .ok x) ∧
        ((∀ c ∈ staticConfigs, c.name ≠ k) → x = initConfigValues sys staticConfigs k) := by
      by_cases named : ∃ c ∈ staticConfigs, c.name = k
      · obtain ⟨c, listed, rfl⟩ := named
        have accepted : ∃ x, readTexts sys c (confTexts v c.name) = .ok x := by
          cases fixed : isFixed c.name with
          | false =>
            obtain ⟨x, read, -⟩ := accepts c listed fixed
            exact ⟨x, read⟩
          | true =>
            cases data : c.data.isDir with
            | true => exact (dir_accepted listed data).mpr directory
            | false => exact fixed_accepted listed fixed data
        obtain ⟨x, read⟩ := accepted
        refine ⟨x, fun d member same => ?_, fun free => absurd rfl (free c listed)⟩
        rw [staticConfigs_table.name_inj member listed same]
        exact read
      · exact ⟨_, fun c listed same => absurd ⟨c, listed, same⟩ named, fun _ => rfl⟩
    choose t read free using value
    refine ⟨_, (valkeyConf_loaded inline).mpr
      ⟨t, fun c listed => read _ c listed rfl, free, ?_, rfl⟩⟩
    obtain ⟨c, listed, named, fixed⟩ : ∃ c ∈ staticConfigs, c.name = bytes "logfile" ∧
        isFixed c.name = false := by decide +kernel
    obtain ⟨x, own, log⟩ := accepts c listed fixed
    have same := read _ c listed named
    rw [own] at same
    rw [← Except.ok.inj same]
    exact log named

theorem roleDefaults_load : ∃ s, loadServerConfigFromString plainSystem staticConfigs
    (valkeyConf roleDefaults) (initConfigValues plainSystem staticConfigs) = .ok s := by
  have inline : roleDefaults.Inline := by
    have all : ∀ t ∈ roleDefaults.texts, 0 ∉ t ∧ byte '\n' ∉ t := by decide +kernel
    exact all
  have accepted : ∀ c ∈ staticConfigs, isFixed c.name = false →
      (readTexts plainSystem c (confTexts roleDefaults c.name)).toBool = true := by decide +kernel
  refine (valkeyConf_loads_iff inline).mpr ⟨fun c listed given => ?_, dataDir, by decide⟩
  obtain ⟨x, read⟩ := exists_ok (accepted c listed given)
  refine ⟨x, read, fun _ => ?_⟩
  unfold logError
  split <;> rfl

theorem confTexts_single {p : Piece} {k : Bytes} (listed : p ∈ valkeyConfTemplate)
    (owns : p.owner = some k) (one : (piecesOf k).length = 1) : confTexts v k = p.texts v := by
  obtain ⟨q, single⟩ := List.length_eq_one_iff.mp one
  have member : p ∈ piecesOf k := List.mem_filter.mpr ⟨listed, decide_eq_true owns⟩
  rw [single, List.mem_singleton] at member
  rw [confTexts, single, List.flatMap_singleton, member]

def requirepass : StandardConfig := ⟨bytes "requirepass", none, false, .sds true none⟩

theorem requirepass_mem : requirepass ∈ staticConfigs :=
  List.mem_of_getElem? (i := 13) rfl

theorem confTexts_requirepass :
    confTexts v (bytes "requirepass") = if v.password = [] then [] else [v.password] :=
  confTexts_single (List.mem_of_getElem? (i := 29) rfl) (p := passwordLine) (by decide +kernel)
    (by decide +kernel)

theorem setText_requirepass {text : Bytes} {old x : Value}
    (read : setText sys requirepass text old = .ok x) :
    ∃ a, sdssplitargs (rtrim text) = some [a] ∧ x = .text (if a = [] then none else some a) := by
  unfold setText at read
  cases parsed : sdssplitargs (rtrim text) with
  | none => simp [parsed] at read
  | some args =>
    simp only [parsed, applyArgs, requirepass] at read
    rcases args with _ | ⟨a, _ | ⟨b, more⟩⟩
    · cases read
    · cases read
      exact ⟨a, rfl, by simp⟩
    · cases read

/-- With the rendered file the password is the one of the variable exactly when that is a plain
word, and there is none exactly when the variable is empty or a pair of quotes. -/
theorem valkeyConf_password (inline : v.Inline)
    (loaded : loadServerConfigFromString sys staticConfigs (valkeyConf v)
      (initConfigValues sys staticConfigs) = .ok s) :
    (s (bytes "requirepass") = .text (some v.password) ↔ Plain v.password) ∧
      (s (bytes "requirepass") = .text none ↔
        v.password = [] ∨ sdssplitargs (rtrim v.password) = some [[]]) := by
  obtain ⟨t, values, -, -, rfl⟩ := (valkeyConf_loaded inline).mp loaded
  have password : Inline v.password := inline v.password (by simp [ValkeyVars.texts])
  have read : readTexts sys requirepass (confTexts v (bytes "requirepass")) =
      .ok (t (bytes "requirepass")) :=
    values requirepass requirepass_mem
  rw [clampHz, Function.update_of_ne (by decide)]
  rw [confTexts_requirepass] at read
  split_ifs at read with empty
  · have unset : t (bytes "requirepass") = .text none := (Except.ok.inj read).symm
    have notPlain : ¬ Plain v.password := by
      rw [empty]
      decide
    exact ⟨iff_of_false (by simp [unset]) notPlain, iff_of_true unset (.inl empty)⟩
  · have one : setText sys requirepass v.password (defaultValue sys requirepass.data) =
        .ok (t (bytes "requirepass")) := by
      simpa [readTexts] using read
    obtain ⟨a, parsed, value⟩ := setText_requirepass one
    have noNul : 0 ∉ rtrim v.password := (password.subset (rtrim_subset _)).1
    rw [value, ← tokensOf_rtrim_self_iff password.1, ← sdssplitargs_eq noNul, parsed]
    rcases eq_or_ne a [] with rfl | nonempty
    · simp [empty, Ne.symm empty]
    · simp [empty, nonempty]

def quotedPassword : ValkeyVars := { roleDefaults with password := bytes "\"a b\"" }

theorem quotedPassword_differs :
    ∃ s : Settings, loadServerConfigFromString plainSystem staticConfigs
      (valkeyConf quotedPassword) (initConfigValues plainSystem staticConfigs) = .ok s ∧
    s (bytes "requirepass") ≠ .text (some quotedPassword.password) ∧
      s (bytes "requirepass") ≠ .text none := by
  have inline : quotedPassword.Inline := by
    have all : ∀ t ∈ quotedPassword.texts, 0 ∉ t ∧ byte '\n' ∉ t := by decide +kernel
    exact all
  have accepted : (loadServerConfigFromString plainSystem staticConfigs (valkeyConf quotedPassword)
      (initConfigValues plainSystem staticConfigs)).toBool = true := by decide +kernel
  obtain ⟨s, loaded⟩ := exists_ok accepted
  obtain ⟨verbatim, absent⟩ := valkeyConf_password inline loaded
  refine ⟨s, loaded, fun same => ?_, fun unset => ?_⟩
  · exact absurd (verbatim.mp same) (by decide)
  · exact absurd (absent.mp unset) (by decide)

end Reading

end LempStack.ValkeyConf
