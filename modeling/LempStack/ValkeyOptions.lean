import LempStack.ValkeyNumbers

/-! The standard configs of the Valkey server, after `config.c`: how a config of each type
is set from the arguments of a line, and which lines CONFIG REWRITE writes for its value.
A config keeps its value in a place of its own, so setting one leaves the others alone.
The table holds the configs that the file of the role sets. -/

namespace LempStack.ValkeyOptions
open SdsStrings ValkeyNumbers

inductive NumericType where
  | int
  | uint
  | ulongLong
  | sizeT
  | offT
  deriving DecidableEq, Repr

def NumericType.isUnsigned : NumericType → Bool
  | int | offT => false
  | uint | ulongLong | sizeT => true

structure NumericFlags where
  memory : Bool := false
  percent : Bool := false
  octal : Bool := false
  deriving DecidableEq, Repr

/-- The bounds and the default are `long long`s, whatever the type of the config. -/
structure Numeric where
  type : NumericType
  flags : NumericFlags
  lower : ℤ
  upper : ℤ
  default : ℤ
  deriving DecidableEq, Repr

inductive ClientClass where
  | normal
  | replica
  | pubsub
  deriving DecidableEq, Repr

structure BufferLimits where
  hard : ℕ
  soft : ℕ
  softSeconds : ℤ
  deriving DecidableEq, Repr

-- a string may be NULL, a number is read as a `long long`, and `loaded` says whether a file has
-- set save points
inductive Value where
  | yesno (on : Bool)
  | text (s : Option Bytes)
  | enum (n : ℕ)
  | numeric (n : ℤ)
  | save (loaded : Bool) (params : List (ℤ × ℤ))
  | bind (addresses : List Bytes)
  | limits (of : ClientClass → BufferLimits)
  | dir (path : Bytes)

-- `nullable` is `EMPTY_STRING_IS_NULL`; `isValid` gives the error it raises
inductive TypeData where
  | yesno (default : Bool)
  | string (nullable : Bool) (default : Option Bytes) (isValid : Bytes → Option String)
  | sds (nullable : Bool) (default : Option Bytes)
  | enum (names : List (Bytes × ℕ)) (default : ℕ)
  | numeric (n : Numeric)
  | save
  | bind
  | limits
  | dir

def TypeData.isDir : TypeData → Bool
  | dir => true
  | _ => false

structure StandardConfig where
  name : Bytes
  aliasName : Option Bytes
  multiArg : Bool
  data : TypeData

/-- What the system answers. A directory that is entered is named by its absolute path, under
which it can be entered again; `other` is the error of `rename-command` and `user`, which set no
config, and `included` what the files that an `include` names make of the settings. -/
structure System where
  start : Bytes
  chdir : Bytes → Except String Bytes
  chdir_start : chdir start = .ok start
  chdir_absolute : ∀ a path, chdir a = .ok path → path ≠ [] ∧ 0 ∉ path ∧ chdir path = .ok path
  openLog : Bytes → Option String
  other : List Bytes → Option String
  included : Bytes → (Bytes → Value) → Except String (Bytes → Value)

def plainSystem : System where
  start := bytes "/"
  chdir path :=
    if path.head? = some (byte '/') ∧ 0 ∉ path then .ok path
    else .error "No such file or directory"
  chdir_start := by decide
  chdir_absolute a path entered := by
    split at entered
    · rename_i absolute
      cases entered
      refine ⟨?_, absolute.2, if_pos absolute⟩
      rintro rfl
      cases absolute.1
    · cases entered
  openLog _ := none
  other _ := none
  included _ _ := .error "No such file or directory"

section Set
variable (sys : System)

def yesnotoi (s : Bytes) : Option Bool :=
  if sameCaseless s (bytes "yes") then some true
  else if sameCaseless s (bytes "no") then some false
  else none

def configEnumGetValue (names : List (Bytes × ℕ)) (argv : List Bytes) : Option ℕ :=
  match argv with
  | [a] =>
    match names.filter fun entry => sameCaseless a entry.1 with
    | [] => none
    | found => some (found.foldl (fun v entry => v ||| entry.2) 0)
  | _ => none

def enumError (names : List (Bytes × ℕ)) : String :=
  "argument(s) must be one of the following: " ++
    String.intercalate ", " (names.map fun entry =>
      String.ofList (entry.1.map fun b => Char.ofNat b.toNat))

def toSigned (n : ℕ) : ℤ := if n < 2 ^ 63 then n else n - 2 ^ 64

def toUnsigned (z : ℤ) : ℕ := (z % 2 ^ 64).toNat

def toInt32 (z : ℤ) : ℤ := (z + 2 ^ 31) % 2 ^ 32 - 2 ^ 31

def inclusive (lower upper : String) : String :=
  "argument must be between " ++ lower ++ " and " ++ upper ++ " inclusive"

def numericBoundaryCheck (n : Numeric) (ll : ℤ) : Except String Unit :=
  if n.type.isUnsigned then
    if toUnsigned n.upper < toUnsigned ll ∨ toUnsigned ll < toUnsigned n.lower then
      if n.flags.octal then
        .error (inclusive (String.ofList (Nat.toDigits 8 (toUnsigned n.lower)))
          (String.ofList (Nat.toDigits 8 (toUnsigned n.upper))))
      else .error (inclusive (toString (toUnsigned n.lower)) (toString (toUnsigned n.upper)))
    else .ok ()
  else if n.flags.percent ∧ ll < 0 then
    if ll < n.lower then
      .error ("percentage argument must be less or equal to " ++ toString (-n.lower))
    else .ok ()
  else if n.upper < ll ∨ ll < n.lower then
    .error (inclusive (toString n.lower) (toString n.upper))
  else .ok ()

def memoryValue (n : Numeric) (value : Bytes) : Option ℤ :=
  if n.flags.memory then (memtoull value).map toSigned else none

def percentValue (n : Numeric) (value : Bytes) : Option ℤ :=
  if n.flags.percent ∧ 1 < value.length ∧ value.getLast? = some (byte '%') then
    match string2ll value.dropLast with
    | some v => if 0 ≤ v then some (-v) else none
    | none => none
  else none

def octalValue (n : Numeric) (value : Bytes) : Option ℤ :=
  if n.flags.octal ∧ (strtoll 8 value).erange = false ∧ (strtoll 8 value).rest = [] then
    some (strtoll 8 value).value
  else none

def simpleValue (n : Numeric) (value : Bytes) : Option ℤ :=
  if n.flags = {} then string2ll value else none

/-- The first of the ways to read a number that the config allows and that succeeds. -/
def numericParseString (n : Numeric) (value : Bytes) : Except String ℤ :=
  match (memoryValue n value).or ((percentValue n value).or
    ((octalValue n value).or (simpleValue n value))) with
  | some v => .ok v
  | none =>
    if n.flags.memory ∧ n.flags.percent then .error "argument must be a memory or percent value"
    else if n.flags.memory then .error "argument must be a memory value"
    else if n.flags.octal then .error "argument couldn't be parsed as an octal number"
    else .error "argument couldn't be parsed into an integer"

def validSaveArg (j : ℕ) (a : Bytes) : Bool :=
  let parsed := strtoll 10 a
  parsed.rest == [] && !(j % 2 == 0 && decide (parsed.value < 1)) &&
    !(j % 2 == 1 && decide (parsed.value < 0))

def saveParams : List Bytes → List (ℤ × ℤ)
  | a :: b :: rest => ((strtoll 10 a).value, toInt32 (strtoll 10 b).value) :: saveParams rest
  | _ => []

def isEmptySave (argv : List Bytes) : Bool :=
  argv.length == 1 && argv.all fun a => sameCaseless a []

/-- The first line that sets save points drops the defaults, a later one adds to the points. -/
def addSaveParams (args : List Bytes) (loaded : Bool) (params : List (ℤ × ℤ)) :
    Except String Value :=
  if args.length % 2 = 1 then .error "Invalid save parameters"
  else if args.zipIdx.all fun a => validSaveArg a.2 a.1 then
    .ok (.save true ((if loaded then params else []) ++ saveParams args))
  else .error "Invalid save parameters"

def setSave (argv : List Bytes) (loaded : Bool) (params : List (ℤ × ℤ)) : Except String Value :=
  if isEmptySave argv then addSaveParams [] loaded [] else addSaveParams argv loaded params

def clientClass (name : Bytes) : Option ClientClass :=
  if sameCaseless name (bytes "normal") then some .normal
  else if sameCaseless name (bytes "slave") then some .replica
  else if sameCaseless name (bytes "replica") then some .replica
  else if sameCaseless name (bytes "pubsub") then some .pubsub
  else none

/-- `updateClientOutputBufferLimit`: all the groups of four are checked ahead of a change. -/
def updateLimits :
    List Bytes → (ClientClass → BufferLimits) → Except String (ClientClass → BufferLimits)
  | [], limits => .ok limits
  | name :: hard :: soft :: seconds :: rest, limits =>
    match clientClass name with
    | none => .error "Invalid client class specified in buffer limit configuration."
    | some kind =>
      let parsed := strtoll 10 seconds
      match memtoull hard, memtoull soft with
      | some h, some s =>
        if toInt32 parsed.value < 0 ∨ parsed.rest ≠ [] then
          .error "Error in hard, soft or soft_seconds setting in buffer limit configuration."
        else updateLimits rest fun c => if c = kind then ⟨h, s, toInt32 parsed.value⟩ else limits c
      | _, _ => .error "Error in hard, soft or soft_seconds setting in buffer limit configuration."
  | _, _ => .error "Wrong number of arguments in buffer limit configuration."

def setConfig (d : TypeData) (argv : List Bytes) (old : Value) : Except String Value :=
  match d, argv, old with
  | .yesno _, a :: _, _ =>
    match yesnotoi a with
    | some on => .ok (.yesno on)
    | none => .error "argument must be 'yes' or 'no'"
  | .string nullable _ isValid, a :: _, _ =>
    match isValid (cString a) with
    | some err => .error err
    | none => .ok (.text (if nullable ∧ cString a = [] then none else some (cString a)))
  | .sds nullable _, a :: _, _ => .ok (.text (if nullable ∧ a = [] then none else some a))
  | .enum names _, argv, _ =>
    match configEnumGetValue names argv with
    | some n => .ok (.enum n)
    | none => .error (enumError names)
  | .numeric n, a :: _, _ =>
    match numericParseString n a with
    | .error err => .error err
    | .ok ll =>
      match numericBoundaryCheck n ll with
      | .error err => .error err
      | .ok () => .ok (.numeric ll)
  | .save, argv, .save loaded params => setSave argv loaded params
  | .bind, argv, _ =>
    if 16 < argv.length then .error "Too many bind addresses specified."
    else if argv = [[]] then .ok (.bind [])
    else .ok (.bind (argv.map cString))
  | .limits, argv, .limits limits =>
    if argv.length % 4 ≠ 0 then
      .error "Wrong number of arguments in buffer limit configuration."
    else
      match updateLimits argv limits with
      | .ok limits => .ok (.limits limits)
      | .error err => .error err
  | .dir, [a], _ =>
    if cString a = [] then .error "dir can't be empty"
    else
      match sys.chdir (cString a) with
      | .ok path => .ok (.dir path)
      | .error err => .error err
  | .dir, _, _ => .error "wrong number of arguments"
  -- a config with one argument is set with one, and a value has the type of its config
  | _, _, old => .ok old

/-- What the loader makes of the arguments of a line. Where a config takes several, a single
one is split once more; a failure there leaves none. -/
def applyArgs (c : StandardConfig) (args : List Bytes) (old : Value) : Except String Value :=
  match c.multiArg, args with
  | false, [a] => setConfig sys c.data [a] old
  | false, _ => .error "wrong number of arguments"
  | true, [a] => if a = [] then setConfig sys c.data [a] old
      else setConfig sys c.data ((sdssplitargs a).getD []) old
  | true, args => setConfig sys c.data args old

def setText (c : StandardConfig) (text : Bytes) (old : Value) : Except String Value :=
  match sdssplitargs (rtrim text) with
  | some args => applyArgs sys c args old
  | none => .error "Unbalanced quotes in configuration line"

end Set

section Rewrite

def octal (n : ℕ) : Bytes := (Nat.toDigits 8 n).map byte

def configEnumGetName (names : List (Bytes × ℕ)) (n : ℕ) : Bytes :=
  match names.find? fun entry => entry.2 = n with
  | some entry => entry.1
  | none => bytes "unknown"

def numericText (n : Numeric) (v : ℤ) : Bytes :=
  if n.flags.percent ∧ v < 0 then signedDecimal (-v) ++ [byte '%']
  else if n.flags.memory then formatMemory v
  else if n.flags.octal then octal (toUnsigned v)
  else signedDecimal v

def className : ClientClass → Bytes
  | .normal => bytes "normal"
  | .replica => bytes "replica"
  | .pubsub => bytes "pubsub"

def clientBufferLimitsDefaults : ClientClass → BufferLimits
  | .normal => ⟨0, 0, 0⟩
  | .replica => ⟨1024 * 1024 * 256, 1024 * 1024 * 64, 60⟩
  | .pubsub => ⟨1024 * 1024 * 32, 1024 * 1024 * 8, 60⟩

def defaultBindAddresses : List Bytes := [bytes "*", bytes "-::*"]

def defaultSaveParams : List (ℤ × ℤ) := [(60 * 60, 1), (300, 100), (60, 10000)]

def defaultValue (sys : System) : TypeData → Value
  | .yesno default => .yesno default
  | .string _ default _ => .text default
  | .sds _ default => .text default
  | .enum _ default => .enum default
  | .numeric n => .numeric n.default
  | .save => .save false defaultSaveParams
  | .bind => .bind defaultBindAddresses
  | .limits => .limits clientBufferLimitsDefaults
  | .dir => .dir sys.start

/-- A line that is rewritten, after the name, and whether it is written even when the file
had no such line. -/
structure Rewritten where
  text : Bytes
  force : Bool
  deriving DecidableEq, Repr

def limitsText (c : ClientClass) (l : BufferLimits) : Bytes :=
  spaced [className c, formatMemory (toSigned l.hard), formatMemory (toSigned l.soft),
    signedDecimal l.softSeconds]

def rewrite (d : TypeData) (v : Value) : List Rewritten :=
  match d, v with
  | .yesno default, .yesno on => [⟨if on then bytes "yes" else bytes "no", on != default⟩]
  | .string _ default _, .text (some s) =>
    [⟨sdscatrepr [] (cString s), default != some (cString s)⟩]
  | .sds _ default, .text (some s) => [⟨sdscatrepr [] s, default != some (cString s)⟩]
  | .enum names default, .enum n => [⟨configEnumGetName names n, n != default⟩]
  | .numeric n, .numeric v =>
    [⟨numericText n v, (if n.flags.percent ∧ v < 0 then -v else v) != n.default⟩]
  | .save, .save _ [] => [⟨bytes "\"\"", true⟩]
  | .save, .save _ params =>
    [⟨spaced (params.flatMap fun p => [signedDecimal p.1, signedDecimal p.2]), true⟩]
  | .bind, .bind addresses =>
    if addresses = defaultBindAddresses then []
    else if addresses = [] then [⟨bytes "\"\"", true⟩]
    else [⟨spaced addresses, true⟩]
  | .limits, .limits limits =>
    [ClientClass.normal, .replica, .pubsub].map fun c =>
      ⟨limitsText c (limits c), limits c != clientBufferLimitsDefaults c⟩
  -- `getcwd` has room for 1023 bytes
  | .dir, .dir path => if path.length < 1024 then [⟨sdscatrepr [] (cString path), true⟩] else []
  -- a string that is NULL has no line
  | _, _ => []

end Rewrite

section Table

def baseName (err : String) (s : Bytes) : Option String :=
  if s = [] then some (err ++ " can't be empty")
  else if s.contains (byte '/') || s.contains (byte '\\') then
    some (err ++ " can't be a path, just a filename")
  else none

def maxmemoryPolicyEnum : List (Bytes × ℕ) :=
  [(bytes "volatile-lru", 0x001), (bytes "volatile-lfu", 0x102), (bytes "volatile-random", 0x300),
    (bytes "volatile-ttl", 0x200), (bytes "allkeys-lru", 0x405), (bytes "allkeys-lfu", 0x506),
    (bytes "allkeys-random", 0x604), (bytes "noeviction", 0x700)]

def loglevelEnum : List (Bytes × ℕ) :=
  [(bytes "debug", 0), (bytes "verbose", 1), (bytes "notice", 2), (bytes "warning", 3),
    (bytes "nothing", 4)]

def supervisedModeEnum : List (Bytes × ℕ) :=
  [(bytes "upstart", 3), (bytes "systemd", 2), (bytes "auto", 1), (bytes "no", 0)]

def aofFsyncEnum : List (Bytes × ℕ) := [(bytes "everysec", 2), (bytes "always", 1), (bytes "no", 0)]

def intMax : ℤ := 2147483647

def uintMax : ℤ := 4294967295

def longMax : ℤ := 9223372036854775807

def boolConfig (name : String) (default : Bool) : StandardConfig :=
  ⟨bytes name, none, false, .yesno default⟩

def stringConfig (name : String) (nullable : Bool) (default : Option String)
    (isValid : Bytes → Option String) : StandardConfig :=
  ⟨bytes name, none, false, .string nullable (default.map bytes) isValid⟩

def enumConfig (name : String) (names : List (Bytes × ℕ)) (default : ℕ) : StandardConfig :=
  ⟨bytes name, none, false, .enum names default⟩

def intConfig (name : String) (lower upper default : ℤ) : StandardConfig :=
  ⟨bytes name, none, false, .numeric ⟨.int, {}, lower, upper, default⟩⟩

def sizeTConfig (name aliasName : String) (flags : NumericFlags) (default : ℤ) : StandardConfig :=
  ⟨bytes name, some (bytes aliasName), false, .numeric ⟨.sizeT, flags, 0, longMax, default⟩⟩

def specialConfig (name : String) (multiArg : Bool) (d : TypeData) : StandardConfig :=
  ⟨bytes name, none, multiArg, d⟩

/-- The entries of `static_configs` for the configs of the role's file. -/
def staticConfigs : List StandardConfig :=
  [boolConfig "rdbchecksum" true,
    boolConfig "daemonize" false,
    boolConfig "rdbcompression" true,
    boolConfig "activerehashing" true,
    boolConfig "stop-writes-on-bgsave-error" true,
    boolConfig "aof-rewrite-incremental-fsync" true,
    boolConfig "no-appendfsync-on-rewrite" false,
    boolConfig "appendonly" false,
    stringConfig "unixsocket" true none fun _ => none,
    stringConfig "pidfile" true none fun _ => none,
    stringConfig "dbfilename" false (some "dump.rdb") (baseName "dbfilename"),
    stringConfig "appendfilename" false (some "appendonly.aof") (baseName "appendfilename"),
    stringConfig "logfile" false (some "") fun _ => none,
    ⟨bytes "requirepass", none, false, .sds true none⟩,
    enumConfig "supervised" supervisedModeEnum 0,
    enumConfig "loglevel" loglevelEnum 2,
    enumConfig "maxmemory-policy" maxmemoryPolicyEnum 0x700,
    enumConfig "appendfsync" aofFsyncEnum 2,
    intConfig "databases" 1 intMax 16,
    intConfig "port" 0 65535 6379,
    intConfig "auto-aof-rewrite-percentage" 0 intMax 100,
    intConfig "tcp-keepalive" 0 intMax 300,
    intConfig "maxmemory-samples" 1 64 5,
    intConfig "timeout" 0 intMax 0,
    intConfig "tcp-backlog" 0 intMax 511,
    intConfig "hz" 0 intMax 10,
    ⟨bytes "maxclients", none, false, .numeric ⟨.uint, {}, 1, uintMax, 10000⟩⟩,
    ⟨bytes "unixsocketperm", none, false, .numeric ⟨.uint, { octal := true }, 0, 0o777, 0⟩⟩,
    -- the greatest `unsigned long long` is `-1` as a bound
    ⟨bytes "maxmemory", none, false, .numeric ⟨.ulongLong, { memory := true }, 0, -1, 0⟩⟩,
    sizeTConfig "hash-max-listpack-entries" "hash-max-ziplist-entries" {} 512,
    ⟨bytes "set-max-intset-entries", none, false, .numeric ⟨.sizeT, {}, 0, longMax, 512⟩⟩,
    sizeTConfig "zset-max-listpack-entries" "zset-max-ziplist-entries" {} 128,
    sizeTConfig "hash-max-listpack-value" "hash-max-ziplist-value" { memory := true } 64,
    sizeTConfig "zset-max-listpack-value" "zset-max-ziplist-value" { memory := true } 64,
    ⟨bytes "hll-sparse-max-bytes", none, false,
      .numeric ⟨.sizeT, { memory := true }, 0, longMax, 3000⟩⟩,
    ⟨bytes "auto-aof-rewrite-min-size", none, false,
      .numeric ⟨.offT, { memory := true }, 0, longMax, 64 * 1024 * 1024⟩⟩,
    specialConfig "dir" false .dir,
    specialConfig "save" true .save,
    specialConfig "client-output-buffer-limit" true .limits,
    specialConfig "bind" true .bind]

end Table

end LempStack.ValkeyOptions
