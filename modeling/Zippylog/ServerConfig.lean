import Zippylog.Lua
import Zippylog.ServerProof
import Zippylog.Store.Uri

/-!
# The configuration of a server

`Server::ParseConfig`, the constructor of `Server`, and `main` of `zippylogd.cpp`: a Lua chunk is
run, its globals are read one after the other with their defaults, and a server is made of them.

- The configuration file is any chunk: `ConfigRun`. No library is open, so that every error is a
  text, and reading a global calls nothing.
- The stack has its top first. What the chunk returns stays on it, and the loop over the endpoints
  takes the table at the index 1, which is then not the one that was checked.
- An error that `luaL_optinteger` or `luaL_optstring` raises is not protected: the process exits.
- `parseConfig_iff`: which configurations are accepted, and as what;
- `parseConfig_undefined_iff`: which ones are not survived;
- `zippylogd_never_serves`: what comes of an accepted one.
-/

namespace Zippylog

open Wire

/-! ## Lua -/

/-- A value that a configuration can make. A string may convert to an integer; a table has its
entries in the order of `lua_next`. -/
inductive ConfigValue where
  | nil
  | boolean (b : Bool)
  | number (text : Bytes) (integer : Int64)
  | string (s : Bytes) (integer : Option Int64)
  | function
  | table (entries : List (ConfigValue × ConfigValue))

namespace ConfigValue

/-- `lua_isnil`. -/
def isNil : ConfigValue → Bool
  | nil => true
  | _ => false

/-- `lua_isstring`, with `lua_tostring`. -/
def toString? : ConfigValue → Option Bytes
  | number text _ => some text
  | string s _ => some s
  | _ => none

theorem isNil_of_toString? {value : ConfigValue} {text : Bytes} (h : value.toString? = some text) :
    value.isNil = false := by
  cases value with
  | nil => cases h
  | _ => rfl

/-- `lua_toboolean`. -/
def toBoolean : ConfigValue → Bool
  | nil => false
  | boolean b => b
  | _ => true

/-- `lua_istable`: the entries. -/
def toTable? : ConfigValue → Option (List (ConfigValue × ConfigValue))
  | table entries => some entries
  | _ => none

theorem isNil_of_toTable? {value : ConfigValue} {entries : List (ConfigValue × ConfigValue)}
    (h : value.toTable? = some entries) : value.isNil = false := by
  cases value with
  | nil => cases h
  | _ => rfl

/-- `luaL_optinteger`; `none` is that it raises an error. -/
def optInteger (value : ConfigValue) (default : Int64) : Option Int64 :=
  match value with
  | nil => some default
  | number _ integer => some integer
  | string _ integer => integer
  | _ => none

/-- `luaL_optstring`. -/
def optString (value : ConfigValue) (default : Bytes) : Option Bytes :=
  match value with
  | nil => some default
  | value => value.toString?

end ConfigValue

/-- What `luaL_dofile` comes to. -/
inductive ConfigRun where
  | error (text : Bytes)
  | returned (values : List ConfigValue) (globals : Bytes → ConfigValue)
  | noReturn

/-! ## `ParseConfig` -/

/-- `ServerStartParams`. `active` is whether the pointer is set. -/
structure ServerStartParams where
  active : Bool := false
  storePath : Bytes := []
  listenEndpoints : List Bytes := []
  workerThreads : UInt32 := 2
  persistedStateReactorThreads : UInt32 := 1
  subscriptionTtl : UInt32 := 60000
  logBucket : Bytes := str "zippylog"
  logStreamSet : Bytes := str "server"
  streamFlushInterval : Int32 := 5000
  luaExecuteClientCode : Bool := false
  luaStreamingMaxMemory : UInt32 := 524288

namespace Server

open LuaState (cString)

/-- `ParseConfig` between two statements. -/
structure Reading where
  stack : List ConfigValue
  params : ServerStartParams

/-- How `ParseConfig` leaves its course. -/
inductive Leave where
  | cleanup (params : ServerStartParams) (error : Bytes)
  | fault (f : Fault)

namespace Reading

/-- `lua_getglobal`. -/
def getGlobal (globals : Bytes → ConfigValue) (name : Bytes) (r : Reading) : Reading :=
  { r with stack := globals name :: r.stack }

def push (value : ConfigValue) (r : Reading) : Reading := { r with stack := value :: r.stack }

/-- `lua_pop`. -/
def pop (n : Nat) (r : Reading) : Reading := { r with stack := r.stack.drop n }

/-- The value at the index `-i`. -/
def top (i : Nat) (r : Reading) : ConfigValue := r.stack.getD (i - 1) .nil

/-- The value at the index 1. -/
def bottom (r : Reading) : ConfigValue := r.stack.getLastD .nil

/-- `os << error; goto cleanup`. -/
def fail {α : Type} (r : Reading) (error : Bytes) : Except Leave α :=
  .error (.cleanup r.params error)

end Reading

section Reading

variable (globals : Bytes → ConfigValue)

def readStorePath (r : Reading) : Except Leave Reading :=
  let r := r.getGlobal globals (str "store_path")
  if (r.top 1).isNil then r.fail (str "'store_path' is not defined")
  else
    match (r.top 1).toString? with
    | none => r.fail (str "'store_path' not a string")
    | some text =>
      .ok ({ r with params := { r.params with storePath := cString text } }.pop 1)

/-- The loop of `lua_next`, with the entries that are left: a key is on top of the stack. -/
def readEntries : List (ConfigValue × ConfigValue) → Reading → Except Leave Reading
  | [], r => .ok (r.pop 1)
  | (key, value) :: entries, r =>
    let r := ((r.pop 1).push key).push value
    match (r.top 1).toString? with
    | none =>
      match (r.top 2).toString? with
      | some text =>
        r.fail (str "endpoints value at index '" ++ cString text ++ str "' is not a string")
      | none => r.fail (str "non-string value seen in endpoints table. index not printable")
    | some text =>
      let params := { r.params with
        listenEndpoints := r.params.listenEndpoints ++ [cString text] }
      readEntries entries ({ r with params }.pop 1)

/-- The table that is read is at the index 1. That it is one is not tested there. -/
def readEndpoints (r : Reading) : Except Leave Reading :=
  let r := r.getGlobal globals (str "endpoints")
  if (r.top 1).isNil then r.fail (str "'endpoints' not defined")
  else
    match (r.top 1).toTable? with
    | none => r.fail (str "'endpoints' variable not a table")
    | some _ =>
      let r := r.push .nil
      match r.bottom.toTable? with
      | none => .error (.fault .undefinedBehavior)
      | some entries => readEntries entries r

/-- A global that is read with `luaL_optinteger`. -/
def readInteger (name : String) (default : Int64)
    (set : ServerStartParams → Int64 → ServerStartParams) (r : Reading) : Except Leave Reading :=
  let r := r.getGlobal globals (str name)
  match (r.top 1).optInteger default with
  | none => .error (.fault .noReturn)
  | some value => .ok ({ r with params := set r.params value }.pop 1)

/-- A global that is read with `luaL_optstring`. -/
def readString (name : String) (default : String)
    (set : ServerStartParams → Bytes → ServerStartParams) (r : Reading) : Except Leave Reading :=
  let r := r.getGlobal globals (str name)
  match (r.top 1).optString (str default) with
  | none => .error (.fault .noReturn)
  | some value => .ok ({ r with params := set r.params (cString value) }.pop 1)

def readWorkerThreads : Reading → Except Leave Reading :=
  readInteger globals "worker_threads" 2 fun params value =>
    { params with workerThreads := value.toUInt64.toUInt32 }

def readPersistedStateReactorThreads : Reading → Except Leave Reading :=
  readInteger globals "persisted_state_reactor_threads" 1 fun params value =>
    { params with persistedStateReactorThreads := value.toUInt64.toUInt32 }

def readSubscriptionTtl : Reading → Except Leave Reading :=
  readInteger globals "streaming_subscription_ttl" 60000 fun params value =>
    { params with subscriptionTtl := value.toUInt64.toUInt32 }

def readLogBucket : Reading → Except Leave Reading :=
  readString globals "log_bucket" "zippylog" fun params value => { params with logBucket := value }

/-- The default is `server_default_log_bucket`. -/
def readLogStreamSet : Reading → Except Leave Reading :=
  readString globals "log_stream_set" "zippylog" fun params value =>
    { params with logStreamSet := value }

def readStreamFlushInterval (r : Reading) : Except Leave Reading := do
  let r ← readInteger globals "stream_flush_interval" 5000 (fun params value =>
    { params with streamFlushInterval := value.toInt32 }) r
  if r.params.streamFlushInterval < 0 then r.fail (str "stream_flush_interval must be positive")
  else if r.params.streamFlushInterval < 1000 then
    r.fail (str "stream_flush_interval must be greater than 1000")
  else return r

def readLuaExecuteClientCode (r : Reading) : Reading :=
  let r := r.getGlobal globals (str "lua_execute_client_code")
  { r with params := { r.params with luaExecuteClientCode := (r.top 1).toBoolean } }.pop 1

def readLuaStreamingMaxMemory : Reading → Except Leave Reading :=
  readInteger globals "lua_streaming_max_memory" 524288 fun params value =>
    { params with luaStreamingMaxMemory := value.toUInt64.toUInt32 }

/-- The statements behind `luaL_dofile`. -/
def readConfig (r : Reading) : Except Leave Reading := do
  let r ← readStorePath globals r
  let r ← readEndpoints globals r
  let r ← readWorkerThreads globals r
  let r ← readPersistedStateReactorThreads globals r
  let r ← readSubscriptionTtl globals r
  let r ← readLogBucket globals r
  let r ← readLogStreamSet globals r
  let r ← readStreamFlushInterval globals r
  readLuaStreamingMaxMemory globals (readLuaExecuteClientCode globals r)

end Reading

/-- `ParseConfig`: the parameters as they are left, and the error when it returns false. -/
def parseConfig (run : ConfigRun) (params : ServerStartParams) :
    Except Fault (ServerStartParams × Option Bytes) :=
  match run with
  | .noReturn => .error .noReturn
  | .error text => .ok (params, some (str "error running config file: " ++ cString text))
  | .returned values globals =>
    match readConfig globals ⟨values.reverse, params⟩ with
    | .ok r => .ok (r.params, none)
    | .error (.cleanup params error) => .ok (params, some error)
    | .error (.fault f) => .error f

/-! ## The constructor -/

/-- What the constructor of `Server` throws, or that an `int32` overflows. -/
inductive Unmade where
  | invalidArgument (what : Bytes)
  | createStore (e : Store.CreateExn)
  | undefinedBehavior
  deriving DecidableEq

/-- The constructor of `Server`, behind the one of `Device`. The UUID is given; a context of 0MQ
can be created. -/
def construct (isDirectory : Bytes → Bool) (id : Bytes) (params : ServerStartParams) :
    Except Unmade Server :=
  if !params.active then
    .error (.invalidArgument (str "ConditionalWait parameter not defined"))
  -- the interval of the flush timer
  else if params.streamFlushInterval.toInt * 1000 < -2 ^ 31 ∨
      2 ^ 31 ≤ params.streamFlushInterval.toInt * 1000 then .error .undefinedBehavior
  else if params.listenEndpoints.isEmpty then
    .error (.invalidArgument (str "a listen endpoint must be defined to create a server"))
  else if params.storePath.isEmpty then
    .error (.invalidArgument (str "a store path must be defined to create a server"))
  else
    match Store.createStore isDirectory params.storePath with
    | .error e => .error (.createStore e)
    | .ok _ =>
      .ok
        { id
          storePath := params.storePath
          listenEndpoints := params.listenEndpoints
          numberWorkerThreads := params.workerThreads
          numberPersistedReactorThreads := params.persistedStateReactorThreads
          store := { writeLogs := !params.logBucket.isEmpty && !params.logStreamSet.isEmpty } }

/-! ## `zippylogd` -/

/-- How far `main` comes: it returns 1 behind its output, or calls `RunAsync` and waits for a
signal. -/
inductive Daemon where
  | returns (output : Bytes)
  | serves (server : Server)

/-- `main` on Linux. The exception is caught by value: its text is that of `std::exception`. -/
def main (doFile : Bytes → ConfigRun) (isDirectory : Bytes → Bool) (id : Bytes) :
    List Bytes → Except Fault Daemon
  | [] | [_] => .ok (.returns (str "Usage: zippylogd /path/to/config/file\n"))
  | _ :: path :: _ =>
    match parseConfig (doFile path) {} with
    | .error f => .error f
    | .ok (_, some error) =>
      .ok (.returns (str "Error loading config file: " ++ error ++ str "\n"))
    | .ok (params, none) =>
      match construct isDirectory id params with
      | .error .undefinedBehavior => .error .undefinedBehavior
      | .error _ => .ok (.returns (str "Exception: std::exception\n"))
      | .ok server => .ok (.serves server)

/-! ## Which configurations are accepted -/

theorem bind_ok_iff {ε α β : Type} {x : Except ε α} {f : α → Except ε β} {b : β} :
    (x >>= f) = .ok b ↔ ∃ a, x = .ok a ∧ f a = .ok b := by
  cases x with
  | error e =>
    refine iff_of_false (fun h => (by cases h)) ?_
    rintro ⟨a, h, -⟩
    cases h
  | ok a =>
    refine ⟨fun h => ⟨a, rfl, h⟩, ?_⟩
    rintro ⟨a', h, hb⟩
    obtain rfl := Except.ok.inj h
    exact hb

theorem bind_error_iff {ε α β : Type} {x : Except ε α} {f : α → Except ε β} {e : ε} :
    (x >>= f) = .error e ↔ x = .error e ∨ ∃ a, x = .ok a ∧ f a = .error e := by
  cases x with
  | error e' =>
    have hbind : (Except.error e' >>= f) = .error e' := rfl
    rw [hbind]
    constructor
    · intro h
      exact .inl (congrArg Except.error (Except.error.inj h))
    · rintro (h | ⟨a, h, -⟩)
      · exact congrArg Except.error (Except.error.inj h)
      · cases h
  | ok a =>
    refine ⟨fun h => .inr ⟨a, rfl, h⟩, ?_⟩
    rintro (h | ⟨a', h, he⟩)
    · cases h
    · obtain rfl := Except.ok.inj h
      exact he

/-- The value at the index 1 when the endpoints are read. -/
def endpointsTable (values : List ConfigValue) (globals : Bytes → ConfigValue) : ConfigValue :=
  values.headD (globals (str "endpoints"))

section Steps

variable {globals : Bytes → ConfigValue} {r r' : Reading}

theorem fail_ne_ok {α : Type} {error : Bytes} {a : α} : r.fail error ≠ .ok a := by
  intro h
  cases h

/-- The path is cut at its first NUL, as it goes through a C string. -/
theorem readStorePath_ok_iff : readStorePath globals r = .ok r' ↔
    ∃ text, (globals (str "store_path")).toString? = some text ∧
      r' = { r with params := { r.params with storePath := cString text } } := by
  unfold readStorePath
  have htop : (r.getGlobal globals (str "store_path")).top 1 = globals (str "store_path") := rfl
  simp only [htop]
  cases htext : (globals (str "store_path")).toString? with
  | none =>
    constructor
    · intro h
      split at h <;> exact absurd h fail_ne_ok
    · rintro ⟨text, h, -⟩
      cases h
  | some text =>
    rw [if_neg (by rw [ConfigValue.isNil_of_toString? htext]; exact Bool.false_ne_true)]
    constructor
    · intro h
      obtain rfl := Except.ok.inj h
      exact ⟨text, rfl, rfl⟩
    · rintro ⟨text', h, rfl⟩
      obtain rfl := Option.some.inj h
      rfl

/-- **Loop lemma**: the entries that are left are texts, and the key is popped behind them. -/
theorem readEntries_ok_iff (entries : List (ConfigValue × ConfigValue)) : ∀ r : Reading,
    readEntries entries r = .ok r' ↔
      ∃ texts : List Bytes, entries.map (·.2.toString?) = texts.map some ∧
        r' = ⟨r.stack.drop 1, { r.params with
          listenEndpoints := r.params.listenEndpoints ++ texts.map cString }⟩ := by
  induction entries with
  | nil =>
    intro r
    constructor
    · intro h
      obtain rfl := Except.ok.inj h
      refine ⟨[], rfl, ?_⟩
      rw [List.map_nil, List.append_nil]
      rfl
    · rintro ⟨texts, htexts, rfl⟩
      obtain rfl := List.map_eq_nil_iff.mp htexts.symm
      rw [List.map_nil, List.append_nil]
      rfl
  | cons entry entries ih =>
    intro r
    obtain ⟨key, value⟩ := entry
    rw [readEntries]
    have htop : (((r.pop 1).push key).push value).top 1 = value := rfl
    simp only [htop, List.map_cons]
    -- a value that is no text ends the loop with an error, of one of two kinds
    cases hvalue : value.toString? with
    | none =>
      constructor
      · intro h
        dsimp only at h
        split at h <;> exact absurd h fail_ne_ok
      · rintro ⟨texts, htexts, -⟩
        cases texts with
        | nil => cases htexts
        | cons text texts => cases (List.cons.inj htexts).1
    | some text =>
      dsimp only
      rw [ih]
      constructor
      · rintro ⟨texts, htexts, rfl⟩
        refine ⟨text :: texts, by rw [htexts, List.map_cons], ?_⟩
        simp [Reading.pop, Reading.push]
      · rintro ⟨texts, htexts, rfl⟩
        cases texts with
        | nil => cases htexts
        | cons text' texts =>
          obtain ⟨htext, hrest⟩ := List.cons.inj htexts
          obtain rfl := Option.some.inj htext
          refine ⟨texts, hrest, ?_⟩
          simp [Reading.pop, Reading.push]

/-- An option that is `nil` has its default; a text that converts to a number is one. -/
theorem readInteger_ok_iff {name : String} {default : Int64}
    {set : ServerStartParams → Int64 → ServerStartParams} :
    readInteger globals name default set r = .ok r' ↔
      ∃ value, (globals (str name)).optInteger default = some value ∧
        r' = { r with params := set r.params value } := by
  unfold readInteger
  have htop : (r.getGlobal globals (str name)).top 1 = globals (str name) := rfl
  simp only [htop]
  cases (globals (str name)).optInteger default with
  | none =>
    refine iff_of_false (fun h => (by cases h)) ?_
    rintro ⟨value, h, -⟩
    cases h
  | some value =>
    constructor
    · intro h
      obtain rfl := Except.ok.inj h
      exact ⟨value, rfl, rfl⟩
    · rintro ⟨value', hvalue, rfl⟩
      obtain rfl := Option.some.inj hvalue
      rfl

/-- An option that is a text, cut at its first NUL. -/
theorem readString_ok_iff {name default : String}
    {set : ServerStartParams → Bytes → ServerStartParams} :
    readString globals name default set r = .ok r' ↔
      ∃ value, (globals (str name)).optString (str default) = some value ∧
        r' = { r with params := set r.params (cString value) } := by
  unfold readString
  have htop : (r.getGlobal globals (str name)).top 1 = globals (str name) := rfl
  simp only [htop]
  cases (globals (str name)).optString (str default) with
  | none =>
    refine iff_of_false (fun h => (by cases h)) ?_
    rintro ⟨value, h, -⟩
    cases h
  | some value =>
    constructor
    · intro h
      obtain rfl := Except.ok.inj h
      exact ⟨value, rfl, rfl⟩
    · rintro ⟨value', hvalue, rfl⟩
      obtain rfl := Option.some.inj hvalue
      rfl

theorem bottom_endpoints {values : List ConfigValue} (h : r.stack = values.reverse) :
    ((r.getGlobal globals (str "endpoints")).push .nil).bottom = endpointsTable values globals := by
  cases values with
  | nil => simp [Reading.bottom, Reading.push, Reading.getGlobal, endpointsTable, h]
  | cons value values =>
    rw [Reading.bottom, Reading.push, Reading.getGlobal, h, List.reverse_cons, ← List.cons_append,
      ← List.cons_append, List.getLastD_concat]
    rfl

/-- The global is checked to be a table, but the loop goes through what is at the index 1: the first
returned value, where there is one. The texts of all its values are taken, in the order of the
table. -/
theorem readEndpoints_ok_iff {values : List ConfigValue} (hstack : r.stack = values.reverse) :
    readEndpoints globals r = .ok r' ↔
      (globals (str "endpoints")).toTable?.isSome = true ∧
      ∃ entries, (endpointsTable values globals).toTable? = some entries ∧
        ∃ texts : List Bytes, entries.map (·.2.toString?) = texts.map some ∧
          r' = ⟨globals (str "endpoints") :: r.stack, { r.params with
            listenEndpoints := r.params.listenEndpoints ++ texts.map cString }⟩ := by
  unfold readEndpoints
  have htop : (r.getGlobal globals (str "endpoints")).top 1 = globals (str "endpoints") := rfl
  simp only [htop, bottom_endpoints hstack]
  cases htable : (globals (str "endpoints")).toTable? with
  | none =>
    constructor
    · intro h
      split at h <;> exact absurd h fail_ne_ok
    · rintro ⟨h, -⟩
      cases h
  | some _ =>
    rw [if_neg (by rw [ConfigValue.isNil_of_toTable? htable]; exact Bool.false_ne_true)]
    dsimp only
    cases (endpointsTable values globals).toTable? with
    | none =>
      constructor
      · intro h
        cases h
      · rintro ⟨-, entries, h, -⟩
        cases h
    | some entries =>
      dsimp only
      rw [readEntries_ok_iff]
      constructor
      · rintro ⟨texts, htexts, rfl⟩
        exact ⟨rfl, entries, rfl, texts, htexts, rfl⟩
      · rintro ⟨-, entries', hentries, texts, htexts, rfl⟩
        obtain rfl := Option.some.inj hentries
        exact ⟨texts, htexts, rfl⟩

/-- The interval is cut to 32 bits before it is compared. -/
theorem readStreamFlushInterval_ok_iff : readStreamFlushInterval globals r = .ok r' ↔
    ∃ value, (globals (str "stream_flush_interval")).optInteger 5000 = some value ∧
      1000 ≤ value.toInt32 ∧
      r' = { r with params := { r.params with streamFlushInterval := value.toInt32 } } := by
  rw [readStreamFlushInterval, bind_ok_iff]
  constructor
  · rintro ⟨r₁, hread, h⟩
    obtain ⟨value, hvalue, rfl⟩ := readInteger_ok_iff.mp hread
    dsimp only at h
    split_ifs at h with hneg hlt
    · exact absurd h fail_ne_ok
    · exact absurd h fail_ne_ok
    · exact ⟨value, hvalue, Int32.not_lt.mp hlt, (Except.ok.inj h).symm⟩
  · rintro ⟨value, hvalue, hle, rfl⟩
    refine ⟨_, readInteger_ok_iff.mpr ⟨value, hvalue, rfl⟩, ?_⟩
    have hlt : ¬ value.toInt32 < 1000 := Int32.not_lt.mpr hle
    have hneg : ¬ value.toInt32 < 0 := fun h => hlt (Int32.lt_trans h (by decide))
    dsimp only
    rw [if_neg hneg, if_neg hlt]
    rfl

/-! ## Undefined behaviour -/

/-- What only a statement comes to that reads a table where there is none. -/
def Undefined : Leave := .fault .undefinedBehavior

theorem fail_ne_undefined {α : Type} {error : Bytes} :
    (r.fail error : Except Leave α) ≠ .error Undefined := by
  intro h
  cases h

theorem readStorePath_ne_undefined : readStorePath globals r ≠ .error Undefined := by
  unfold readStorePath
  dsimp only
  split
  · exact fail_ne_undefined
  · split
    · exact fail_ne_undefined
    · intro h
      cases h

/-- Within a table the loop is defined: a value that is no text is refused. -/
theorem readEntries_ne_undefined (entries : List (ConfigValue × ConfigValue)) :
    ∀ r : Reading, readEntries entries r ≠ .error Undefined := by
  induction entries with
  | nil =>
    intro r h
    cases h
  | cons entry entries ih =>
    intro r
    obtain ⟨key, value⟩ := entry
    rw [readEntries]
    dsimp only
    split
    · split <;> exact fail_ne_undefined
    · exact ih _

theorem readInteger_ne_undefined {name : String} {default : Int64}
    {set : ServerStartParams → Int64 → ServerStartParams} :
    readInteger globals name default set r ≠ .error Undefined := by
  unfold readInteger
  dsimp only
  split <;> intro h <;> cases h

theorem readString_ne_undefined {name default : String}
    {set : ServerStartParams → Bytes → ServerStartParams} :
    readString globals name default set r ≠ .error Undefined := by
  unfold readString
  dsimp only
  split <;> intro h <;> cases h

theorem readStreamFlushInterval_ne_undefined :
    readStreamFlushInterval globals r ≠ .error Undefined := by
  rw [readStreamFlushInterval, Ne, bind_error_iff]
  rintro (h | ⟨r₁, -, h⟩)
  · exact readInteger_ne_undefined h
  · split_ifs at h
    · exact fail_ne_undefined h
    · exact fail_ne_undefined h
    · cases h

/-- Going through a value that is no table is undefined. -/
theorem readEndpoints_undefined_iff {values : List ConfigValue}
    (hstack : r.stack = values.reverse) : readEndpoints globals r = .error Undefined ↔
      (globals (str "endpoints")).toTable?.isSome = true ∧
        (endpointsTable values globals).toTable? = none := by
  unfold readEndpoints
  have htop : (r.getGlobal globals (str "endpoints")).top 1 = globals (str "endpoints") := rfl
  simp only [htop, bottom_endpoints hstack]
  cases htable : (globals (str "endpoints")).toTable? with
  | none =>
    refine iff_of_false ?_ fun h => (by cases h.1)
    split <;> exact fail_ne_undefined
  | some _ =>
    rw [if_neg (by rw [ConfigValue.isNil_of_toTable? htable]; exact Bool.false_ne_true)]
    dsimp only
    cases (endpointsTable values globals).toTable? with
    | none => exact iff_of_true rfl ⟨rfl, rfl⟩
    | some entries => exact iff_of_false (readEntries_ne_undefined _ _) fun h => (by cases h.2)

end Steps

/-- **What a configuration says**, when the chunk returns `values`. -/
structure ReadsAs (values : List ConfigValue) (globals : Bytes → ConfigValue)
    (params p : ServerStartParams) : Prop where
  active : p.active = params.active
  storePath : (globals (str "store_path")).toString?.map cString = some p.storePath
  endpoints : (globals (str "endpoints")).toTable?.isSome = true
  /-- Which table is read depends on what the chunk returns. -/
  listenEndpoints : ∃ entries, (endpointsTable values globals).toTable? = some entries ∧
    ∃ texts : List Bytes, entries.map (·.2.toString?) = texts.map some ∧
      p.listenEndpoints = params.listenEndpoints ++ texts.map cString
  workerThreads : ((globals (str "worker_threads")).optInteger 2).map (·.toUInt64.toUInt32) =
    some p.workerThreads
  persistedStateReactorThreads :
    ((globals (str "persisted_state_reactor_threads")).optInteger 1).map (·.toUInt64.toUInt32) =
      some p.persistedStateReactorThreads
  subscriptionTtl :
    ((globals (str "streaming_subscription_ttl")).optInteger 60000).map (·.toUInt64.toUInt32) =
      some p.subscriptionTtl
  logBucket : ((globals (str "log_bucket")).optString (str "zippylog")).map cString =
    some p.logBucket
  logStreamSet : ((globals (str "log_stream_set")).optString (str "zippylog")).map cString =
    some p.logStreamSet
  streamFlushInterval :
    ((globals (str "stream_flush_interval")).optInteger 5000).map (·.toInt32) =
      some p.streamFlushInterval
  interval_le : 1000 ≤ p.streamFlushInterval
  luaExecuteClientCode :
    p.luaExecuteClientCode = (globals (str "lua_execute_client_code")).toBoolean
  luaStreamingMaxMemory :
    ((globals (str "lua_streaming_max_memory")).optInteger 524288).map (·.toUInt64.toUInt32) =
      some p.luaStreamingMaxMemory

section Whole

variable {values : List ConfigValue} {globals : Bytes → ConfigValue} {params p : ServerStartParams}

/-- A configuration is read in one way. -/
theorem ReadsAs.unique {q : ServerStartParams} (hp : ReadsAs values globals params p)
    (hq : ReadsAs values globals params q) : p = q := by
  have hlisten : p.listenEndpoints = q.listenEndpoints := by
    obtain ⟨entries, hentries, texts, htexts, hp⟩ := hp.listenEndpoints
    obtain ⟨entries', hentries', texts', htexts', hq⟩ := hq.listenEndpoints
    obtain rfl := Option.some.inj (hentries.symm.trans hentries')
    have hmap : texts.map some = texts'.map some := htexts.symm.trans htexts'
    obtain rfl := List.map_injective_iff.mpr (Option.some_injective Bytes) hmap
    rw [hp, hq]
  cases p
  cases q
  congr
  · exact hp.active.trans hq.active.symm
  · exact Option.some.inj (hp.storePath.symm.trans hq.storePath)
  · exact Option.some.inj (hp.workerThreads.symm.trans hq.workerThreads)
  · exact Option.some.inj
      (hp.persistedStateReactorThreads.symm.trans hq.persistedStateReactorThreads)
  · exact Option.some.inj (hp.subscriptionTtl.symm.trans hq.subscriptionTtl)
  · exact Option.some.inj (hp.logBucket.symm.trans hq.logBucket)
  · exact Option.some.inj (hp.logStreamSet.symm.trans hq.logStreamSet)
  · exact Option.some.inj (hp.streamFlushInterval.symm.trans hq.streamFlushInterval)
  · exact hp.luaExecuteClientCode.trans hq.luaExecuteClientCode.symm
  · exact Option.some.inj (hp.luaStreamingMaxMemory.symm.trans hq.luaStreamingMaxMemory)

/-- What the readers of the options leave, one behind the other. -/
theorem readsAs_of_readConfig {r : Reading}
    (h : readConfig globals ⟨values.reverse, params⟩ = .ok r) :
    ReadsAs values globals params r.params := by
  simp only [readConfig, bind_ok_iff] at h
  obtain ⟨r₁, h₁, r₂, h₂, r₃, h₃, r₄, h₄, r₅, h₅, r₆, h₆, r₇, h₇, r₈, h₈, h₉⟩ := h
  -- the parameters are taken apart, so that a step leaves a record and no update
  cases params
  obtain ⟨storePath, hstorePath, rfl⟩ := readStorePath_ok_iff.mp h₁
  obtain ⟨htable, entries, hentries, texts, htexts, rfl⟩ := (readEndpoints_ok_iff rfl).mp h₂
  dsimp only at h₃
  obtain ⟨workerThreads, hworkerThreads, rfl⟩ := readInteger_ok_iff.mp h₃
  dsimp only at h₄
  obtain ⟨reactorThreads, hreactorThreads, rfl⟩ := readInteger_ok_iff.mp h₄
  dsimp only at h₅
  obtain ⟨ttl, httl, rfl⟩ := readInteger_ok_iff.mp h₅
  dsimp only at h₆
  obtain ⟨bucket, hbucket, rfl⟩ := readString_ok_iff.mp h₆
  dsimp only at h₇
  obtain ⟨set, hset, rfl⟩ := readString_ok_iff.mp h₇
  dsimp only at h₈
  obtain ⟨interval, hinterval, hle, rfl⟩ := readStreamFlushInterval_ok_iff.mp h₈
  dsimp only [readLuaExecuteClientCode, Reading.getGlobal, Reading.top, Reading.pop] at h₉
  obtain ⟨memory, hmemory, rfl⟩ := readInteger_ok_iff.mp h₉
  exact
    { active := rfl
      storePath := by rw [hstorePath]; rfl
      endpoints := htable
      listenEndpoints := ⟨entries, hentries, texts, htexts, rfl⟩
      workerThreads := by rw [hworkerThreads]; rfl
      persistedStateReactorThreads := by rw [hreactorThreads]; rfl
      subscriptionTtl := by rw [httl]; rfl
      logBucket := by rw [hbucket]; rfl
      logStreamSet := by rw [hset]; rfl
      streamFlushInterval := by rw [hinterval]; rfl
      interval_le := hle
      luaExecuteClientCode := rfl
      luaStreamingMaxMemory := by rw [hmemory]; rfl }

/-- And each of them succeeds where the option is as it must be. -/
theorem ReadsAs.exists_readConfig (h : ReadsAs values globals params p) :
    ∃ r, readConfig globals ⟨values.reverse, params⟩ = .ok r := by
  obtain ⟨storePath, hstorePath, -⟩ := Option.map_eq_some_iff.mp h.storePath
  obtain ⟨entries, hentries, texts, htexts, -⟩ := h.listenEndpoints
  obtain ⟨workerThreads, hworkerThreads, -⟩ := Option.map_eq_some_iff.mp h.workerThreads
  obtain ⟨reactorThreads, hreactorThreads, -⟩ :=
    Option.map_eq_some_iff.mp h.persistedStateReactorThreads
  obtain ⟨ttl, httl, -⟩ := Option.map_eq_some_iff.mp h.subscriptionTtl
  obtain ⟨bucket, hbucket, -⟩ := Option.map_eq_some_iff.mp h.logBucket
  obtain ⟨set, hset, -⟩ := Option.map_eq_some_iff.mp h.logStreamSet
  obtain ⟨interval, hinterval, heq⟩ := Option.map_eq_some_iff.mp h.streamFlushInterval
  obtain ⟨memory, hmemory, -⟩ := Option.map_eq_some_iff.mp h.luaStreamingMaxMemory
  have hle : 1000 ≤ interval.toInt32 := by
    rw [heq]
    exact h.interval_le
  obtain ⟨r₁, h₁, hstack⟩ : ∃ r₁, readStorePath globals ⟨values.reverse, params⟩ = .ok r₁ ∧
      r₁.stack = values.reverse :=
    ⟨_, readStorePath_ok_iff.mpr ⟨storePath, hstorePath, rfl⟩, rfl⟩
  obtain ⟨r₂, h₂⟩ : ∃ r₂, readEndpoints globals r₁ = .ok r₂ :=
    ⟨_, (readEndpoints_ok_iff hstack).mpr ⟨h.endpoints, entries, hentries, texts, htexts, rfl⟩⟩
  obtain ⟨r₃, h₃⟩ : ∃ r₃, readWorkerThreads globals r₂ = .ok r₃ :=
    ⟨_, readInteger_ok_iff.mpr ⟨workerThreads, hworkerThreads, rfl⟩⟩
  obtain ⟨r₄, h₄⟩ : ∃ r₄, readPersistedStateReactorThreads globals r₃ = .ok r₄ :=
    ⟨_, readInteger_ok_iff.mpr ⟨reactorThreads, hreactorThreads, rfl⟩⟩
  obtain ⟨r₅, h₅⟩ : ∃ r₅, readSubscriptionTtl globals r₄ = .ok r₅ :=
    ⟨_, readInteger_ok_iff.mpr ⟨ttl, httl, rfl⟩⟩
  obtain ⟨r₆, h₆⟩ : ∃ r₆, readLogBucket globals r₅ = .ok r₆ :=
    ⟨_, readString_ok_iff.mpr ⟨bucket, hbucket, rfl⟩⟩
  obtain ⟨r₇, h₇⟩ : ∃ r₇, readLogStreamSet globals r₆ = .ok r₇ :=
    ⟨_, readString_ok_iff.mpr ⟨set, hset, rfl⟩⟩
  obtain ⟨r₈, h₈⟩ : ∃ r₈, readStreamFlushInterval globals r₇ = .ok r₈ :=
    ⟨_, readStreamFlushInterval_ok_iff.mpr ⟨interval, hinterval, hle, rfl⟩⟩
  obtain ⟨r₉, h₉⟩ : ∃ r₉, readLuaStreamingMaxMemory globals
      (readLuaExecuteClientCode globals r₈) = .ok r₉ :=
    ⟨_, readInteger_ok_iff.mpr ⟨memory, hmemory, rfl⟩⟩
  simp only [readConfig, bind_ok_iff]
  exact ⟨r₉, r₁, h₁, r₂, h₂, r₃, h₃, r₄, h₄, r₅, h₅, r₆, h₆, r₇, h₇, r₈, h₈, h₉⟩

/-- **What `ParseConfig` accepts**, and what it makes of it, for every outcome of the chunk and all
values of the globals. When the chunk returns a value, the endpoints are those of the first value
that it returns. `ReadsAs` has the parameters one by one, each with its default. -/
theorem parseConfig_iff (run : ConfigRun) (params p : ServerStartParams) :
    parseConfig run params = .ok (p, none) ↔
      ∃ values globals, run = .returned values globals ∧ ReadsAs values globals params p := by
  cases run with
  | noReturn =>
    refine iff_of_false (fun h => (by cases h)) ?_
    rintro ⟨values, globals, h, -⟩
    cases h
  | error text =>
    refine iff_of_false (fun h => (by cases h)) ?_
    rintro ⟨values, globals, h, -⟩
    cases h
  | returned values globals =>
    rw [parseConfig]
    constructor
    · intro h
      refine ⟨values, globals, rfl, ?_⟩
      split at h
      · rename_i r hread
        obtain rfl := congrArg Prod.fst (Except.ok.inj h)
        exact readsAs_of_readConfig hread
      · cases h
      · cases h
    · rintro ⟨values', globals', heq, h⟩
      obtain ⟨rfl, rfl⟩ := ConfigRun.returned.inj heq
      obtain ⟨r, hread⟩ := h.exists_readConfig
      obtain rfl := (readsAs_of_readConfig hread).unique h
      rw [hread]

/-- **What `ParseConfig` does not survive**: a chunk that returns a value which is no table, when
the path and the endpoints are as they must be. In every other case it returns, refuses or ends the
process. -/
theorem parseConfig_undefined_iff (run : ConfigRun) (params : ServerStartParams) :
    parseConfig run params = .error .undefinedBehavior ↔
      ∃ value values globals, run = .returned (value :: values) globals ∧
        (globals (str "store_path")).toString?.isSome = true ∧
        (globals (str "endpoints")).toTable?.isSome = true ∧ value.toTable? = none := by
  cases run with
  | noReturn =>
    refine iff_of_false (fun h => (by cases h)) ?_
    rintro ⟨value, values, globals, h, -⟩
    cases h
  | error text =>
    refine iff_of_false (fun h => (by cases h)) ?_
    rintro ⟨value, values, globals, h, -⟩
    cases h
  | returned values globals =>
    have hread : parseConfig (.returned values globals) params = .error .undefinedBehavior ↔
        readConfig globals ⟨values.reverse, params⟩ = .error Undefined := by
      rw [parseConfig]
      split <;> rename_i heq <;> rw [heq]
      · exact iff_of_false (fun h => (by cases h)) fun h => (by cases h)
      · exact iff_of_false (fun h => (by cases h)) fun h => (by cases h)
      · exact ⟨fun h => congrArg (Except.error ∘ Leave.fault) (Except.error.inj h),
          fun h => congrArg Except.error (Leave.fault.inj (Except.error.inj h))⟩
    rw [hread]
    simp only [readConfig, bind_error_iff, readStorePath_ne_undefined, false_or]
    constructor
    · rintro ⟨r₁, h₁, h | ⟨r₂, -, h⟩⟩
      · obtain ⟨text, htext, rfl⟩ := readStorePath_ok_iff.mp h₁
        obtain ⟨htable, hnone⟩ := (readEndpoints_undefined_iff rfl).mp h
        -- without a returned value the table is the one that was checked
        cases values with
        | nil =>
          change (globals (str "endpoints")).toTable? = none at hnone
          rw [hnone] at htable
          cases htable
        | cons value values =>
          exact ⟨value, values, globals, rfl, by rw [htext]; rfl, htable, hnone⟩
      · -- no statement behind the endpoints
        exfalso
        rcases h with h | ⟨r₃, -, h | ⟨r₄, -, h | ⟨r₅, -, h | ⟨r₆, -, h | ⟨r₇, -, h |
          ⟨r₈, -, h⟩⟩⟩⟩⟩⟩
        · exact readInteger_ne_undefined h
        · exact readInteger_ne_undefined h
        · exact readInteger_ne_undefined h
        · exact readString_ne_undefined h
        · exact readString_ne_undefined h
        · exact readStreamFlushInterval_ne_undefined h
        · exact readInteger_ne_undefined h
    · rintro ⟨value, values', globals', heq, hpath, htable, hnone⟩
      obtain ⟨rfl, rfl⟩ := ConfigRun.returned.inj heq
      obtain ⟨text, htext⟩ := Option.isSome_iff_exists.mp hpath
      have hundefined : (endpointsTable (value :: values') globals).toTable? = none := hnone
      exact ⟨_, readStorePath_ok_iff.mpr ⟨text, htext, rfl⟩,
        .inl ((readEndpoints_undefined_iff rfl).mpr ⟨htable, hundefined⟩)⟩

/-- A configuration whose chunk returns nothing says what its globals say. -/
theorem ReadsAs.of_globals (h : ReadsAs [] globals params p) : ∃ entries,
    globals (str "endpoints") = .table entries ∧ ∃ texts : List Bytes,
      entries.map (·.2.toString?) = texts.map some ∧
        p.listenEndpoints = params.listenEndpoints ++ texts.map cString := by
  obtain ⟨entries, hentries, h⟩ := h.listenEndpoints
  refine ⟨entries, ?_, h⟩
  change (globals (str "endpoints")).toTable? = some entries at hentries
  cases hglobal : globals (str "endpoints") with
  | table entries' =>
    rw [hglobal] at hentries
    rw [Option.some.inj hentries]
  | _ =>
    rw [hglobal] at hentries
    cases hentries

end Whole

/-! ## Which parameters make a server -/

section Constructor

variable {isDirectory : Bytes → Bool} {id : Bytes} {params : ServerStartParams}

/-- **Which parameters make a server**. -/
theorem exists_construct_iff : (∃ s, construct isDirectory id params = .ok s) ↔
    params.active = true ∧ -2147483 ≤ params.streamFlushInterval.toInt ∧
      params.streamFlushInterval.toInt ≤ 2147483 ∧ params.listenEndpoints ≠ [] ∧
      params.storePath ≠ [] ∧
        ∃ root, Store.createStore isDirectory params.storePath = .ok root := by
  unfold construct
  cases hactive : params.active with
  | false =>
    refine iff_of_false ?_ (fun h => (by cases h.1))
    rintro ⟨s, h⟩
    cases h
  | true =>
    simp only [Bool.not_true, Bool.false_eq_true, if_false, true_and]
    -- the interval is multiplied by 1000 in an `int`
    by_cases hfits : -2147483 ≤ params.streamFlushInterval.toInt ∧
        params.streamFlushInterval.toInt ≤ 2147483
    swap
    · rw [if_pos (by omega)]
      refine iff_of_false ?_ fun h => hfits ⟨h.1, h.2.1⟩
      rintro ⟨s, h⟩
      cases h
    rw [if_neg (by omega)]
    cases hlisten : params.listenEndpoints with
    | nil =>
      refine iff_of_false ?_ fun h => h.2.2.1 rfl
      rintro ⟨s, h⟩
      cases h
    | cons endpoint endpoints =>
      cases hpath : params.storePath with
      | nil =>
        refine iff_of_false ?_ fun h => h.2.2.2.1 rfl
        rintro ⟨s, h⟩
        cases h
      | cons c path =>
        simp only [List.isEmpty_cons, Bool.false_eq_true, if_false]
        cases Store.createStore isDirectory (c :: path) with
        | error e =>
          refine iff_of_false ?_ ?_
          · rintro ⟨s, h⟩
            cases h
          · rintro ⟨-, -, -, -, root, h⟩
            cases h
        | ok root =>
          exact iff_of_true ⟨_, rfl⟩
            ⟨hfits.1, hfits.2, List.cons_ne_nil _ _, List.cons_ne_nil _ _, root, rfl⟩

/-- A server that the constructor makes is as its runs start. -/
theorem constructed_of_construct {s : Server} (h : construct isDirectory id params = .ok s) :
    Constructed s := by
  unfold construct at h
  split_ifs at h
  split at h
  · cases h
  · obtain rfl := Except.ok.inj h
    exact ⟨rfl, rfl, rfl, rfl, rfl, rfl, rfl, rfl⟩

theorem construct_inactive (h : params.active = false) : construct isDirectory id params =
    .error (.invalidArgument (str "ConditionalWait parameter not defined")) := by
  rw [construct, h]
  rfl

end Constructor

/-! ## `zippylogd` -/

theorem error_ne_exception (error : Bytes) :
    str "Error loading config file: " ++ error ++ str "\n" ≠
      str "Exception: std::exception\n" := by
  intro h
  have htake := congrArg (List.take 2) h
  rw [List.append_assoc, List.take_append_of_le_length (by decide +kernel)] at htake
  exact absurd htake (by decide +kernel)

/-- **The daemon never serves**: for no configuration does `main` come to run a server. It gives the
server no semaphore, and no configuration does, so behind an accepted configuration the constructor
of `Device` throws, and `main` prints the exception and ends. -/
theorem zippylogd_never_serves (doFile : Bytes → ConfigRun) (isDirectory : Bytes → Bool)
    (id : Bytes) (program path : Bytes) (args : List Bytes) :
    (∀ s, main doFile isDirectory id (program :: path :: args) ≠ .ok (.serves s)) ∧
    ((∃ p, parseConfig (doFile path) {} = .ok (p, none)) ↔
      main doFile isDirectory id (program :: path :: args) =
        .ok (.returns (str "Exception: std::exception\n"))) := by
  rw [main]
  cases hparse : parseConfig (doFile path) {} with
  | error f =>
    refine ⟨fun s h => (by cases h), iff_of_false ?_ fun h => (by cases h)⟩
    rintro ⟨p, h⟩
    cases h
  | ok result =>
    obtain ⟨p, error⟩ := result
    cases error with
    | some error =>
      refine ⟨fun s h => (by cases h), iff_of_false ?_ fun h => ?_⟩
      · rintro ⟨p', h⟩
        cases congrArg Prod.snd (Except.ok.inj h)
      · have houtput := Daemon.returns.inj (Except.ok.inj h)
        exact error_ne_exception error houtput
    | none =>
      obtain ⟨values, globals, -, hreads⟩ := (parseConfig_iff _ _ _).mp hparse
      dsimp only
      rw [construct_inactive hreads.active]
      exact ⟨fun s h => (by cases h), iff_of_true ⟨p, rfl⟩ rfl⟩

end Server

end Zippylog
