import Zippylog.Envelope

/-!
# Lua states

`lua.cpp`, as far as code is loaded into a state. The code can come from a client, and what it can
do in the server is what the functions do that it finds in the state.

- The interpreter is any. What it makes of a chunk is a `Run`: the calls of the
  functions that are registered in the state, each going on with what it returned,
  and an end. What closing the state runs comes before the end.
- No library is open in a state, and only the functions of the envelope type are
  registered.
- `luaL_checkudata` and the other checks of an argument are the interpreter's: a
  call they refuse raises an error.
- The envelopes are a list, and code knows one by its place in it. Behind `__gc` there is `none` in
  its place, which is the `NULL` that the other functions go through.
-/

namespace Zippylog

open Wire

namespace Lua

/-- A value, as far as the code can tell. A string may convert to a number. -/
inductive Value where
  | nil
  | boolean (b : Bool)
  | number (text : Bytes)
  | string (s : Bytes) (numeric : Bool)
  | function
  | table
  | userdata
  deriving DecidableEq

namespace Value

/-- `lua_tostring`: `NULL` for what is no string and no number. -/
def toString? : Value → Option Bytes
  | number text => some text
  | string s _ => some s
  | _ => none

/-- `lua_isnumber`. -/
def isNumber : Value → Bool
  | number _ => true
  | string _ numeric => numeric
  | _ => false

/-- `lua_isfunction`. -/
def isFunction : Value → Bool
  | function => true
  | _ => false

end Value

/-! ## The envelope type -/

/-- The envelopes of the userdata: `none` is `NULL`. -/
abbrev Userdata := List (Option Envelope)

/-- A call of a function of the envelope type. An argument is `none` when the number
of arguments is wrong. -/
inductive EnvelopeCall where
  | new
  | gc (u : Nat)
  | serialize (u : Nat)
  | messageCount (u : Nat)
  | messageEnumeration (u : Nat) (offset : Option Int)
  | tagCount (u : Nat)
  | addTag (u : Nat) (tag : Option Bytes)
  | getTag (u : Nat) (offset : Option Int)
  | serializedByteSize (u : Nat)
  | getStringValue (u : Nat)
  | setStringValue (u : Nat) (value : Option Bytes)
  | getMessage
  | addMessage

/-- What a function returns to the interpreter, or the error it raises. -/
inductive Returned where
  | userdata (u : Nat)
  | integers (ns : List Int)
  | string (s : Bytes)
  | nil
  | nothing
  | error (message : Bytes)

/-- The text of an index that is out of range. -/
def offsetError (function : String) (size : Nat) (offset : Int) : Bytes :=
  str ("offset passed to " ++ function ++ "() must be between 1 and " ++ toString (size + 1) ++
    ". " ++ toString (offset.bmod (2 ^ 32)) ++ " given")

/-- A function that reads an envelope through its userdata. -/
def withEnvelope (s : Userdata) (u : Nat)
    (k : Envelope → Except Fault (Returned × Userdata)) : Except Fault (Returned × Userdata) :=
  match s[u]? with
  | none => .ok (.error (str "zippylog._envelope expected"), s)
  | some none => .error .undefinedBehavior
  | some (some e) => k e

/-- `zippylog_lua_envelope_message_enumeration`. -/
def messageEnumeration (s : Userdata) (e : Envelope) (offset : Option Int) :
    Except Fault (Returned × Userdata) :=
  match offset with
  | none =>
    .ok (.error (str "message_enumeration() requires one integer argument. none given"), s)
  | some offset =>
    if offset < 1 ∨ offset > e.messageCount then
      .ok (.error (offsetError "message_enumeration" e.messageCount offset), s)
    else
      match e.messageNamespace[(offset - 1).toNat]?, e.messageType[(offset - 1).toNat]? with
      | some ns, some type => .ok (.integers [ns.toNat, type.toNat], s)
      | _, _ => .error .undefinedBehavior

/-- `zippylog_lua_envelope_get_tag`. -/
def getTag (s : Userdata) (e : Envelope) (offset : Option Int) :
    Except Fault (Returned × Userdata) :=
  match offset with
  | none => .ok (.error (str "get_tag() requires one integer argument. none given"), s)
  | some offset =>
    if offset < 1 ∨ offset > e.tagSize then
      .ok (.error (offsetError "get_tag" e.tagSize offset), s)
    else match e.tag[(offset - 1).toNat]? with
      | some tag => .ok (.string tag, s)
      | none => .error .undefinedBehavior

/-- The functions of `EnvelopeFunctions` and `EnvelopeMethods`. The envelope is gone
after `__gc`, which code can call too. -/
def EnvelopeCall.apply (now : UInt64) (s : Userdata) :
    EnvelopeCall → Except Fault (Returned × Userdata)
  | new => .ok (.userdata s.length, s ++ [some (Envelope.new now)])
  | gc u =>
    match s[u]? with
    | none => .ok (.error (str "zippylog._envelope expected"), s)
    | some _ => .ok (.userdata u, s.set u none)
  | serialize u => withEnvelope s u fun e => .ok (.string e.serialize, s)
  | messageCount u => withEnvelope s u fun e => .ok (.integers [e.messageCount], s)
  | messageEnumeration u offset => withEnvelope s u fun e => Lua.messageEnumeration s e offset
  | tagCount u => withEnvelope s u fun e => .ok (.integers [e.tagSize], s)
  | addTag u tag =>
    match tag with
    | none => .ok (.error (str "add_tag() requires one string argument. none given"), s)
    | some tag => withEnvelope s u fun e => .ok (.nothing, s.set u (some (e.addTag tag)))
  | getTag u offset => withEnvelope s u fun e => Lua.getTag s e offset
  | serializedByteSize u => withEnvelope s u fun e => .ok (.integers [e.serializedByteSize], s)
  | getStringValue u => withEnvelope s u fun e =>
      .ok (match e.stringValue with | some value => .string value | none => .nil, s)
  | setStringValue u value =>
    match value with
    | none => .ok (.error (str "set_string_value() expects one string argument. none given"), s)
    | some value =>
      withEnvelope s u fun e => .ok (.nothing, s.set u (some { e with stringValue := some value }))
  | getMessage => .ok (.error (str "get_message() is not yet implemented"), s)
  | addMessage => .ok (.error (str "add_message() is not yet implemented"), s)

/-! ## Chunks -/

/-- The global variables. Looking one up can raise an error, for which no call is
protected: the process exits. -/
abbrev Globals := Bytes → Option Value

/-- What the interpreter makes of a chunk. -/
inductive Run where
  | call (f : EnvelopeCall) (k : Returned → Run)
  /-- the chunk raises an error -/
  | raise (error : Value)
  | finish (globals : Globals)
  /-- it runs for ever, or the process exits -/
  | noReturn

/-- The interpreter: what it makes of a chunk under a memory ceiling. -/
abbrev Interpreter := UInt32 → Bytes → Run

/-- `luaL_dostring`: the error, or the globals. -/
def Run.exec (now : UInt64) : Run → Userdata → Except Fault (Except Value Globals)
  | call f k, s =>
    match f.apply now s with
    | .error fault => .error fault
    | .ok (r, s) => (k r).exec now s
  | raise error, _ => .ok (.error error)
  | finish globals, _ => .ok (.ok globals)
  | noReturn, _ => .error .noReturn

end Lua

/-- What `DetermineCapabilities` sets. -/
structure LuaState where
  haveLoadString : Bool := false
  haveSubscriptionEnvelopeFilter : Bool := false
  haveSubscriptionTimer : Bool := false
  deriving DecidableEq

namespace LuaState

open Lua

/-- A C string ends at the first zero byte. -/
def cString (s : Bytes) : Bytes := s.takeWhile (· ≠ 0)

/-- `DetermineCapabilities`. An interval without the function is no timer, nor the
function without an interval. -/
def determineCapabilities (globals : Globals) : Option (Bool × LuaState) := do
  let loadString ← globals (str "zippylog_load_string")
  let filter ← globals (str "zippylog_subscription_filter_envelope")
  let interval ← globals (str "zippylog_subscription_timer_interval")
  let signaled ← globals (str "zippylog_subscription_timer_signaled")
  let timer := interval.isNumber && signaled.isFunction
  return (timer || !(interval.isNumber || signaled.isFunction),
    ⟨loadString.isFunction, filter.isFunction, timer⟩)

/-- The variables that `DetermineCapabilities` looks up. -/
def capabilityNames : List Bytes :=
  [str "zippylog_load_string", str "zippylog_subscription_filter_envelope",
    str "zippylog_subscription_timer_interval", str "zippylog_subscription_timer_signaled"]

/-- Looking at a name that raises an error ends the process. -/
theorem determineCapabilities_eq_none_iff {globals : Globals} :
    determineCapabilities globals = none ↔ ∃ name ∈ capabilityNames, globals name = none := by
  simp only [determineCapabilities, capabilityNames, List.mem_cons, List.not_mem_nil, or_false,
    exists_eq_or_imp, exists_eq_left, Option.bind_eq_bind, Option.bind_eq_none_iff]
  constructor
  · intro h
    by_contra hsome
    push Not at hsome
    simp only [Option.ne_none_iff_exists'] at hsome
    obtain ⟨⟨loadString, h1⟩, ⟨filter, h2⟩, ⟨interval, h3⟩, ⟨signaled, h4⟩⟩ := hsome
    exact absurd (h _ h1 _ h2 _ h3 _ h4) (Option.some_ne_none _)
  · rintro (h | h | h | h) loadString h1 filter h2 interval h3 signaled h4
    · rw [h] at h1
      cases h1
    · rw [h] at h2
      cases h2
    · rw [h] at h3
      cases h3
    · rw [h] at h4
      cases h4

/-- What `LoadLuaCode` comes to. -/
inductive Loaded where
  | failed (error : Bytes)
  | loaded (state : LuaState)
  deriving DecidableEq

/-- `LoadLuaCode` in a new state. The error is assigned from a `const char *`. -/
def loadLuaCode (interpreter : Interpreter) (memoryCeiling : UInt32) (now : UInt64)
    (code : Bytes) : Except Fault Loaded :=
  match (interpreter memoryCeiling (cString code)).exec now [] with
  | .error fault => .error fault
  | .ok (.error value) =>
    match value.toString? with
    | none => .error .undefinedBehavior
    | some error => .ok (.failed (cString error))
  | .ok (.ok globals) =>
    match determineCapabilities globals with
    | none => .error .noReturn
    | some (false, _) => .ok (.failed [])
    | some (true, state) => .ok (.loaded state)

/-! ## Faults -/

/-- A function that is called on a destroyed envelope is undefined. -/
theorem withEnvelope_error {s : Userdata} {u : Nat} {f : Fault}
    {k : Envelope → Except Fault (Returned × Userdata)}
    (hk : ∀ e, k e = .error f → f = .undefinedBehavior) (h : withEnvelope s u k = .error f) :
    f = .undefinedBehavior := by
  unfold withEnvelope at h
  split at h
  · cases h
  · cases h
    rfl
  · exact hk _ h

/-- The three lists of an envelope can differ in length. -/
theorem messageEnumeration_error {s : Userdata} {e : Envelope} {offset : Option Int} {f : Fault}
    (h : Lua.messageEnumeration s e offset = .error f) : f = .undefinedBehavior := by
  unfold Lua.messageEnumeration at h
  split at h
  · cases h
  · split at h
    · cases h
    · split at h
      · cases h
      · cases h
        rfl

theorem getTag_error {s : Userdata} {e : Envelope} {offset : Option Int} {f : Fault}
    (h : Lua.getTag s e offset = .error f) : f = .undefinedBehavior := by
  unfold Lua.getTag at h
  split at h
  · cases h
  · split at h
    · cases h
    · split at h
      · cases h
      · cases h
        rfl

/-- The functions of the envelope type throw nothing. -/
theorem apply_error {now : UInt64} {s : Userdata} {call : EnvelopeCall} {f : Fault}
    (h : call.apply now s = .error f) : f = .undefinedBehavior := by
  cases call with
  | new => cases h
  | gc u =>
    dsimp only [EnvelopeCall.apply] at h
    split at h <;> cases h
  | messageEnumeration u offset =>
    exact withEnvelope_error (fun _ => messageEnumeration_error) h
  | getTag u offset => exact withEnvelope_error (fun _ => getTag_error) h
  | addTag u tag =>
    cases tag with
    | none => cases h
    | some tag => exact withEnvelope_error (fun _ he => by cases he) h
  | setStringValue u value =>
    cases value with
    | none => cases h
    | some value => exact withEnvelope_error (fun _ he => by cases he) h
  | getMessage => cases h
  | addMessage => cases h
  | _ => exact withEnvelope_error (fun _ he => by cases he) h

/-- Code does not come back, or one of its calls is undefined. -/
theorem exec_error {now : UInt64} {run : Run} {s : Userdata} {f : Fault}
    (h : run.exec now s = .error f) : f = .undefinedBehavior ∨ f = .noReturn := by
  induction run generalizing s with
  | call call k ih =>
    rw [Run.exec] at h
    split at h
    · rename_i hcall
      cases h
      exact Or.inl (apply_error hcall)
    · exact ih _ h
  | raise error => cases h
  | finish globals => cases h
  | noReturn =>
    cases h
    exact Or.inr rfl

/-- No exception comes out of loading code. -/
theorem loadLuaCode_error {interpreter : Interpreter} {memoryCeiling : UInt32} {now : UInt64}
    {code : Bytes} {f : Fault}
    (h : loadLuaCode interpreter memoryCeiling now code = .error f) :
    f = .undefinedBehavior ∨ f = .noReturn := by
  unfold loadLuaCode at h
  split at h
  · rename_i hexec
    cases h
    exact exec_error hexec
  · split at h
    · cases h
      exact Or.inl rfl
    · cases h
  · split at h
    · cases h
      exact Or.inr rfl
    · cases h
    · cases h

end LuaState

end Zippylog
