import Zippylog.EnvelopeFilters

/-!
# The Lua stack

`lua.cpp`, as far as values are pushed on the stack of a state and popped from it: loading code and
files, the filter of a subscription, and the load string of a loader.

- Lua is any: what running a chunk or calling a function comes to, when it comes back, is a
  `Lua.Outcome`. A global is read without an error: that one ends the process.
- The stack has its top first. The value at the index `-i` is `OpenLua.index i`.
- Values are popped by number, as the code counts them: what is left behind is what was pushed and
  not counted.
- An envelope on the stack is a userdata with a pointer, which is `NULL` behind `__gc`.
-/

universe u

namespace Zippylog

open Wire

namespace Lua

/-- A value on the stack. A number converts to an integer; what is behind an envelope is `NULL`
after `__gc`. -/
inductive StackValue where
  | nil
  | boolean (b : Bool)
  | number (text : Bytes) (integer : Int64)
  | string (s : Bytes)
  | function
  | thread
  | table (field : Bytes → StackValue)
  | lightUserdata (null : Bool)
  /-- one that is no envelope, with a metatable or without -/
  | userdata (metatable : Bool)
  | envelope (e : Option Envelope)

/-- Which metatable a value has. -/
inductive Metatable where
  | envelope
  | other
  deriving DecidableEq

namespace StackValue

/-- `lua_isnil`. -/
def isNil : StackValue → Bool
  | nil => true
  | _ => false

/-- `lua_isboolean`, with `lua_toboolean`. -/
def toBoolean? : StackValue → Option Bool
  | boolean b => some b
  | _ => none

/-- `lua_isfunction`. -/
def isFunction : StackValue → Bool
  | function => true
  | _ => false

/-- `lua_isstring`, with `lua_tolstring`: a number is converted. -/
def toString? : StackValue → Option Bytes
  | number text _ => some text
  | string s => some s
  | _ => none

/-- `lua_istable`: the fields. -/
def toTable? : StackValue → Option (Bytes → StackValue)
  | table field => some field
  | _ => none

/-- `lua_touserdata` is not `NULL`. -/
def isUserdata : StackValue → Bool
  | lightUserdata null => !null
  | userdata _ => true
  | envelope _ => true
  | _ => false

/-- `lua_getmetatable`. -/
def getMetatable : StackValue → Option Metatable
  | userdata true => some .other
  | envelope _ => some .envelope
  | _ => none

/-- The envelope behind a userdata. -/
def envelope? : StackValue → Option Envelope
  | envelope e => e
  | _ => none

/-- A metatable on the stack: it is compared, and popped. -/
def metatable : StackValue := table fun _ => nil

end StackValue

/-- What running a chunk or calling a function comes to. -/
inductive Outcome where
  | error (value : StackValue)
  | returned (values : List StackValue)

/-- Lua, with `γ` for what is in a state besides the stack. -/
structure Api (γ : Type u) where
  /-- `luaL_dostring` -/
  doString : γ → Bytes → Outcome × γ
  /-- `luaL_dofile` -/
  doFile : γ → Bytes → Outcome × γ
  /-- `luaopen_string` -/
  openString : γ → γ
  /-- a function is called with arguments -/
  call : γ → StackValue → List StackValue → Outcome × γ
  /-- `lua_getglobal` -/
  global : γ → Bytes → StackValue
  /-- the integer that a string converts to -/
  toInteger : Bytes → Option Int64

namespace Api

variable {γ : Type u} (api : Api γ)

/-- `lua_isnumber`, with `lua_tointeger`. -/
def toInteger? : StackValue → Option Int64
  | .number _ integer => some integer
  | .string s => api.toInteger s
  | _ => none

def isNumber (value : StackValue) : Bool := (api.toInteger? value).isSome

end Api

end Lua

open Lua

/-- A `LuaState`: what is in it, its stack, and what `DetermineCapabilities` sets. -/
structure OpenLua (γ : Type u) where
  lua : γ
  stack : List StackValue := []
  capabilities : LuaState := {}

namespace OpenLua

variable {γ : Type u} (api : Api γ)

/-- `lua_gettop`. -/
def getTop (s : OpenLua γ) : Nat := s.stack.length

/-- The value at `-i`. -/
def index (s : OpenLua γ) (i : Nat) : StackValue := (s.stack[i - 1]?).getD .nil

def push (s : OpenLua γ) (value : StackValue) : OpenLua γ :=
  { s with stack := value :: s.stack }

/-- What a call leaves: the values in order. -/
def pushAll (s : OpenLua γ) (values : List StackValue) : OpenLua γ :=
  { s with stack := values.reverse ++ s.stack }

/-- `lua_pop`. -/
def pop (s : OpenLua γ) (n : Nat) : OpenLua γ := { s with stack := s.stack.drop n }

/-- `lua_getglobal`. -/
def pushGlobal (s : OpenLua γ) (name : Bytes) : OpenLua γ := s.push (api.global s.lua name)

/-- `lua_pcall`, of the function below `nargs` arguments: 0 or not. `none` is `LUA_MULTRET`,
otherwise the results are adjusted. -/
def pcall (s : OpenLua γ) (nargs : Nat) (nresults : Option Nat) : Bool × OpenLua γ :=
  let (outcome, lua) := api.call s.lua (s.index (nargs + 1)) (s.stack.take nargs).reverse
  let s := { s with lua, stack := s.stack.drop (nargs + 1) }
  match outcome with
  | .error value => (false, s.push value)
  | .returned values =>
    match nresults with
    | none => (true, s.pushAll values)
    | some n => (true, s.pushAll ((values ++ List.replicate n StackValue.nil).take n))

/-- What `luaL_dostring` and `luaL_dofile` leave: all values that the chunk returns, or the
error. -/
def pushOutcome (s : OpenLua γ) : Outcome × γ → Bool × OpenLua γ
  | (.error value, lua) => (false, { s with lua }.push value)
  | (.returned values, lua) => (true, { s with lua }.pushAll values)

/-- `DetermineCapabilities`. -/
def determineCapabilities (s : OpenLua γ) : Bool × OpenLua γ :=
  let s := s.pushGlobal api (str "zippylog_load_string")
  let s := { s with capabilities.haveLoadString := (s.index 1).isFunction }
  let s := s.pop 1
  let s := s.pushGlobal api (str "zippylog_subscription_filter_envelope")
  let s := { s with capabilities.haveSubscriptionEnvelopeFilter := (s.index 1).isFunction }
  let s := s.pop 1
  let s := s.pushGlobal api (str "zippylog_subscription_timer_interval")
  let s := s.pushGlobal api (str "zippylog_subscription_timer_signaled")
  let timer := api.isNumber (s.index 2) && (s.index 1).isFunction
  let s := { s with capabilities.haveSubscriptionTimer := timer }
  if !timer && (api.isNumber (s.index 2) || (s.index 1).isFunction) then (false, s.pop 2)
  else (true, s.pop 2)

/-- `LoadLuaCode`: the result, with the error. That one is assigned from a `const char *`. -/
def loadLuaCode (s : OpenLua γ) (code : Bytes) :
    Except Fault ((Bool × Bytes) × OpenLua γ) :=
  match s.pushOutcome (api.doString s.lua (LuaState.cString code)) with
  | (false, s) =>
    match (s.index 1).toString? with
    | none => .error .undefinedBehavior
    | some error => .ok ((false, LuaState.cString error), s.pop 1)
  | (true, s) =>
    let (loaded, s) := s.determineCapabilities api
    .ok ((loaded, []), s)

/-- `LoadFile`. The error stays on the stack. -/
def loadFile (s : OpenLua γ) (filename : Bytes) : Except Fault ((Bool × Bytes) × OpenLua γ) :=
  match s.pushOutcome (api.doFile s.lua (LuaState.cString filename)) with
  | (false, s) =>
    match (s.index 1).toString? with
    | none => .error .undefinedBehavior
    | some error => .ok ((false, LuaState.cString error), s)
  | (true, s) =>
    let (loaded, s) := s.determineCapabilities api
    .ok ((loaded, []), s)

/-- `LoadStringLibrary`: the library is pushed as a table. -/
def loadStringLibrary (s : OpenLua γ) : Bool × OpenLua γ :=
  let s := { s with lua := api.openString s.lua }.push (.table fun _ => .function)
  (true, s.pop 1)

/-- `PushEnvelope`: the metatable is pushed too, and set. -/
def pushEnvelope (s : OpenLua γ) (e : Envelope) : OpenLua γ :=
  let s := s.push (.userdata false)
  let s := s.push .metatable
  (s.pop 2).push (.envelope (some e))

/-- `ExecuteSubscriptionEnvelopeFilter`: `none` is the result false. What it throws is a
pointer. -/
def executeSubscriptionEnvelopeFilter (s : OpenLua γ) (e : Envelope) (path : Bytes) :
    Except Exn (Option EnvelopeFilterResult) × OpenLua γ :=
  if !s.capabilities.haveSubscriptionEnvelopeFilter then (.ok none, s)
  else match Store.parsePath path with
    | none => (.error (.generic "unable to parse path. this should never happen"), s)
    | some (bucket, streamSet, stream) =>
      let s := s.pushGlobal api (str "zippylog_subscription_filter_envelope")
      let s := s.pushEnvelope e
      let s := s.push (.string bucket)
      let s := s.push (.string streamSet)
      let s := s.push (.string stream)
      match s.pcall api 4 (some 1) with
      | (false, s) =>
        let luaError := (s.index 1).toString?.getD []
        (.ok (some { executionSuccess := false, luaError }), s.pop 1)
      | (true, s) =>
        match (s.index 1).toBoolean? with
        | none => (.ok (some { executionSuccess := true, returnType := .other }), s.pop 1)
        | some b =>
          let returnType := if b then FilterReturnType.boolTrue else .boolFalse
          (.ok (some { executionSuccess := true, returnType }), s.pop 1)

/-- `GetGlobal` of an integer. -/
def getGlobalInteger (s : OpenLua γ) (name : Bytes) : Option Int64 × OpenLua γ :=
  let s := s.pushGlobal api (LuaState.cString name)
  (api.toInteger? (s.index 1), s.pop 1)

/-- `GetGlobal` of a string. -/
def getGlobalString (s : OpenLua γ) (name : Bytes) : Option Bytes × OpenLua γ :=
  let s := s.pushGlobal api (LuaState.cString name)
  ((s.index 1).toString?, s.pop 1)

/-! ## Pushes and pops -/

section Stack

variable {s : OpenLua γ} {value : StackValue} {values : List StackValue}

@[simp] theorem stack_push : (s.push value).stack = value :: s.stack := rfl

@[simp] theorem stack_pushAll : (s.pushAll values).stack = values.reverse ++ s.stack := rfl

@[simp] theorem index_push : (s.push value).index 1 = value := rfl

@[simp] theorem pop_push : (s.push value).pop 1 = s := rfl

/-- The value at `-i` is the first of the `i` on top. -/
theorem index_of_stack_eq {below : List StackValue}
    (h : s.stack = (value :: values).reverse ++ below) : s.index (values.length + 1) = value := by
  rw [index, h, List.reverse_cons, List.append_assoc, Nat.add_sub_cancel,
    List.getElem?_append_right (by rw [List.length_reverse]), List.length_reverse, Nat.sub_self]
  rfl

/-- **A protected call** takes the function and its arguments from the stack, and leaves the
error or what is returned. -/
theorem pcall_eq {t : OpenLua γ} {args : List StackValue} (nargs : Nat) (nresults : Option Nat)
    (h : t = { s with stack := (value :: args).reverse ++ s.stack }) (hargs : args.length = nargs) :
    t.pcall api nargs nresults =
      let s' : OpenLua γ := { s with lua := (api.call s.lua value args).2 }
      match (api.call s.lua value args).1 with
      | .error error => (false, s'.push error)
      | .returned values =>
        match nresults with
        | none => (true, s'.pushAll values)
        | some n =>
          (true, s'.pushAll ((values ++ List.replicate n StackValue.nil).take n)) := by
  subst h hargs
  have htake : ((value :: args).reverse ++ s.stack).take args.length = args.reverse := by
    rw [List.reverse_cons, List.append_assoc]
    exact List.take_left' List.length_reverse
  have hdrop : ((value :: args).reverse ++ s.stack).drop (args.length + 1) = s.stack :=
    List.drop_left' (List.length_reverse.trans List.length_cons)
  rw [pcall, index_of_stack_eq rfl, htake, hdrop, List.reverse_reverse]

/-- One value comes back from a call with one result, whatever is returned. -/
theorem pcall_one {t : OpenLua γ} {args : List StackValue} (nargs : Nat)
    (h : t = { s with stack := (value :: args).reverse ++ s.stack }) (hargs : args.length = nargs) :
    t.pcall api nargs (some 1) =
      let s' : OpenLua γ := { s with lua := (api.call s.lua value args).2 }
      match (api.call s.lua value args).1 with
      | .error error => (false, s'.push error)
      | .returned values => (true, s'.push (values.headD .nil)) := by
  rw [pcall_eq api nargs (some 1) h hargs]
  cases (api.call s.lua value args).1 with
  | error error => rfl
  | returned values => cases values <;> rfl

end Stack

/-! ## What is left on the stack -/

section Functions

variable {s : OpenLua γ}

/-- `DetermineCapabilities` leaves the stack as it is. -/
@[simp] theorem stack_determineCapabilities : (s.determineCapabilities api).2.stack = s.stack := by
  unfold determineCapabilities
  dsimp only
  split <;> rfl

@[simp] theorem stack_loadStringLibrary : (s.loadStringLibrary api).2.stack = s.stack := rfl

@[simp] theorem stack_getGlobalInteger (name : Bytes) :
    (s.getGlobalInteger api name).2.stack = s.stack := rfl

@[simp] theorem stack_getGlobalString (name : Bytes) :
    (s.getGlobalString api name).2.stack = s.stack := rfl

/-- What calling the filter of a state gives. -/
def filterCall (s : OpenLua γ) : EnvelopeFilter := fun e bucket streamSet stream =>
  match (api.call s.lua (api.global s.lua (str "zippylog_subscription_filter_envelope"))
    [.envelope (some e), .string bucket, .string streamSet, .string stream]).1 with
  | .error value => .error (value.toString?.getD [])
  | .returned values =>
    match (values.headD .nil).toBoolean? with
    | none => .other
    | some b => .boolean b

/-- **A filter over the stack**: the result is that of the filter as a function, and the stack is
left as it is. -/
theorem executeSubscriptionEnvelopeFilter_eq (e : Envelope) (path : Bytes) :
    ∃ lua, s.executeSubscriptionEnvelopeFilter api e path =
      (LoadedLua.executeSubscriptionEnvelopeFilter ⟨s.capabilities, s.filterCall api⟩ e path,
        { s with lua }) := by
  unfold executeSubscriptionEnvelopeFilter LoadedLua.executeSubscriptionEnvelopeFilter
  split
  · exact ⟨s.lua, rfl⟩
  · cases Store.parsePath path with
    | none => exact ⟨s.lua, rfl⟩
    | some names =>
      obtain ⟨bucket, streamSet, stream⟩ := names
      dsimp only [filterCall]
      generalize hf : api.global s.lua (str "zippylog_subscription_filter_envelope") = f
      generalize hargs : [StackValue.envelope (some e), .string bucket, .string streamSet,
        .string stream] = args
      have hstack : ((((s.pushGlobal api (str "zippylog_subscription_filter_envelope")).pushEnvelope
          e).push (.string bucket)).push (.string streamSet)).push (.string stream) =
            { s with stack := (f :: args).reverse ++ s.stack } := by
        rw [← hf, ← hargs]
        rfl
      rw [pcall_one api 4 hstack (by rw [← hargs]; rfl)]
      rcases api.call s.lua f args with ⟨value | values, lua⟩
      · exact ⟨lua, rfl⟩
      · refine ⟨lua, ?_⟩
        dsimp only
        rw [index_push, pop_push]
        cases (values.headD .nil).toBoolean? <;> rfl

@[simp] theorem stack_executeSubscriptionEnvelopeFilter (e : Envelope) (path : Bytes) :
    (s.executeSubscriptionEnvelopeFilter api e path).2.stack = s.stack := by
  obtain ⟨lua, h⟩ := executeSubscriptionEnvelopeFilter_eq api (s := s) e path
  rw [h]

end Functions

end OpenLua

namespace Lua

/-- A state with a `zippylog_load_string` that returns the same values for every string. Chunks
return nothing, and there are no files. -/
def returning (values : List StackValue) : Api Unit where
  doString _ _ := (.returned [], ())
  doFile _ filename := (.error (.string (str "cannot open " ++ filename)), ())
  openString _ := ()
  call _ _ _ := (.returned values, ())
  global _ name := if name = str "zippylog_load_string" then .function else .nil
  toInteger _ := none

end Lua

end Zippylog
