import Zippylog.LoadString
import Zippylog.Machine

/-!
# Calls of a Lua state

The functions of a `LuaState` in any order, as long as a subscription or a loader lives. A state is
used again and again, so what a call leaves on the stack of Lua adds up until there is no room.

- `balanced_iff`: the stack has the height it had at first all the time exactly when chunks
  return nothing, files load, and no destroyed envelope is copied.
- An exception that a filter throws leaves the state as it is.
- What a chunk, a file or a function comes to is said by the interpreter, which is any.
-/

universe u

namespace Zippylog

open Wire Lua LoadStringResult

/-- A call of a `LuaState`. -/
inductive LuaCall where
  | loadLuaCode (code : Bytes)
  | loadFile (filename : Bytes)
  | loadStringLibrary
  | executeLoadString (text : Bytes) (result : LoadStringResult)
  | executeSubscriptionEnvelopeFilter (e : Envelope) (path : Bytes)
  | getGlobalInteger (name : Bytes)
  | getGlobalString (name : Bytes)

namespace OpenLua

variable {γ : Type u} (api : Api γ)

/-- The state after a call. -/
def after (s : OpenLua γ) : LuaCall → Except Fault (OpenLua γ)
  | .loadLuaCode code => (s.loadLuaCode api code).map (·.2)
  | .loadFile filename => (s.loadFile api filename).map (·.2)
  | .loadStringLibrary => .ok (s.loadStringLibrary api).2
  | .executeLoadString text result => (s.executeLoadString api text result).map (·.2)
  | .executeSubscriptionEnvelopeFilter e path =>
    .ok (s.executeSubscriptionEnvelopeFilter api e path).2
  | .getGlobalInteger name => .ok (s.getGlobalInteger api name).2
  | .getGlobalString name => .ok (s.getGlobalString api name).2

/-- A run goes on until a call is undefined. -/
def step (s : Except Fault (OpenLua γ)) (call : LuaCall) : Except Fault (OpenLua γ) :=
  match s with
  | .error fault => .error fault
  | .ok s => s.after api call

/-- The stack has a height. -/
def HasTop (top : Nat) (s : Except Fault (OpenLua γ)) : Prop :=
  ∃ t, s = .ok t ∧ t.getTop = top

/-- What a call is to meet for the stack to stay as it is. -/
def Restores (s : OpenLua γ) : LuaCall → Prop
  | .loadLuaCode code =>
    match (api.doString s.lua (LuaState.cString code)).1 with
    | .error value => value.toString?.isSome = true
    | .returned values => values = []
  | .loadFile filename =>
    match (api.doFile s.lua (LuaState.cString filename)).1 with
    | .error _ => False
    | .returned values => values = []
  | .executeLoadString text _ =>
    match (s.loadStringOutcome api text).1 with
    | .error _ => True
    | .returned values =>
      s.capabilities.haveLoadString = true → reachesFreed (behindTable values) = false
  | _ => True

/-- The same in a run. -/
def StepRestores (s : Except Fault (OpenLua γ)) (call : LuaCall) : Prop :=
  match s with
  | .error _ => True
  | .ok s => s.Restores api call

section Calls

variable {s : OpenLua γ}

/-- The height of a state with the same stack. -/
theorem hasTop_ok {t : OpenLua γ} (h : t.stack = s.stack) : HasTop s.getTop (.ok t) :=
  ⟨t, rfl, congrArg List.length h⟩

theorem not_hasTop_error (top : Nat) (fault : Fault) :
    ¬ HasTop top (.error fault : Except Fault (OpenLua γ)) := by
  rintro ⟨t, h, -⟩
  cases h

theorem hasTop_ok_iff {t : OpenLua γ} {top : Nat} : HasTop top (.ok t) ↔ t.getTop = top := by
  constructor
  · rintro ⟨t', h, htop⟩
    cases h
    exact htop
  · exact fun h => ⟨t, rfl, h⟩

/-- All values that a chunk returns stay on the stack. -/
theorem getTop_pushAll (values : List StackValue) :
    (s.pushAll values).getTop = s.getTop ↔ values = [] := by
  rw [getTop, stack_pushAll, List.length_append, List.length_reverse, getTop,
    ← List.length_eq_zero_iff]
  omega

/-- A chunk that ran, and the capabilities behind it. -/
theorem hasTop_determineCapabilities (lua : γ) (values : List StackValue) :
    HasTop s.getTop (.ok ((({ s with lua } : OpenLua γ).pushAll values).determineCapabilities
      api).2) ↔ values = [] := by
  rw [hasTop_ok_iff, getTop, stack_determineCapabilities]
  exact getTop_pushAll (s := { s with lua }) values

/-- Code leaves what it returned, and an error that is no string its place. -/
theorem restores_loadLuaCode (code : Bytes) :
    HasTop s.getTop (s.after api (.loadLuaCode code)) ↔ s.Restores api (.loadLuaCode code) := by
  dsimp only [after, loadLuaCode, Restores]
  rcases api.doString s.lua (LuaState.cString code) with ⟨value | values, lua⟩
  · dsimp only [pushOutcome]
    rw [index_push]
    cases value.toString? with
    | none => exact iff_of_false (not_hasTop_error _ _) Bool.false_ne_true
    | some error => exact iff_of_true (hasTop_ok rfl) rfl
  · exact hasTop_determineCapabilities api lua values

/-- A file leaves what it returned, or its error. -/
theorem restores_loadFile (filename : Bytes) :
    HasTop s.getTop (s.after api (.loadFile filename)) ↔ s.Restores api (.loadFile filename) := by
  dsimp only [after, loadFile, Restores]
  rcases api.doFile s.lua (LuaState.cString filename) with ⟨value | values, lua⟩
  · refine iff_of_false ?_ id
    dsimp only [pushOutcome]
    rw [index_push]
    cases value.toString? with
    | none => exact not_hasTop_error _ _
    | some error =>
      -- the error is still there
      intro h
      have htop := hasTop_ok_iff.mp h
      rw [getTop, stack_push, List.length_cons] at htop
      exact absurd htop (Nat.succ_ne_self _)
  · exact hasTop_determineCapabilities api lua values

/-- The load string pops what it pushed, unless it copies a destroyed envelope. -/
theorem restores_executeLoadString (text : Bytes) (result : LoadStringResult) :
    HasTop s.getTop (s.after api (.executeLoadString text result)) ↔
      s.Restores api (.executeLoadString text result) := by
  dsimp only [after, Restores]
  cases hload : s.capabilities.haveLoadString with
  | false =>
    rw [executeLoadString, hload]
    refine iff_of_true (hasTop_ok rfl) ?_
    split
    · trivial
    · exact fun h => by cases h
  | true =>
    rw [executeLoadString_eq api hload]
    rcases s.loadStringOutcome api text with ⟨value | values, lua⟩
    · exact iff_of_true (hasTop_ok rfl) trivial
    · dsimp only
      cases hfreed : reachesFreed (behindTable values) with
      | true =>
        rw [ofValues_freed hfreed]
        exact iff_of_false (not_hasTop_error _ _) fun h => Bool.noConfusion (h rfl)
      | false =>
        obtain ⟨r, hr⟩ := @ofValues_ok { result with executionSuccess := true } values hfreed
        rw [hr]
        exact iff_of_true (hasTop_ok rfl) fun _ => rfl

/-- **One call** leaves the height exactly when it is to. -/
theorem hasTop_after_iff (call : LuaCall) :
    HasTop s.getTop (s.after api call) ↔ s.Restores api call := by
  cases call with
  | loadLuaCode code => exact restores_loadLuaCode api code
  | loadFile filename => exact restores_loadFile api filename
  | executeLoadString text result => exact restores_executeLoadString api text result
  | executeSubscriptionEnvelopeFilter e path =>
    exact iff_of_true (hasTop_ok (stack_executeSubscriptionEnvelopeFilter api e path)) trivial
  | loadStringLibrary => exact iff_of_true (hasTop_ok (stack_loadStringLibrary api)) trivial
  | getGlobalInteger name => exact iff_of_true (hasTop_ok (stack_getGlobalInteger api name)) trivial
  | getGlobalString name => exact iff_of_true (hasTop_ok (stack_getGlobalString api name)) trivial

end Calls

/-- **Stack discipline**: in every run of calls the stack has its first height in every state
exactly when chunks return nothing, files load, an error is a string, and no destroyed envelope is
copied. All other calls, and all other outcomes of these, leave the height as it was. -/
theorem balanced_iff (s : OpenLua γ) (calls : List LuaCall) :
    (∀ k, HasTop s.getTop ((calls.take k).foldl (step api) (.ok s))) ↔
      ∀ k call, calls[k]? = some call →
        StepRestores api ((calls.take k).foldl (step api) (.ok s)) call := by
  have hstep : ∀ {x : Except Fault (OpenLua γ)} {call : LuaCall}, HasTop s.getTop x →
      (HasTop s.getTop (step api x call) ↔ StepRestores api x call) := by
    rintro x call ⟨t, rfl, htop⟩
    rw [← htop]
    exact hasTop_after_iff api call
  exact Machine.forall_run_iff (P := HasTop s.getTop) ⟨s, rfl, rfl⟩ id
    (fun hx => (hstep hx).mpr) (fun hx => (hstep hx).mp)

/-- A file that is missing leaves the error. -/
theorem not_balanced_missing :
    ¬ ∀ k, HasTop 0 (([LuaCall.loadFile (str "x")].take k).foldl (step (returning []))
      (.ok { lua := () })) := by
  intro h
  obtain ⟨t, ht, htop⟩ := h 1
  cases ht
  cases htop

end OpenLua

end Zippylog
