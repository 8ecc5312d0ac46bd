import Zippylog.LuaStack

/-!
# Load strings

`ExecuteLoadString`: a function of Lua is called with a string, and what it returns is
classified: nothing, a boolean, strings or envelopes, or something invalid, with a table in front
that names a bucket and a set, or without. The comment in the source lists what means what.

- `executeLoadString_returned`: the values are read where they are on the stack, which is the
  same as going through the list of them, and the stack is left as it was;
- `classifies_iff`: every list is classified as the comment in the source has it, until an
  envelope is copied that was destroyed with `__gc`.
- Messages are never returned, and there is no list of them.
- A result keeps what it had from before; the one that is asked about is new.
-/

universe u

namespace Zippylog

open Wire Lua

/-- `LoadStringResult::ReturnType`. -/
inductive LoadStringReturnType where
  | nil
  | boolTrue
  | boolFalse
  | string
  | message
  | envelope
  | invalid
  deriving DecidableEq

/-- `LoadStringResult`. The return type is not initialized. -/
structure LoadStringResult where
  executionSuccess : Bool := false
  hasBucket : Bool := false
  hasSet : Bool := false
  luaError : Bytes := []
  returnType : Option LoadStringReturnType := none
  bucket : Bytes := []
  set : Bytes := []
  strings : List Bytes := []
  envelopes : List Envelope := []

namespace LoadStringResult

def ofType (result : LoadStringResult) (type : LoadStringReturnType) : LoadStringResult :=
  { result with returnType := some type }

/-- The field `bucket` of a table, where it is a string. -/
def withBucket (result : LoadStringResult) : Option Bytes → LoadStringResult
  | some bucket => { result with hasBucket := true, bucket }
  | none => result

/-- The field `set` of a table, where it is a string. -/
def withSet (result : LoadStringResult) : Option Bytes → LoadStringResult
  | some set => { result with hasSet := true, set }
  | none => result

def addString (result : LoadStringResult) (s : Bytes) : LoadStringResult :=
  { result with returnType := some .string, strings := result.strings ++ [s] }

def addEnvelope (result : LoadStringResult) (e : Envelope) : LoadStringResult :=
  { result with returnType := some .envelope, envelopes := result.envelopes ++ [e] }

end LoadStringResult

namespace OpenLua

variable {γ : Type u} (api : Api γ)

/-- The loop over the values from `-i` on: `gotType` is whether there was a value before. An
envelope is copied, also if it is `NULL`. -/
def loadStringValues (valueResults : Nat) :
    Nat → Bool → LoadStringResult → OpenLua γ → Except Fault (LoadStringResult × OpenLua γ)
  | 0, _, result, s => .ok (result, s)
  | i + 1, gotType, result, s =>
    let value := s.index (i + 1)
    match value.toBoolean? with
    | some b =>
      if valueResults > 1 then .ok (result.ofType .invalid, s)
      else
        loadStringValues valueResults i true (result.ofType (if b then .boolTrue else .boolFalse)) s
    | none =>
      match value.toString? with
      | some text =>
        if gotType ∧ result.returnType ≠ some .string then .ok (result.ofType .invalid, s)
        else loadStringValues valueResults i true (result.addString text) s
      | none =>
        if !value.isUserdata then .ok (result.ofType .invalid, s)
        else match value.getMetatable with
          | none => .ok (result.ofType .invalid, s)
          | some metatable =>
            let s := s.push .metatable
            let s := s.push .metatable
            if metatable = .envelope then
              let s := s.pop 2
              if gotType ∧ result.returnType ≠ some .envelope then .ok (result.ofType .invalid, s)
              else match value.envelope? with
                | none => .error .undefinedBehavior
                | some e => loadStringValues valueResults i true (result.addEnvelope e) s
            else .ok (result.ofType .invalid, s.pop 2)

/-- What follows the call: a nil, a table in front, the loop, and
`LOAD_STRING_POP_AND_RETURN`. -/
def loadStringResults (nresults : Nat) (result : LoadStringResult) (s : OpenLua γ) :
    Except Fault (LoadStringResult × OpenLua γ) :=
  if nresults < 1 then .ok (result.ofType .invalid, s)
  else if nresults = 1 ∧ (s.index 1).isNil then .ok (result.ofType .nil, s.pop nresults)
  else match (s.index nresults).toTable? with
    | none =>
      match loadStringValues nresults nresults false result s with
      | .error fault => .error fault
      | .ok (result, s) => .ok (result, s.pop nresults)
    | some field =>
      if nresults - 1 < 1 then .ok (result.ofType .invalid, s.pop nresults)
      else
        let s := s.push (field (str "bucket"))
        let result := result.withBucket (s.index 1).toString?
        let s := s.pop 1
        let s := s.push (field (str "set"))
        let result := result.withSet (s.index 1).toString?
        let s := s.pop 1
        match loadStringValues (nresults - 1) (nresults - 1) false result s with
        | .error fault => .error fault
        | .ok (result, s) => .ok (result, s.pop nresults)

/-- `ExecuteLoadString`: whether Lua was executed, and the result. -/
def executeLoadString (s : OpenLua γ) (text : Bytes) (result : LoadStringResult) :
    Except Fault ((Bool × LoadStringResult) × OpenLua γ) :=
  if !s.capabilities.haveLoadString then .ok ((false, result), s)
  else
    let stackSize := s.getTop
    let s := s.pushGlobal api (str "zippylog_load_string")
    let s := s.push (.string text)
    match s.pcall api 1 none with
    | (false, s) =>
      let luaError := (s.index 1).toString?.getD []
      .ok ((true, { result with executionSuccess := false, luaError }), s.pop 1)
    | (true, s) =>
      match loadStringResults (s.getTop - stackSize) { result with executionSuccess := true } s with
      | .error fault => .error fault
      | .ok (result, s) => .ok ((true, result), s)

end OpenLua

/-! ## The list of values -/

namespace LoadStringResult

/-- The loop over a list. -/
def addValues (valueResults : Nat) :
    List StackValue → Bool → LoadStringResult → Except Fault LoadStringResult
  | [], _, result => .ok result
  | value :: values, gotType, result =>
    match value with
    | .boolean b =>
      if valueResults > 1 then .ok (result.ofType .invalid)
      else addValues valueResults values true (result.ofType (if b then .boolTrue else .boolFalse))
    | .envelope e =>
      if gotType ∧ result.returnType ≠ some .envelope then .ok (result.ofType .invalid)
      else match e with
        | none => .error .undefinedBehavior
        | some e => addValues valueResults values true (result.addEnvelope e)
    | value =>
      match value.toString? with
      | none => .ok (result.ofType .invalid)
      | some text =>
        if gotType ∧ result.returnType ≠ some .string then .ok (result.ofType .invalid)
        else addValues valueResults values true (result.addString text)

/-- The whole list, with a nil or a table in front. -/
def ofValues (result : LoadStringResult) : List StackValue → Except Fault LoadStringResult
  | [] => .ok (result.ofType .invalid)
  | value :: values =>
    if values.length = 0 ∧ value.isNil then .ok (result.ofType .nil)
    else match value.toTable? with
      | none => addValues (values.length + 1) (value :: values) false result
      | some field =>
        if values.length < 1 then .ok (result.ofType .invalid)
        else
          let result := result.withBucket (field (str "bucket")).toString?
          addValues values.length values false (result.withSet (field (str "set")).toString?)

/-! ### What the values are to be classified as -/

/-- The values behind the table. -/
def behindTable : List StackValue → List StackValue
  | .table _ :: values => values
  | values => values

/-- The bucket and the stream set of the table. -/
def ofTable : List StackValue → LoadStringResult
  | .table field :: _ =>
    (({ executionSuccess := true } : LoadStringResult).withBucket
      (field (str "bucket")).toString?).withSet (field (str "set")).toString?
  | _ => { executionSuccess := true }

/-- A boolean, strings or envelopes; `none` is `INVALID`. -/
def expectedOf (result : LoadStringResult) : List StackValue → Option LoadStringResult
  | [] => none
  | [.boolean b] => some (result.ofType (if b then .boolTrue else .boolFalse))
  | values =>
    if values.all fun value => value.toString?.isSome then
      some { result.ofType .string with strings := values.filterMap StackValue.toString? }
    else if values.all fun value => value.envelope?.isSome then
      some { result.ofType .envelope with envelopes := values.filterMap StackValue.envelope? }
    else none

/-- The result for what is returned. -/
def expected : List StackValue → Option LoadStringResult
  | [.nil] => some (({ executionSuccess := true } : LoadStringResult).ofType .nil)
  | values => expectedOf (ofTable values) (behindTable values)

/-- A result is the one expected. In an invalid one only the type counts. -/
def Classifies (expected : Option LoadStringResult) (result : LoadStringResult) : Prop :=
  match expected with
  | some r => result = r
  | none => result.executionSuccess = true ∧ result.returnType = some .invalid

/-- The first value that is no live envelope is one that was destroyed. -/
def reachesFreed : List StackValue → Bool
  | .envelope none :: _ => true
  | .envelope (some _) :: values => reachesFreed values
  | _ => false

/-! ### Classification -/

section Classification

variable {n : Nat} {result : LoadStringResult}

/-- Behind a string, a value that is none is refused. -/
theorem addValues_behind_string {value : StackValue} (values : List StackValue) (hn : 1 < n)
    (htype : result.returnType = some .string) (hvalue : value.toString? = none) :
    addValues n (value :: values) true result = .ok (result.ofType .invalid) := by
  cases value with
  | boolean b => exact if_pos hn
  | number text integer => cases hvalue
  | string text => cases hvalue
  | envelope e =>
    refine if_pos ⟨rfl, ?_⟩
    rw [htype]
    decide
  | _ => rfl

/-- Behind an envelope, a value that is none is refused. -/
theorem addValues_behind_envelope {value : StackValue} (values : List StackValue) (hn : 1 < n)
    (htype : result.returnType = some .envelope) (hvalue : value.getMetatable ≠ some .envelope) :
    addValues n (value :: values) true result = .ok (result.ofType .invalid) := by
  have hstring : result.returnType ≠ some .string := by
    rw [htype]
    decide
  cases value with
  | boolean b => exact if_pos hn
  | number text integer => exact if_pos ⟨rfl, hstring⟩
  | string text => exact if_pos ⟨rfl, hstring⟩
  | envelope e => exact absurd rfl hvalue
  | _ => rfl

/-- A string is added, first or behind a string. -/
theorem addValues_string {value : StackValue} (values : List StackValue) {gotType : Bool}
    {text : Bytes} (hvalue : value.toString? = some text)
    (htype : gotType = true → result.returnType = some .string) :
    addValues n (value :: values) gotType result =
      addValues n values true (result.addString text) := by
  have hmixed : ¬ (gotType = true ∧ result.returnType ≠ some .string) :=
    fun ⟨hgot, hne⟩ => hne (htype hgot)
  cases value with
  | number text' integer =>
    cases hvalue
    exact if_neg hmixed
  | string text' =>
    cases hvalue
    exact if_neg hmixed
  | _ => cases hvalue

/-- An envelope is added, first or behind an envelope. -/
theorem addValues_envelope (e : Envelope) (values : List StackValue) {gotType : Bool}
    (htype : gotType = true → result.returnType = some .envelope) :
    addValues n (.envelope (some e) :: values) gotType result =
      addValues n values true (result.addEnvelope e) :=
  if_neg fun ⟨hgot, hne⟩ => hne (htype hgot)

/-- The values behind a string. -/
theorem addValues_strings (values : List StackValue) :
    ∀ {result : LoadStringResult}, result.executionSuccess = true →
      result.returnType = some .string → (values ≠ [] → 1 < n) →
      ∃ r, addValues n values true result = .ok r ∧
        Classifies (if values.all fun value => value.toString?.isSome then
          some { result with strings := result.strings ++ values.filterMap StackValue.toString? }
          else none) r := by
  induction values with
  | nil =>
    intro result _ _ _
    refine ⟨result, rfl, ?_⟩
    rw [List.all_nil, if_pos rfl, List.filterMap_nil, List.append_nil]
    rfl
  | cons value values ih =>
    intro result hsuccess htype hn
    rw [List.all_cons, List.filterMap_cons]
    cases hvalue : value.toString? with
    | none =>
      exact ⟨_, addValues_behind_string values (hn (List.cons_ne_nil _ _)) htype hvalue,
        hsuccess, rfl⟩
    | some text =>
      obtain ⟨r, hr, hclass⟩ := @ih (result.addString text) hsuccess rfl
        fun _ => hn (List.cons_ne_nil _ _)
      refine ⟨r, (addValues_string values hvalue fun _ => htype).trans hr, ?_⟩
      dsimp only [addString] at hclass
      rw [List.append_assoc, ← htype] at hclass
      rw [Option.isSome_some, Bool.true_and]
      exact hclass

/-- The values behind an envelope. -/
theorem addValues_envelopes (values : List StackValue) :
    ∀ {result : LoadStringResult}, result.executionSuccess = true →
      result.returnType = some .envelope → (values ≠ [] → 1 < n) → reachesFreed values = false →
      ∃ r, addValues n values true result = .ok r ∧
        Classifies (if values.all fun value => value.envelope?.isSome then
          some
            { result with envelopes := result.envelopes ++ values.filterMap StackValue.envelope? }
          else none) r := by
  induction values with
  | nil =>
    intro result _ _ _ _
    refine ⟨result, rfl, ?_⟩
    rw [List.all_nil, if_pos rfl, List.filterMap_nil, List.append_nil]
    rfl
  | cons value values ih =>
    intro result hsuccess htype hn hfreed
    have hlong := hn (List.cons_ne_nil _ _)
    rw [List.all_cons, List.filterMap_cons]
    by_cases hvalue : value.getMetatable = some .envelope
    · obtain ⟨e, rfl⟩ : ∃ e, value = .envelope e := by
        cases value with
        | envelope e => exact ⟨e, rfl⟩
        | userdata metatable => cases metatable <;> cases hvalue
        | _ => cases hvalue
      cases e with
      | none => cases hfreed
      | some e =>
        obtain ⟨r, hr, hclass⟩ := @ih (result.addEnvelope e) hsuccess rfl (fun _ => hlong) hfreed
        refine ⟨r, (addValues_envelope e values fun _ => htype).trans hr, ?_⟩
        dsimp only [addEnvelope] at hclass
        rw [List.append_assoc, ← htype] at hclass
        exact hclass
    · refine ⟨_, addValues_behind_envelope values hlong htype hvalue, ?_⟩
      have hnone : value.envelope? = none := by
        cases value with
        | envelope e => exact absurd rfl hvalue
        | _ => rfl
      rw [hnone]
      exact ⟨hsuccess, rfl⟩

/-- A string in front makes a list of strings, and any other type in it makes the list invalid. -/
theorem expectedOf_string {value : StackValue} {text : Bytes} (values : List StackValue)
    (hvalue : value.toString? = some text) :
    expectedOf result (value :: values) =
      if values.all fun value => value.toString?.isSome then
        some
          { result.ofType .string with strings := text :: values.filterMap StackValue.toString? }
      else none := by
  have hall : expectedOf result (value :: values) =
      if (value :: values).all fun value => value.toString?.isSome then
        some
          { result.ofType .string with
            strings := (value :: values).filterMap StackValue.toString? }
      else none := by
    cases value with
    | number text integer => rfl
    | string text => rfl
    | _ => cases hvalue
  rw [hall, List.all_cons, List.filterMap_cons, hvalue, Option.isSome_some, Bool.true_and]

theorem expectedOf_envelope (e : Envelope) (values : List StackValue) :
    expectedOf result (.envelope (some e) :: values) =
      if values.all fun value => value.envelope?.isSome then
        some
          { result.ofType .envelope with
            envelopes := e :: values.filterMap StackValue.envelope? }
      else none := rfl

/-- **The loop classifies**: what is behind the table, unless a destroyed envelope is copied. -/
theorem addValues_classifies {values : List StackValue} (hne : values ≠ [])
    (hsuccess : result.executionSuccess = true) (hstrings : result.strings = [])
    (henvelopes : result.envelopes = []) (hfreed : reachesFreed values = false) :
    ∃ r, addValues values.length values false result = .ok r ∧
      Classifies (expectedOf result values) r := by
  cases values with
  | nil => exact absurd rfl hne
  | cons value values =>
    have hlong : values ≠ [] → 1 < (value :: values).length := by
      intro h
      have := List.length_pos_iff.mpr h
      rw [List.length_cons]
      omega
    -- the first value says what the list is to be
    by_cases hvalue : value.toString?.isSome = true
    · obtain ⟨text, htext⟩ := Option.isSome_iff_exists.mp hvalue
      obtain ⟨r, hr, hclass⟩ := @addValues_strings _ values (result.addString text) hsuccess
        rfl hlong
      refine ⟨r, (addValues_string values htext (fun h => by cases h)).trans hr, ?_⟩
      dsimp only [addString] at hclass
      rw [hstrings] at hclass
      rw [expectedOf_string values htext]
      exact hclass
    · cases value with
      | boolean b =>
        cases values with
        | nil => exact ⟨_, rfl, rfl⟩
        | cons value' values =>
          refine ⟨result.ofType .invalid, ?_, hsuccess, rfl⟩
          rw [addValues, if_pos (hlong (List.cons_ne_nil _ _))]
      | number text integer => exact absurd rfl hvalue
      | string text => exact absurd rfl hvalue
      | envelope e =>
        cases e with
        -- a destroyed envelope in front is reached
        | none => cases hfreed
        | some e =>
          obtain ⟨r, hr, hclass⟩ := @addValues_envelopes _ values (result.addEnvelope e)
            hsuccess rfl hlong hfreed
          refine ⟨r, (addValues_envelope e values (fun h => by cases h)).trans hr, ?_⟩
          dsimp only [addEnvelope] at hclass
          rw [henvelopes] at hclass
          rw [expectedOf_envelope]
          exact hclass
      | _ => exact ⟨_, rfl, hsuccess, rfl⟩

/-- A destroyed envelope is copied. -/
theorem addValues_freed (values : List StackValue) :
    ∀ {gotType : Bool} {result : LoadStringResult},
      (gotType = true → result.returnType = some .envelope) → reachesFreed values = true →
      addValues n values gotType result = .error .undefinedBehavior := by
  induction values with
  | nil => exact fun _ hfreed => by cases hfreed
  | cons value values ih =>
    intro gotType result htype hfreed
    cases value with
    | envelope e =>
      cases e with
      | none => exact if_neg fun ⟨hgot, hne⟩ => hne (htype hgot)
      | some e =>
        rw [addValues_envelope e values htype]
        exact ih (fun _ => rfl) hfreed
    | _ => cases hfreed

/-- The loop comes to an end otherwise: once there is a boolean or a string, envelopes are
refused. -/
theorem addValues_ok (values : List StackValue) :
    ∀ {gotType : Bool} {result : LoadStringResult},
      (gotType = false ∨ result.returnType = some .envelope → reachesFreed values = false) →
      ∃ r, addValues n values gotType result = .ok r := by
  induction values with
  | nil => exact fun _ => ⟨_, rfl⟩
  | cons value values ih =>
    intro gotType result hfreed
    have hstring : ∀ text, ∃ r,
        (if gotType = true ∧ result.returnType ≠ some .string then .ok (result.ofType .invalid)
          else addValues n values true (result.addString text)) = Except.ok r := by
      intro text
      split
      · exact ⟨_, rfl⟩
      · exact ih fun h => by rcases h with h | h <;> cases h
    cases value with
    | boolean b =>
      dsimp only [addValues]
      split
      · exact ⟨_, rfl⟩
      · refine ih fun h => ?_
        cases b <;> rcases h with h | h <;> cases h
    | number text integer => exact hstring text
    | string text => exact hstring text
    | envelope e =>
      dsimp only [addValues]
      split
      · exact ⟨_, rfl⟩
      · rename_i hmixed
        have hrest := hfreed (by
          cases gotType with
          | false => exact Or.inl rfl
          | true => exact Or.inr (not_not.mp fun h => hmixed ⟨rfl, h⟩))
        cases e with
        | none => cases hrest
        | some e => exact ih fun _ => hrest
    | _ => exact ⟨_, rfl⟩

/-- Only the bucket and the stream set are set. -/
theorem ofTable_fresh (field : Bytes → StackValue) (values : List StackValue) :
    (ofTable (.table field :: values)).executionSuccess = true ∧
      (ofTable (.table field :: values)).strings = [] ∧
      (ofTable (.table field :: values)).envelopes = [] := by
  dsimp only [ofTable]
  cases (field (str "bucket")).toString? <;> cases (field (str "set")).toString? <;>
    exact ⟨rfl, rfl, rfl⟩

/-- Without a table in front the whole list is classified. -/
theorem expected_of_no_table {value : StackValue} {values : List StackValue}
    (hnil : ¬ (values.length = 0 ∧ value.isNil = true)) (htable : value.toTable? = none) :
    behindTable (value :: values) = value :: values ∧
      expected (value :: values) = expectedOf { executionSuccess := true } (value :: values) := by
  cases value with
  | nil =>
    cases values with
    | nil => exact absurd ⟨rfl, rfl⟩ hnil
    | cons value values => exact ⟨rfl, rfl⟩
  | table field => cases htable
  | _ => exact ⟨rfl, rfl⟩

theorem eq_table_of_toTable? {value : StackValue} {field : Bytes → StackValue}
    (h : value.toTable? = some field) : value = .table field := by
  cases value with
  | table field' =>
    cases h
    rfl
  | _ => cases h

/-- **The list is classified**, unless a destroyed envelope is copied. -/
theorem ofValues_classifies {values : List StackValue}
    (hfreed : reachesFreed (behindTable values) = false) :
    ∃ r, ofValues { executionSuccess := true } values = .ok r ∧
      Classifies (expected values) r := by
  cases values with
  | nil => exact ⟨_, rfl, rfl, rfl⟩
  | cons value values =>
    rw [ofValues]
    by_cases hnil : values.length = 0 ∧ value.isNil = true
    · rw [if_pos hnil]
      obtain ⟨hlen, hvalue⟩ := hnil
      obtain rfl := List.eq_nil_of_length_eq_zero hlen
      cases value with
      | nil => exact ⟨_, rfl, rfl⟩
      | _ => cases hvalue
    · rw [if_neg hnil]
      cases htable : value.toTable? with
      | none =>
        obtain ⟨hbehind, hexpected⟩ := expected_of_no_table hnil htable
        rw [hexpected]
        exact addValues_classifies (List.cons_ne_nil _ _) rfl rfl rfl (hbehind ▸ hfreed)
      | some field =>
        obtain rfl := eq_table_of_toTable? htable
        dsimp only
        cases values with
        | nil => exact ⟨_, rfl, rfl, rfl⟩
        | cons value values =>
          rw [if_neg (by rw [List.length_cons]; omega)]
          obtain ⟨hsuccess, hstrings, henvelopes⟩ := ofTable_fresh field (value :: values)
          exact addValues_classifies (List.cons_ne_nil _ _) hsuccess hstrings henvelopes hfreed

/-- No list is refused with a fault otherwise, in any result. -/
theorem ofValues_ok {values : List StackValue} (hfreed : reachesFreed (behindTable values) = false) :
    ∃ r, ofValues result values = .ok r := by
  cases values with
  | nil => exact ⟨_, rfl⟩
  | cons value values =>
    rw [ofValues]
    by_cases hnil : values.length = 0 ∧ value.isNil = true
    · rw [if_pos hnil]
      exact ⟨_, rfl⟩
    · rw [if_neg hnil]
      cases htable : value.toTable? with
      | none => exact addValues_ok _ fun _ => (expected_of_no_table hnil htable).1 ▸ hfreed
      | some field =>
        obtain rfl := eq_table_of_toTable? htable
        dsimp only
        split
        · exact ⟨_, rfl⟩
        · exact addValues_ok _ fun _ => hfreed

/-- A destroyed envelope that is reached is copied, which is undefined. -/
theorem ofValues_freed {values : List StackValue}
    (hfreed : reachesFreed (behindTable values) = true) :
    ofValues result values = .error .undefinedBehavior := by
  cases values with
  | nil => cases hfreed
  | cons value values =>
    cases value with
    | table field =>
      cases values with
      | nil => cases hfreed
      | cons value values =>
        rw [ofValues, if_neg (fun h => by cases h.2)]
        dsimp only [StackValue.toTable?]
        rw [if_neg (by rw [List.length_cons]; omega)]
        exact addValues_freed _ (fun h => by cases h) hfreed
    | envelope e =>
      rw [ofValues, if_neg (fun h => by cases h.2)]
      exact addValues_freed _ (fun h => by cases h) hfreed
    | _ => cases hfreed

end Classification

end LoadStringResult

namespace OpenLua

open LoadStringResult

section Values

variable {γ : Type u} {s : OpenLua γ} {below : List StackValue}

/-- **Step lemma**: the loop reads the values from the first on, and leaves the stack. -/
theorem loadStringValues_eq (valueResults : Nat) (values : List StackValue) :
    ∀ {earlier : List StackValue} (gotType : Bool) (result : LoadStringResult),
      s.stack = values.reverse ++ earlier →
      loadStringValues valueResults values.length gotType result s =
        (addValues valueResults values gotType result).map (·, s) := by
  induction values with
  | nil => exact fun _ _ _ => rfl
  | cons value values ih =>
    intro earlier gotType result h
    have hindex := index_of_stack_eq h
    have hrest : s.stack = values.reverse ++ (value :: earlier) := by
      rw [h, List.reverse_cons, List.append_assoc]
      rfl
    rw [List.length_cons, loadStringValues, hindex]
    cases value with
    | boolean b =>
      dsimp only [StackValue.toBoolean?, addValues]
      split
      · rfl
      · exact ih true _ hrest
    | number text integer =>
      dsimp only [StackValue.toBoolean?, StackValue.toString?, addValues]
      split
      · rfl
      · exact ih true _ hrest
    | string text =>
      dsimp only [StackValue.toBoolean?, StackValue.toString?, addValues]
      split
      · rfl
      · exact ih true _ hrest
    | envelope e =>
      simp only [StackValue.toBoolean?, StackValue.toString?, StackValue.isUserdata,
        StackValue.getMetatable, StackValue.envelope?, addValues, Bool.not_true,
        Bool.false_eq_true, if_false, if_true]
      split
      · rfl
      · cases e with
        | none => rfl
        | some e => exact ih true _ hrest
    | lightUserdata null => cases null <;> rfl
    | userdata metatable => cases metatable <;> rfl
    | _ => rfl

/-- The values are read where they are, and popped. -/
theorem loadStringResults_eq (values : List StackValue) (result : LoadStringResult) :
    loadStringResults values.length result (s.pushAll values) =
      (result.ofValues values).map (·, s) := by
  have hpop : (s.pushAll values).pop values.length = s := by
    rw [pop, pushAll]
    dsimp only
    rw [List.drop_left' List.length_reverse]
  cases values with
  | nil => rfl
  | cons value values =>
    have hindex : (s.pushAll (value :: values)).index (values.length + 1) = value :=
      index_of_stack_eq rfl
    have hnil : (values.length + 1 = 1 ∧ ((s.pushAll (value :: values)).index 1).isNil = true) ↔
        values.length = 0 ∧ value.isNil = true := by
      constructor
      · rintro ⟨hlen, h⟩
        have hzero : values.length = 0 := by omega
        rw [hzero] at hindex
        exact ⟨hzero, hindex ▸ h⟩
      · rintro ⟨hlen, h⟩
        rw [hlen] at hindex
        exact ⟨by omega, hindex.symm ▸ h⟩
    rw [loadStringResults, ofValues, List.length_cons, if_neg (by omega), hindex, if_congr hnil rfl rfl]
    split
    · rw [← List.length_cons, hpop]
      rfl
    · cases value.toTable? with
      -- without a table in front all values are gone through
      | none =>
        dsimp only
        have hloop : loadStringValues (values.length + 1) (values.length + 1) false result
              (s.pushAll (value :: values)) =
            (addValues (values.length + 1) (value :: values) false result).map
              (·, s.pushAll (value :: values)) :=
          loadStringValues_eq _ (value :: values) false result rfl
        rw [hloop]
        cases addValues (values.length + 1) (value :: values) false result with
        | error fault => rfl
        | ok result => exact congrArg (fun s => Except.ok (result, s)) hpop
      -- a table in front is looked into first, and the others are gone through
      | some field =>
        dsimp only
        rw [Nat.add_sub_cancel]
        split
        · exact congrArg (fun s => Except.ok (result.ofType .invalid, s)) hpop
        · rw [index_push, pop_push, index_push, pop_push]
          have hstack : (s.pushAll (value :: values)).stack =
              values.reverse ++ (value :: s.stack) := by
            rw [stack_pushAll, List.reverse_cons, List.append_assoc]
            rfl
          rw [loadStringValues_eq _ values false _ hstack]
          cases addValues values.length values false
              ((result.withBucket (field (str "bucket")).toString?).withSet
                (field (str "set")).toString?) with
          | error fault => rfl
          | ok result => exact congrArg (fun s => Except.ok (result, s)) hpop

end Values

section Execute

variable {γ : Type u} (api : Api γ) {s : OpenLua γ}

/-- What calling the function of a state comes to. -/
def loadStringOutcome (s : OpenLua γ) (text : Bytes) : Outcome × γ :=
  api.call s.lua (api.global s.lua (str "zippylog_load_string")) [.string text]

/-- **`ExecuteLoadString`** classifies the list of what is returned, and leaves the stack as it
is. -/
theorem executeLoadString_eq (hload : s.capabilities.haveLoadString = true) (text : Bytes)
    (result : LoadStringResult) :
    s.executeLoadString api text result =
      let s' : OpenLua γ := { s with lua := (s.loadStringOutcome api text).2 }
      match (s.loadStringOutcome api text).1 with
      | .error value =>
        .ok ((true,
          { result with executionSuccess := false, luaError := value.toString?.getD [] }), s')
      | .returned values =>
        (ofValues { result with executionSuccess := true } values).map fun r => ((true, r), s') := by
  have hstack : (s.pushGlobal api (str "zippylog_load_string")).push (.string text) =
      { s with stack := [api.global s.lua (str "zippylog_load_string"), .string text].reverse ++
        s.stack } := rfl
  rw [executeLoadString, hload, Bool.not_true, if_neg Bool.false_ne_true]
  dsimp only
  rw [pcall_eq api 1 none hstack rfl]
  dsimp only [loadStringOutcome]
  rcases api.call s.lua (api.global s.lua (str "zippylog_load_string")) [.string text]
    with ⟨value | values, lua⟩
  · rfl
  · dsimp only
    have hnresults : (({ s with lua } : OpenLua γ).pushAll values).getTop - s.getTop =
        values.length := by
      rw [getTop, stack_pushAll, List.length_append, List.length_reverse]
      exact Nat.add_sub_cancel _ _
    rw [hnresults, loadStringResults_eq]
    cases ofValues { result with executionSuccess := true } values <;> rfl

/-- **Classification**: what is returned is classified as it is to be, in a new result, exactly when
no destroyed envelope is reached behind live ones. The list of values may have any length and any
types, also those that mean an error. -/
theorem classifies_iff (text : Bytes) {values : List StackValue}
    (hload : s.capabilities.haveLoadString = true)
    (hreturned : (s.loadStringOutcome api text).1 = .returned values) :
    (∃ r s', s.executeLoadString api text {} = .ok ((true, r), s') ∧
      Classifies (expected values) r) ↔ reachesFreed (behindTable values) = false := by
  rw [executeLoadString_eq api hload, hreturned]
  dsimp only
  constructor
  · rintro ⟨r, s', hok, -⟩
    by_contra hfreed
    rw [ofValues_freed (Bool.not_eq_false _ ▸ hfreed)] at hok
    cases hok
  · intro hfreed
    obtain ⟨r, hr, hclass⟩ := ofValues_classifies hfreed
    exact ⟨r, _, by rw [hr]; rfl, hclass⟩

end Execute

/-- `return "a", "b"`. -/
theorem classifies_strings :
    ∃ r s', ({ lua := (), capabilities.haveLoadString := true } : OpenLua Unit).executeLoadString
        (returning [.string (str "a"), .string (str "b")]) (str "x") {} = .ok ((true, r), s') ∧
      Classifies (expected [.string (str "a"), .string (str "b")]) r :=
  (classifies_iff _ _ rfl rfl).mpr rfl

/-- `local e = zippylog.envelope.new(); e:__gc(); return e`. -/
theorem not_classifies_destroyed :
    ¬ ∃ r s', ({ lua := (), capabilities.haveLoadString := true } : OpenLua Unit).executeLoadString
        (returning [.envelope none]) (str "x") {} = .ok ((true, r), s') ∧
      Classifies (expected [.envelope none]) r := by
  rintro ⟨r, s', hok, -⟩
  rw [executeLoadString_eq _ rfl] at hok
  cases hok

end OpenLua

end Zippylog
