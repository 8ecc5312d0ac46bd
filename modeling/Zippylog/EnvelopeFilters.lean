import Zippylog.Lua
import Zippylog.PersistedStateManagerProof

/-!
# Envelope filters

A subscription can carry Lua code that filters its envelopes. The record of a subscription has
a pointer to a Lua state for it, which `ProcessStoreChangeStreamAppended` looks at. What a filter is
for: of the envelopes that are appended below the path of a subscription, it gets those for which
its own filter returns true.

- Lua is any: what it makes of code is a function of the arguments of the filter.
- A run is a list of appends, each with the store as it is then.
- `luaStates_registerAll`: the pointer is `NULL` for every subscription, as nobody loads the code;
- `takesEffect_iff`: what is wanted is delivered where nothing is. Besides the pointer there is the
  offset, which is moved to the end of the stream before anything is read from it.
-/

namespace Zippylog

open Wire

/-! ## Lua -/

/-- What calling a filter gives: an error, a boolean or another value. -/
inductive FilterCall where
  | error (message : Bytes)
  | boolean (b : Bool)
  | other
  deriving DecidableEq

/-- `zippylog_subscription_filter_envelope`, of an envelope and the bucket, the stream set and
the stream it is in. -/
abbrev EnvelopeFilter := Envelope → Bytes → Bytes → Bytes → FilterCall

/-- `EnvelopeFilterResult::ReturnType`. -/
inductive FilterReturnType where
  | boolTrue
  | boolFalse
  | other
  deriving DecidableEq

/-- `EnvelopeFilterResult`. -/
structure EnvelopeFilterResult where
  executionSuccess : Bool := false
  returnType : FilterReturnType := .other
  luaError : Bytes := []

/-- A Lua state with code loaded: what was found in it, and its filter. -/
structure LoadedLua where
  capabilities : LuaState
  filter : EnvelopeFilter

namespace LoadedLua

/-- `HasSubscriptionEnvelopeFilter`. -/
def hasSubscriptionEnvelopeFilter (l : LoadedLua) : Bool :=
  l.capabilities.haveSubscriptionEnvelopeFilter

/-- `ExecuteSubscriptionEnvelopeFilter`; `none` is the result false. What it throws is a
pointer. -/
def executeSubscriptionEnvelopeFilter (l : LoadedLua) (e : Envelope) (path : Bytes) :
    Except Exn (Option EnvelopeFilterResult) :=
  if !l.capabilities.haveSubscriptionEnvelopeFilter then .ok none
  else match Store.parsePath path with
    | none => .error (.generic "unable to parse path. this should never happen")
    | some (bucket, streamSet, stream) =>
      match l.filter e bucket streamSet stream with
      | .error message => .ok (some { executionSuccess := false, luaError := message })
      | .other => .ok (some { executionSuccess := true, returnType := .other })
      | .boolean b =>
        .ok (some { executionSuccess := true, returnType := if b then .boolTrue else .boolFalse })

end LoadedLua

/-- `RegisterError`. -/
def EnvelopeSubscriptionResponseState.registerError (_state : EnvelopeSubscriptionResponseState)
    (_luaError : Bytes) : Except Exn EnvelopeSubscriptionResponseState :=
  .error (.generic "not yet implemented")

/-! ## The manager -/

/-- A manager with the Lua states of its subscriptions. `none` is `NULL`. -/
structure FilteringManager where
  manager : PersistedStateManager
  subscriptionLuaAllow : Bool
  luaStates : Bytes → Option LoadedLua := fun _ => none

namespace FilteringManager

open PersistedStateManager

def setLuaState (luaStates : Bytes → Option LoadedLua) (id : Bytes) (l : Option LoadedLua) :
    Bytes → Option LoadedLua :=
  fun id' => if id' = id then l else luaStates id'

/-- The constructor, where Lua is allowed. -/
def new (store : Store) (subscriptionTtl : UInt32) : FilteringManager where
  manager := PersistedStateManager.new store subscriptionTtl
  subscriptionLuaAllow := true

/-- `RegisterSubscription`: a new record has no Lua state. -/
def registerSubscription (m : FilteringManager) (now : Nat) (subscription : SubscriptionInfo) :
    Except Exn FilteringManager :=
  match m.manager.registerSubscription now subscription with
  | .error exn => .error exn
  | .ok manager =>
    .ok { m with manager, luaStates := setLuaState m.luaStates subscription.id none }

/-- The manager with the length of a stream stored. -/
def setStreamLength (m : FilteringManager) (path : Bytes) (streamLength : UInt64) :
    FilteringManager :=
  { m with manager := { m.manager with
    streamReadOffsets := setOffset m.manager.streamReadOffsets path streamLength } }

/-- Subscriptions that are registered at the given times; one that is refused is left out. -/
def registerAll (m : FilteringManager) (subscriptions : List (Nat × SubscriptionInfo)) :
    FilteringManager :=
  subscriptions.foldl (fun m s =>
    match m.registerSubscription s.1 s.2 with
    | .error _ => m
    | .ok m => m) m

section Callback

variable {σ : Type}

/-- What becomes of an envelope that was read. -/
inductive Verdict where
  | add
  /-- `continue` -/
  | skip
  /-- `break`, behind a callback -/
  | stop (state : EnvelopeSubscriptionResponseState)
  | throw (exn : Exn)

/-- An envelope is run through Lua. -/
def verdict (l : Option LoadedLua) (path : Bytes) (state : EnvelopeSubscriptionResponseState)
    (e : Envelope) : Verdict :=
  match l with
  | none => .add
  | some l =>
    if !l.hasSubscriptionEnvelopeFilter then .add
    else match l.executeSubscriptionEnvelopeFilter e path with
      | .error exn => .throw exn
      | .ok none => .throw (.generic "envelope filter not executed. very weird")
      | .ok (some result) =>
        if !result.executionSuccess then
          match state.registerError result.luaError with
          | .error exn => .throw exn
          | .ok state => .stop state
        else if result.returnType ≠ .boolTrue then .skip
        else .add

/-- The loop that reads from `offset` on, with `fuel` as in `readFrom`. -/
def readFiltered (l : Option LoadedLua) (path : Bytes) (si : SubscriptionInfo)
    (streamLength : UInt64) (cb : StreamAppendedCallback σ) :
    Nat → UInt64 → InputStream → EnvelopeSubscriptionResponseState → σ →
      Except Exn InputStream × σ
  | 0, _, is, _, data => (.ok is, data)
  | fuel + 1, offset, is, state, data =>
    if offset < streamLength then
      match is.readEnvelope with
      | (none, _, is) => (.ok is, data)
      | (some env, read, is) =>
        let offset := offset + read.toUInt64
        match verdict l path state env with
        | .throw exn => (.error exn, data)
        | .stop state => (.ok is, (cb si state data).2)
        | .skip => readFiltered l path si streamLength cb fuel offset is state data
        | .add =>
          let (state, data) := cb si (state.addEnvelope env) data
          readFiltered l path si streamLength cb fuel offset is state data
    else (.ok is, data)

/-- A stream is read for one subscription. -/
def readForSubscription (m : FilteringManager) (path : Bytes) (streamLength : UInt64)
    (cb : StreamAppendedCallback σ) (si : SubscriptionInfo) (is : InputStream) (data : σ) :
    Except Exn InputStream × σ :=
  match m.manager.streamReadOffsets path with
  | none => (.error (.generic "unknown stream encountered"), data)
  | some offset =>
    match is.setAbsoluteOffset (signedOffset offset) with
    | .error e => (.error e, data)
    | .ok is =>
      readFiltered (m.luaStates si.id) path si streamLength cb streamLength.toNat offset is
        (.ofSubscription si) data

/-- The loop over the subscriptions. -/
def readForSubscriptions (m : FilteringManager) (path : Bytes) (streamLength : UInt64)
    (cb : StreamAppendedCallback σ) :
    List PersistedStateManagerSubscriptionRecord → InputStream → σ → Except Exn Unit × σ
  | [], _, data => (.ok (), data)
  | r :: rs, is, data =>
    if !covers .envelope path r then m.readForSubscriptions path streamLength cb rs is data
    else match m.readForSubscription path streamLength cb r.si is data with
      | (.error e, data) => (.error e, data)
      | (.ok is, data) => m.readForSubscriptions path streamLength cb rs is data

/-- `ProcessStoreChangeStreamAppended`, with the filters. -/
def processStoreChangeStreamAppended (m : FilteringManager) (store : Store) (path : Bytes)
    (streamLength : UInt64) (cb : Option (StreamAppendedCallback σ)) (data : σ) :
    Except Exn Unit × FilteringManager × σ :=
  match cb with
  | none => (.error (.invalidArgument "callback not defined"), m, data)
  | some cb =>
    let m := m.setStreamLength path streamLength
    if m.manager.subscriptions.isEmpty then (.ok (), m, data)
    else match store.getInputStream path with
      | none => (.ok (), m, data)
      | some (.error e) => (.error e, m, data)
      | some (.ok is) =>
        let (result, data) :=
          m.readForSubscriptions path streamLength cb m.manager.subscriptions is data
        (result, m, data)

end Callback

/-! ## Runs -/

/-- A stream was appended to: the store, and the new length. -/
structure Append where
  path : Bytes
  length : UInt64
  store : Store

/-- The manager when the append is processed, and the calls of a callback that changes the
state. -/
def step (respond : SubscriptionInfo → EnvelopeSubscriptionResponseState →
    EnvelopeSubscriptionResponseState) (m : FilteringManager) (ev : Append) :
    FilteringManager × List AppendedCall :=
  (m.processStoreChangeStreamAppended ev.store ev.path ev.length
    (some (recordCall ev.path respond)) []).2

/-- The envelopes that reading gives from an offset up to the length of the stream. -/
def envelopesFrom (streamLength : UInt64) : Nat → UInt64 → InputStream → List Envelope
  | 0, _, _ => []
  | fuel + 1, offset, is =>
    if offset < streamLength then
      match is.readEnvelope with
      | (none, _, _) => []
      | (some env, read, is) =>
        env :: envelopesFrom streamLength fuel (offset + read.toUInt64) is
    else []

/-- The envelopes that are new with an append: from the offset that is stored, or from the
beginning, to the new length. -/
def newEnvelopes (m : FilteringManager) (ev : Append) : List Envelope :=
  match ev.store.getInputStream ev.path with
  | some (.ok is) =>
    let offset := (m.manager.streamReadOffsets ev.path).getD 0
    match is.setAbsoluteOffset (signedOffset offset) with
    | .ok is => envelopesFrom ev.length ev.length.toNat offset is
    | .error _ => []
  | _ => []

/-- What the filter of a subscription says, as its code defines it. Without one every envelope
passes. -/
def ownFilter (lua : Bytes → Option LoadedLua) (si : SubscriptionInfo) (path : Bytes)
    (e : Envelope) : FilterCall :=
  if si.luaCode.isEmpty then .boolean true
  else match lua si.luaCode, Store.parsePath path with
    | some l, some (bucket, streamSet, stream) =>
      if l.hasSubscriptionEnvelopeFilter then l.filter e bucket streamSet stream
      else .boolean true
    | _, _ => .boolean true

def FilterCall.isError : FilterCall → Bool
  | .error _ => true
  | _ => false

/-- The envelopes that a subscription is to get from an append: those that are read, which ends
with an error of its own filter, and that its own filter returns true for. -/
def wanted (lua : Bytes → Option LoadedLua) (m : FilteringManager) (ev : Append)
    (si : SubscriptionInfo) : List Envelope :=
  ((m.newEnvelopes ev).takeWhile fun e => !FilterCall.isError (ownFilter lua si ev.path e)).filter
    fun e => ownFilter lua si ev.path e = .boolean true

/-- In every step of a run each subscription to the stream gets what it is to get. -/
def TakesEffect (lua : Bytes → Option LoadedLua)
    (respond : SubscriptionInfo → EnvelopeSubscriptionResponseState →
      EnvelopeSubscriptionResponseState) : FilteringManager → List Append → Prop
  | _, [] => True
  | m, ev :: evs =>
    (∀ r ∈ m.manager.subscriptions, covers .envelope ev.path r = true →
      received (m.step respond ev).2 ev.path r.id =
        (m.wanted lua ev r.si).map Envelope.toProtocolZmqMessage) ∧
      TakesEffect lua respond (m.step respond ev).1 evs

/-- In no step of a run is a subscription to get anything. -/
def NothingWanted (lua : Bytes → Option LoadedLua) : FilteringManager → List Append → Prop
  | _, [] => True
  | m, ev :: evs =>
    (∀ r ∈ m.manager.subscriptions, covers .envelope ev.path r = true → m.wanted lua ev r.si = []) ∧
      NothingWanted lua (m.setStreamLength ev.path ev.length) evs

/-! ## No filter is there -/

section Null

variable {σ : Type} {m : FilteringManager}

/-- Without a Lua state every envelope is added, whatever code the subscription has. -/
theorem readFiltered_none (path : Bytes) (si : SubscriptionInfo) (streamLength : UInt64)
    (cb : StreamAppendedCallback σ) (fuel : Nat) :
    ∀ (offset : UInt64) (is : InputStream) (state : EnvelopeSubscriptionResponseState) (data : σ),
      readFiltered none path si streamLength cb fuel offset is state data =
        (.ok (readFrom si streamLength cb fuel offset is state data).1,
          (readFrom si streamLength cb fuel offset is state data).2) := by
  induction fuel with
  | zero => exact fun _ _ _ _ => rfl
  | succ fuel ih =>
    intro offset is state data
    rw [readFiltered, readFrom]
    by_cases h : offset < streamLength
    · rw [if_pos h, if_pos h]
      rcases is.readEnvelope with ⟨_ | env, read, is⟩
      · rfl
      · dsimp only [verdict]
        exact ih _ _ _ _
    · rw [if_neg h, if_neg h]

/-- Without a Lua state no filter is called, and reading is that of the manager. -/
theorem readForSubscription_eq (h : m.luaStates = fun _ => none) (path : Bytes)
    (streamLength : UInt64) (cb : StreamAppendedCallback σ) (si : SubscriptionInfo)
    (is : InputStream) (data : σ) :
    m.readForSubscription path streamLength cb si is data =
      m.manager.readForSubscription path streamLength cb si is data := by
  rw [readForSubscription, PersistedStateManager.readForSubscription]
  cases m.manager.streamReadOffsets path with
  | none => rfl
  | some offset =>
    dsimp only
    cases is.setAbsoluteOffset (signedOffset offset) with
    | error exn => rfl
    | ok is =>
      dsimp only
      rw [h, readFiltered_none]

/-- And so for all subscriptions to a stream. -/
theorem readForSubscriptions_eq (h : m.luaStates = fun _ => none) (path : Bytes)
    (streamLength : UInt64) (cb : StreamAppendedCallback σ)
    (rs : List PersistedStateManagerSubscriptionRecord) :
    ∀ (is : InputStream) (data : σ),
      m.readForSubscriptions path streamLength cb rs is data =
        m.manager.readForSubscriptions path streamLength cb rs is data := by
  induction rs with
  | nil => exact fun _ _ => rfl
  | cons r rs ih =>
    intro is data
    rw [readForSubscriptions, PersistedStateManager.readForSubscriptions,
      readForSubscription_eq h]
    split
    · exact ih is data
    · rcases m.manager.readForSubscription path streamLength cb r.si is data with ⟨exn | is', data'⟩
      · rfl
      · exact ih is' data'

/-- **Without Lua states** the manager is the one without filters. -/
theorem processStoreChangeStreamAppended_eq (h : m.luaStates = fun _ => none) (store : Store)
    (path : Bytes) (streamLength : UInt64) (cb : Option (StreamAppendedCallback σ)) (data : σ) :
    m.processStoreChangeStreamAppended store path streamLength cb data =
      let (result, manager, data) :=
        m.manager.processStoreChangeStreamAppended store path streamLength cb data
      (result, { m with manager }, data) := by
  cases cb with
  | none => rfl
  | some cb =>
    rw [processStoreChangeStreamAppended, PersistedStateManager.processStoreChangeStreamAppended]
    dsimp only [setStreamLength]
    by_cases hempty : m.manager.subscriptions.isEmpty = true
    · simp only [hempty, if_true]
    · simp only [hempty, Bool.false_eq_true, if_false]
      rcases store.getInputStream path with _ | exn | is
      · rfl
      · rfl
      · have hread := readForSubscriptions_eq (m := m.setStreamLength path streamLength) h path
          streamLength cb m.manager.subscriptions is data
        dsimp only [setStreamLength] at hread ⊢
        rw [hread]

end Null

theorem setLuaState_none (id : Bytes) : setLuaState (fun _ => none) id none = fun _ => none := by
  funext id'
  rw [setLuaState, ite_self]

/-- A registration leaves the pointer of its record as it is made. -/
theorem luaStates_registerAll (subscriptions : List (Nat × SubscriptionInfo)) :
    ∀ {m : FilteringManager}, m.luaStates = (fun _ => none) →
      (m.registerAll subscriptions).luaStates = fun _ => none := by
  induction subscriptions with
  | nil => exact fun h => h
  | cons s subscriptions ih =>
    intro m h
    rw [registerAll, List.foldl_cons]
    refine ih ?_
    rw [registerSubscription]
    cases m.manager.registerSubscription s.1 s.2 with
    | error exn => exact h
    | ok manager =>
      dsimp only
      rw [h, setLuaState_none]

/-! ## Nothing is delivered -/

section Run

variable {m : FilteringManager} {lua : Bytes → Option LoadedLua}
  {respond : SubscriptionInfo → EnvelopeSubscriptionResponseState →
    EnvelopeSubscriptionResponseState}

/-- **Step lemma**: the new length is stored, and no callback is called. -/
theorem step_eq (h : m.luaStates = fun _ => none) (ev : Append) :
    m.step respond ev = (m.setStreamLength ev.path ev.length, []) := by
  have happended := processStoreChangeStreamAppended_some m.manager ev.store ev.path ev.length
    (recordCall ev.path respond) []
  rw [step, processStoreChangeStreamAppended_eq h]
  exact congrArg (fun r : PersistedStateManager × List AppendedCall =>
    ({ m with manager := r.1 }, r.2)) happended

/-- By induction on the appends: nothing is delivered, so everything is as wanted where nothing is
wanted. -/
theorem takesEffect_iff_of_none (h : m.luaStates = fun _ => none) (events : List Append) :
    TakesEffect lua respond m events ↔ NothingWanted lua m events := by
  induction events generalizing m with
  | nil => exact Iff.rfl
  | cons ev events ih =>
    rw [TakesEffect, NothingWanted, step_eq h]
    dsimp only
    refine and_congr ?_ (ih h)
    refine forall_congr' fun r => forall_congr' fun _ => forall_congr' fun _ => ?_
    rw [show received [] ev.path r.id = [] from rfl, eq_comm, List.map_eq_nil_iff]

/-- **Lua filters**: every subscription gets the envelopes its own filter lets through, and no
other, in every run of appends exactly when there are none for any subscription. What they are is
said by the streams and the filters alone (`wanted`), without the manager. -/
theorem takesEffect_iff (lua : Bytes → Option LoadedLua)
    (respond : SubscriptionInfo → EnvelopeSubscriptionResponseState →
      EnvelopeSubscriptionResponseState)
    (store : Store) (subscriptionTtl : UInt32) (subscriptions : List (Nat × SubscriptionInfo))
    (events : List Append) :
    TakesEffect lua respond ((new store subscriptionTtl).registerAll subscriptions) events ↔
      NothingWanted lua ((new store subscriptionTtl).registerAll subscriptions) events :=
  takesEffect_iff_of_none (luaStates_registerAll subscriptions rfl) events

end Run

/-! ## A stream with one record -/

/-- Code with a filter that returns true. -/
def alwaysTrue : Bytes → Option LoadedLua := fun _ =>
  some ⟨{ haveSubscriptionEnvelopeFilter := true }, fun _ _ _ _ => .boolean true⟩

/-- A subscription to everything with such code. -/
def filteredSubscription : SubscriptionInfo :=
  { type := .envelope, id := str "i", paths := [str "/"], luaCode := str "f" }

/-- The envelope that is appended is not delivered. -/
theorem not_takesEffect_one :
    ¬ TakesEffect alwaysTrue (fun _ state => state)
      ((new (oneStream [1]) 60000).registerAll [(0, filteredSubscription)])
      [⟨str "/b/s/n", 4, oneStream [1, 2, 8, 1]⟩] := by
  rw [takesEffect_iff_of_none (luaStates_registerAll _ rfl)]
  intro h
  have hwanted := h.1 ((PersistedStateManager.new (oneStream [1]) 60000).newRecord 0
    filteredSubscription) (List.mem_singleton_self _) (by decide +kernel)
  have hone : (wanted alwaysTrue
      ((new (oneStream [1]) 60000).registerAll [(0, filteredSubscription)])
      ⟨str "/b/s/n", 4, oneStream [1, 2, 8, 1]⟩ filteredSubscription).length = 1 := by
    decide +kernel
  exact absurd (hone.symm.trans (congrArg List.length hwanted)) (by decide)

end FilteringManager

end Zippylog
