import Zippylog.Platform
import Zippylog.ResponseState

/-!
# Persisted state

`persisted_state_manager.cpp`: subscriptions with the timers they expire by, the offsets up to
which streams were read, and what is done about a change of the store.

- Subscriptions are a list without two of one id. In which order a map is gone through makes no
  difference here, since nothing that is done for one of them is seen by another.
- A stream is read with the `InputStream` of a segment request, from its file as it is.
- The Lua state of a subscription is left out: it is `NULL`, and nothing sets it.
- Callbacks act on `data`. `none` is a callback that is `NULL`, and to call it is an exception of
  the code itself.
-/

namespace Zippylog

open Wire Platform

structure PersistedStateManagerSubscriptionRecord where
  si : SubscriptionInfo
  expirationTimer : Timer
  deriving DecidableEq

namespace PersistedStateManagerSubscriptionRecord

/-- The key in the map. -/
def id (r : PersistedStateManagerSubscriptionRecord) : Bytes := r.si.id

/-- The timer is started again. -/
def restart (r : PersistedStateManagerSubscriptionRecord) (now : Nat) (microseconds : UInt32) :
    PersistedStateManagerSubscriptionRecord :=
  { r with expirationTimer := r.expirationTimer.start now microseconds }

@[simp] theorem id_restart (r : PersistedStateManagerSubscriptionRecord) (now : Nat)
    (microseconds : UInt32) : (r.restart now microseconds).id = r.id := rfl

end PersistedStateManagerSubscriptionRecord

structure PersistedStateManager where
  /-- in milliseconds -/
  subscriptionTtl : UInt32
  subscriptions : List PersistedStateManagerSubscriptionRecord := []
  nodup : (subscriptions.map PersistedStateManagerSubscriptionRecord.id).Nodup
  streamReadOffsets : Bytes → Option UInt64 := fun _ => none

namespace PersistedStateManager

open PersistedStateManagerSubscriptionRecord

/-- The streams of a store with the lengths they have: `StreamPaths`, and
`StreamLength` for each. -/
def streamLengths (store : Store) : List (Bytes × UInt64) :=
  store.bucketNames.flatMap fun bucket =>
    (store.streamSetNames bucket).flatMap fun set =>
      (store.streamNames bucket set).filterMap fun stream =>
        (store.streamLength bucket set stream).map fun length =>
          (Store.streamPath bucket set stream, length)

/-- Set the offset of a path. -/
def setOffset (offsets : Bytes → Option UInt64) (path : Bytes) (offset : UInt64) :
    Bytes → Option UInt64 :=
  fun p => if p = path then some offset else offsets p

@[simp] theorem setOffset_self (offsets : Bytes → Option UInt64) (path : Bytes)
    (offset : UInt64) : setOffset offsets path offset path = some offset := by
  simp [setOffset]

theorem setOffset_of_ne {p path : Bytes} (h : p ≠ path) (offsets : Bytes → Option UInt64)
    (offset : UInt64) : setOffset offsets path offset p = offsets p := by
  simp [setOffset, h]

/-- The constructor. -/
def new (store : Store) (subscriptionTtl : UInt32) : PersistedStateManager where
  subscriptionTtl := subscriptionTtl
  subscriptions := []
  nodup := List.nodup_nil
  streamReadOffsets :=
    (streamLengths store).foldl (fun offsets s => setOffset offsets s.1 s.2) fun _ => none

/-! ## Subscriptions -/

/-- The interval of the timers. -/
def interval (m : PersistedStateManager) : UInt32 := m.subscriptionTtl * 1000

/-- `HasSubscription`. -/
def hasSubscription (m : PersistedStateManager) (id : Bytes) : Bool :=
  (m.subscriptions.map PersistedStateManagerSubscriptionRecord.id).contains id

theorem hasSubscription_iff {m : PersistedStateManager} {id : Bytes} :
    m.hasSubscription id = true ↔
      id ∈ m.subscriptions.map PersistedStateManagerSubscriptionRecord.id :=
  List.contains_iff_mem

theorem nodup_append_of_not_hasSubscription {m : PersistedStateManager}
    {r : PersistedStateManagerSubscriptionRecord} (h : m.hasSubscription r.id = false) :
    ((m.subscriptions ++ [r]).map PersistedStateManagerSubscriptionRecord.id).Nodup := by
  have hid : r.id ∉ m.subscriptions.map PersistedStateManagerSubscriptionRecord.id := by
    rw [← hasSubscription_iff, h]
    exact Bool.false_ne_true
  rw [List.map_append, List.nodup_append]
  refine ⟨m.nodup, List.nodup_singleton _, ?_⟩
  intro a ha b hb hab
  obtain rfl := List.mem_singleton.mp hb
  exact hid (hab ▸ ha)

/-- A new record, with its timer started. -/
def newRecord (m : PersistedStateManager) (now : Nat) (subscription : SubscriptionInfo) :
    PersistedStateManagerSubscriptionRecord where
  si := subscription
  expirationTimer := (Timer.new m.interval).start now m.interval

/-- `RegisterSubscription`. -/
def registerSubscription (m : PersistedStateManager) (now : Nat) (subscription : SubscriptionInfo) :
    Except Exn PersistedStateManager :=
  if subscription.id.isEmpty then
    .error (.invalidArgument "subscription must have id defined")
  else if h : m.hasSubscription subscription.id then
    .error (.generic "subscription with that ID is already registered")
  else .ok { m with
    subscriptions := m.subscriptions ++ [m.newRecord now subscription]
    nodup := nodup_append_of_not_hasSubscription (Bool.eq_false_of_not_eq_true h) }

/-- `RemoveExpiredSubscriptions`. -/
def removeExpiredSubscriptions (m : PersistedStateManager) (now : Nat) : PersistedStateManager :=
  { m with
    subscriptions := m.subscriptions.filter fun r => !r.expirationTimer.signaled now
    nodup := m.nodup.sublist (List.filter_sublist.map _) }

/-- A subscription is left if and only if its timer has not elapsed. -/
theorem hasSubscription_removeExpired {m : PersistedStateManager}
    {r : PersistedStateManagerSubscriptionRecord} (h : r ∈ m.subscriptions) (now : Nat) :
    (m.removeExpiredSubscriptions now).hasSubscription r.id = true ↔
      r.expirationTimer.signaled now = false := by
  rw [hasSubscription_iff, List.mem_map]
  constructor
  · rintro ⟨r', hr', hid⟩
    obtain ⟨hmem, hsignaled⟩ := List.mem_filter.mp hr'
    obtain rfl : r' = r := List.inj_on_of_nodup_map m.nodup hmem h hid
    -- ids are keys: the record that is left with this id is this record
    exact (Bool.not_eq_true' _).mp hsignaled
  · intro hsignaled
    exact ⟨r, List.mem_filter.mpr ⟨h, (Bool.not_eq_true' _).mpr hsignaled⟩, rfl⟩

/-- `RenewSubscriptions`; it returns true. -/
def renewSubscriptions (m : PersistedStateManager) (now : Nat) (ids : List Bytes) :
    PersistedStateManager :=
  let renew := fun r : PersistedStateManagerSubscriptionRecord =>
    if ids.contains r.id then r.restart now m.interval else r
  { m with
    subscriptions := m.subscriptions.map renew
    nodup := by
      have hid : PersistedStateManagerSubscriptionRecord.id ∘ renew =
          PersistedStateManagerSubscriptionRecord.id := by
        funext r
        dsimp only [renew, Function.comp_apply]
        split <;> rfl
      rw [List.map_map, hid]
      exact m.nodup }

/-- `IsPathSubscribed`. -/
def isPathSubscribed (path : Bytes) (r : PersistedStateManagerSubscriptionRecord) : Bool :=
  r.si.paths.any fun p => p.isPrefixOf path

/-- A subscription of a type that covers a path. -/
def covers (type : SubscriptionType) (path : Bytes)
    (r : PersistedStateManagerSubscriptionRecord) : Bool :=
  r.si.type = type && isPathSubscribed path r

/-! ## Store changes -/

section Callbacks

variable {σ : Type}

/-- The loop over the subscriptions to a path that is added or deleted. -/
def notify (path : Bytes) (_cb : SubscriptionInfo → Bytes → σ → σ) :
    List PersistedStateManagerSubscriptionRecord → σ → σ
  | [], data => data
  | r :: rs, data =>
    if !covers .storeChange path r then notify path _cb rs data
    -- the callback is still to be called here
    else notify path _cb rs data

/-- `ProcessStoreChangePathAdded`. -/
def processStoreChangePathAdded (m : PersistedStateManager) (path : Bytes)
    (cb : Option (SubscriptionInfo → Bytes → σ → σ)) (data : σ) :
    Except Exn Unit × PersistedStateManager × σ :=
  match cb with
  | none => (.error (.invalidArgument "callback parameter not defined"), m, data)
  | some cb =>
    let m := if Store.isStreamPath path then
        { m with streamReadOffsets := setOffset m.streamReadOffsets path 0 }
      else m
    (.ok (), m, notify path cb m.subscriptions data)

/-- `ProcessStoreChangePathDeleted`. -/
def processStoreChangePathDeleted (m : PersistedStateManager) (path : Bytes)
    (cb : Option (SubscriptionInfo → Bytes → σ → σ)) (data : σ) :
    Except Exn Unit × PersistedStateManager × σ :=
  match cb with
  | none => (.error (.invalidArgument "callback parameter not defined"), m, data)
  | some cb => (.ok (), m, notify path cb m.subscriptions data)

/-- `PersistedStateManagerStreamAppendedCallback`: it can change the state. -/
abbrev StreamAppendedCallback (σ : Type) :=
  SubscriptionInfo → EnvelopeSubscriptionResponseState → σ → EnvelopeSubscriptionResponseState × σ

/-- The loop that reads from `offset` on. A round adds at least one to the offset, so
`fuel` is enough when it is the length of the stream. -/
def readFrom (si : SubscriptionInfo) (streamLength : UInt64) (cb : StreamAppendedCallback σ) :
    Nat → UInt64 → InputStream → EnvelopeSubscriptionResponseState → σ → InputStream × σ
  | 0, _, is, _, data => (is, data)
  | fuel + 1, offset, is, state, data =>
    if offset < streamLength then
      match is.readEnvelope with
      | (none, _, is) => (is, data)
      | (some env, read, is) =>
        let (state, data) := cb si (state.addEnvelope env) data
        readFrom si streamLength cb fuel (offset + read.toUInt64) is state data
    else (is, data)

/-- An offset as `SetAbsoluteOffset` gets it, in 64 bits with a sign. -/
def signedOffset (offset : UInt64) : Int :=
  if offset < 0x8000000000000000 then offset.toNat else offset.toNat - 2 ^ 64

/-- A stream is read for one subscription, from the stored offset on. -/
def readForSubscription (m : PersistedStateManager) (path : Bytes) (streamLength : UInt64)
    (cb : StreamAppendedCallback σ) (si : SubscriptionInfo) (is : InputStream) (data : σ) :
    Except Exn InputStream × σ :=
  match m.streamReadOffsets path with
  | none => (.error (.generic "unknown stream encountered"), data)
  | some offset =>
    match is.setAbsoluteOffset (signedOffset offset) with
    | .error e => (.error e, data)
    | .ok is =>
      match readFrom si streamLength cb streamLength.toNat offset is (.ofSubscription si) data with
      | (is, data) => (.ok is, data)

/-- The loop over the subscriptions to a stream. All of them read from one stream
object. -/
def readForSubscriptions (m : PersistedStateManager) (path : Bytes) (streamLength : UInt64)
    (cb : StreamAppendedCallback σ) :
    List PersistedStateManagerSubscriptionRecord → InputStream → σ → Except Exn Unit × σ
  | [], _, data => (.ok (), data)
  | r :: rs, is, data =>
    if !covers .envelope path r then readForSubscriptions m path streamLength cb rs is data
    else match m.readForSubscription path streamLength cb r.si is data with
      | (.error e, data) => (.error e, data)
      | (.ok is, data) => readForSubscriptions m path streamLength cb rs is data

/-- `ProcessStoreChangeStreamAppended`. The offset is the new length from the start
on. -/
def processStoreChangeStreamAppended (m : PersistedStateManager) (store : Store) (path : Bytes)
    (streamLength : UInt64) (cb : Option (StreamAppendedCallback σ)) (data : σ) :
    Except Exn Unit × PersistedStateManager × σ :=
  match cb with
  | none => (.error (.invalidArgument "callback not defined"), m, data)
  | some cb =>
    let m := { m with streamReadOffsets := setOffset m.streamReadOffsets path streamLength }
    if m.subscriptions.isEmpty then (.ok (), m, data)
    else match store.getInputStream path with
      | none => (.ok (), m, data)
      | some (.error e) => (.error e, m, data)
      | some (.ok is) =>
        let (result, data) := m.readForSubscriptions path streamLength cb m.subscriptions is data
        (result, m, data)

end Callbacks

end PersistedStateManager

end Zippylog
