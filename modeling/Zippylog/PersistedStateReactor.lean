import Zippylog.PersistedStateManager

/-!
# Persisted state reactors

`Pump` of `persisted_state_reactor.cpp`, on the frames that wait on the three sockets of a reactor:
subscriptions, updates to them, and changes of the store.

- An exception ends `Run`, and with it the reactor.
- `registered` and `processed` keep what a reactor did.
- The socket for updates is polled and not read, as in the source, where reading it is still to be
  written.
- Nothing is sent here: the callbacks of the manager are not called.
-/

namespace Zippylog

open Wire

namespace SubscriptionInfo

/-- `ToProtocolBuffer`: a record that has no id yet. -/
def toProtocolBuffer (s : SubscriptionInfo) : Except Exn (Bytes → SubscriptionRecord) :=
  let record := fun type id : _ => ({
    id := id
    type := type
    path := s.paths
    luaCode := if s.luaCode.isEmpty then none else some s.luaCode
    socketIdentifier := s.socketIdentifiers
    envelopeFilterNamespace := s.envelopeFilterNamespaces
    envelopeFilterEnumerationNamespace := s.envelopeFilterEnumerations.map Prod.fst
    envelopeFilterEnumerationType :=
      s.envelopeFilterEnumerations.map Prod.snd : SubscriptionRecord })
  match s.type with
  | .envelope => .ok (record .envelope)
  | .storeChange => .ok (record .storeChange)
  | .unknown => .error (.generic "unhandled subscription type")

/-- `SubscriptionInfo(SubscriptionRecord)`. -/
def ofRecord (m : SubscriptionRecord) : Except Exn SubscriptionInfo :=
  if m.envelopeFilterEnumerationNamespace.length ≠ m.envelopeFilterEnumerationType.length then
    .error (.generic
      "length of envelope_filter_enumeration and envelope_filter_type do not agree")
  else .ok {
    type := match m.type with
      | .envelope => .envelope
      | .storeChange => .storeChange
    id := m.id
    paths := m.path
    luaCode := m.luaCode.getD []
    socketIdentifiers := m.socketIdentifier
    envelopeFilterNamespaces := m.envelopeFilterNamespace
    envelopeFilterEnumerations :=
      m.envelopeFilterEnumerationNamespace.zip m.envelopeFilterEnumerationType }

end SubscriptionInfo

/-- A change that was processed: the subscriptions there were, and those that the
response callback was called for. -/
structure ProcessedChange where
  e : Envelope
  subscriptions : List SubscriptionInfo
  called : List SubscriptionInfo
  deriving DecidableEq

structure PersistedStateReactor where
  manager : PersistedStateManager
  storeChangesSock : List Frame := []
  subscriptionSock : List Frame := []
  subscriptionUpdatesSock : List Frame := []
  /-- what ended `Run` -/
  stopped : Option Fault := none
  registered : List SubscriptionInfo := []
  processed : List ProcessedChange := []

namespace PersistedStateReactor

/-! ## Subscriptions -/

/-- A message on the subscriptions socket: the subscription it registers. -/
def processSubscription (m : PersistedStateManager) (now : Nat) (container : MessageContainer) :
    Except Fault (SubscriptionInfo × PersistedStateManager) :=
  match container.messages with
  | [] =>
    .error (.exception (.generic "didn't receive valid payload on subscriptions sock"))
  | msg :: _ =>
    match Envelope.ofZmqMessage msg 0 with
    | .error e => .error (.exception e)
    | .ok e =>
      if e.messageCount ≠ 1 then .error (.exception (.generic "unknown envelope payload received"))
      else match e.messageNamespace with
        | [] => .error .undefinedBehavior
        | ns :: _ =>
          if ns ≠ messageNamespace then
            .error (.exception (.generic "invalid namespace seen on first message"))
          else match e.messageType with
            | [] => .error .undefinedBehavior
            | type :: _ =>
              if type ≠ MessageType.subscriptionRecord.enumeration then
                .error (.exception (.generic
                  "unknown message type seen on subscriptions sock"))
              else match e.getMessage 0 with
                | some (.subscriptionRecord record) =>
                  match SubscriptionInfo.ofRecord record with
                  | .error e => .error (.exception e)
                  | .ok subscription =>
                    match m.registerSubscription now subscription with
                    | .error e => .error (.exception e)
                    | .ok m => .ok (subscription, m)
                | _ => .error .undefinedBehavior

/-- The subscriptions socket in `Pump`. -/
def pumpSubscriptions (r : PersistedStateReactor) (now : Nat) : PersistedStateReactor :=
  match ZeroMQ.receiveMessage r.subscriptionSock with
  -- not ready, or `recv` waits for the rest of a message
  | none => r
  | some (container, rest) =>
    match processSubscription r.manager now container with
    | .error f => { r with subscriptionSock := rest, stopped := some f }
    | .ok (subscription, m) =>
      { r with
        manager := m
        subscriptionSock := rest
        registered := r.registered ++ [subscription] }

/-! ## Store changes -/

/-- `PathAddedCallback` and `PathDeletedCallback`, as a record of their calls. -/
def pathCallback : Option (SubscriptionInfo → Bytes → List SubscriptionInfo →
    List SubscriptionInfo) :=
  some fun subscription _ called => called ++ [subscription]

/-- The switch of `ProcessStoreChangeMessage`. An append has no callback. -/
def processStoreChange (m : PersistedStateManager) (store : Store) :
    Message → Except Exn Unit × PersistedStateManager × List SubscriptionInfo
  | .storeChangeBucketAddedV1 bucket =>
    m.processStoreChangePathAdded (Store.bucketPath bucket) pathCallback []
  | .storeChangeBucketDeletedV1 bucket =>
    m.processStoreChangePathDeleted (Store.bucketPath bucket) pathCallback []
  | .storeChangeStreamSetAddedV1 c =>
    m.processStoreChangePathAdded (Store.streamsetPath c.bucket c.streamSet) pathCallback []
  | .storeChangeStreamSetDeletedV1 c =>
    m.processStoreChangePathDeleted (Store.streamsetPath c.bucket c.streamSet) pathCallback []
  | .storeChangeStreamAddedV1 c =>
    m.processStoreChangePathAdded (Store.streamPath c.bucket c.streamSet c.stream) pathCallback []
  | .storeChangeStreamDeletedV1 c =>
    m.processStoreChangePathDeleted (Store.streamPath c.bucket c.streamSet c.stream)
      pathCallback []
  | .storeChangeStreamAppendedV1 c =>
    m.processStoreChangeStreamAppended store (Store.streamPath c.bucket c.streamSet c.stream)
      (c.length.getD 0) none []
  | _ => (.error (.generic "unhandled message type in store change envelope"), m, [])

/-- The enumerations that the switch handles. -/
def isStoreChange (type : UInt32) : Bool :=
  type ∈ [MessageType.storeChangeBucketAddedV1, .storeChangeBucketDeletedV1,
    .storeChangeStreamSetAddedV1, .storeChangeStreamSetDeletedV1, .storeChangeStreamAddedV1,
    .storeChangeStreamDeletedV1, .storeChangeStreamAppendedV1].map MessageType.enumeration

/-- `ProcessStoreChangeMessage` once the envelope has a message of the namespace. -/
def processStoreChangeEnvelope (m : PersistedStateManager) (store : Store) (e : Envelope)
    (type : UInt32) : Except Fault ProcessedChange × PersistedStateManager :=
  if isStoreChange type then
    match e.getMessage 0 with
    | none => (.error .undefinedBehavior, m)
    | some change =>
      match processStoreChange m store change with
      | (.error e, m, _) => (.error (.exception e), m)
      | (.ok (), m, called) =>
        (.ok ⟨e, m.subscriptions.map PersistedStateManagerSubscriptionRecord.si, called⟩, m)
  else
    (.error (.exception (.generic "unhandled message type in store change envelope")), m)

/-- `ProcessStoreChangeMessage`. Only an envelope that does not parse is caught. -/
def processStoreChangeMessage (m : PersistedStateManager) (store : Store) (msg : Bytes) :
    Except Fault ProcessedChange × PersistedStateManager :=
  match Envelope.ofZmqMessage msg 0 with
  | .error .deserialize =>
    (.error (.exception (.generic
      "deserialization error on receives store change envelope")), m)
  | .error e => (.error (.exception e), m)
  | .ok e =>
    if e.messageCount = 0 then
      (.error (.exception (.generic
        "received store change envelope contains no messages")), m)
    else match e.messageNamespace with
      | [] => (.error .undefinedBehavior, m)
      | ns :: _ =>
        if ns ≠ messageNamespace then
          (.error (.exception (.generic
            "received store change envelope contains no messages")), m)
        else match e.messageType with
          | [] => (.error .undefinedBehavior, m)
          | type :: _ => processStoreChangeEnvelope m store e type

/-- The store changes socket in `Pump`: one frame of it. -/
def pumpStoreChanges (r : PersistedStateReactor) (store : Store) : PersistedStateReactor :=
  match r.storeChangesSock with
  | [] => r
  | f :: fs =>
    match processStoreChangeMessage r.manager store f.data with
    | (.error fault, m) =>
      { r with manager := m, storeChangesSock := fs, stopped := some fault }
    | (.ok change, m) =>
      { r with manager := m, storeChangesSock := fs, processed := r.processed ++ [change] }

/-! ## Pump -/

/-- `Pump` up to the housekeeping. What waits on the socket for updates is still to be
received and processed before it. -/
def housekeep (r : PersistedStateReactor) (now : Nat) : PersistedStateReactor :=
  { r with manager := r.manager.removeExpiredSubscriptions now }

/-- What `Pump` does when nothing was thrown before. -/
def unlessStopped (r : PersistedStateReactor)
    (f : PersistedStateReactor → PersistedStateReactor) : PersistedStateReactor :=
  if r.stopped = none then f r else r

/-- `Pump` of a reactor that has not ended. -/
def pump (r : PersistedStateReactor) (now : Nat) (store : Store) : PersistedStateReactor :=
  r.unlessStopped fun r =>
    ((r.housekeep now).pumpSubscriptions now).unlessStopped fun r => r.pumpStoreChanges store

end PersistedStateReactor

end Zippylog
