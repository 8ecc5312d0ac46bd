import Zippylog.ClientProof
import Zippylog.Framing
import Zippylog.ResponseState

/-!
# Store changes at the client

`SendSubscriptionStoreChangePathAddedResponse` and its sibling on the one side,
`ProcessResponseMessage` on the other. The server tells a client which bucket, stream set or stream
was added or deleted, and the client calls the one of six callbacks that is for it. In between is
one message: the address of the client, an empty frame, the protocol version, the envelope of the
response with the id of the subscription, and the envelope of the change.

- `added`, `deleted`: the call that a change of a path is to make, by its deepest component;
- `storeChange_codec`: it is the one call that the response makes.
-/

namespace Zippylog

open Wire

namespace Client

/-! ## The calls -/

/-- All callbacks are set. -/
structure AllSet (cb : SubscriptionCallbackInfo) : Prop where
  streamAdded : cb.streamAdded ≠ none
  streamDeleted : cb.streamDeleted ≠ none
  streamAppended : cb.streamAppended ≠ none
  bucketAdded : cb.bucketAdded ≠ none
  bucketDeleted : cb.bucketDeleted ≠ none
  streamSetAdded : cb.streamSetAdded ≠ none
  streamSetDeleted : cb.streamSetDeleted ≠ none
  envelopeReceived : cb.envelopeReceived ≠ none

/-- The deepest component of a path. -/
inductive Depth where
  | bucket
  | streamSet
  | stream
  deriving DecidableEq

/-- Which component is the deepest. -/
def depth : Bytes × Bytes × Bytes → Depth
  | (_, [], []) => .bucket
  | (_, _ :: _, []) => .streamSet
  | (_, _, _ :: _) => .stream

/-- `BucketAdded`, `StreamSetAdded` or `StreamAdded`, with the components. -/
def added (sub : Subscription) (id : Bytes) (parsed : Bytes × Bytes × Bytes) : Option Call :=
  match depth parsed, parsed with
  | .bucket, (bucket, _, _) =>
    sub.cb.bucketAdded.map (.storeChange · id (.storeChangeBucketAddedV1 bucket) sub.data)
  | .streamSet, (bucket, set, _) =>
    sub.cb.streamSetAdded.map
      (.storeChange · id (.storeChangeStreamSetAddedV1 ⟨bucket, set⟩) sub.data)
  | .stream, (bucket, set, stream) =>
    sub.cb.streamAdded.map
      (.storeChange · id (.storeChangeStreamAddedV1 ⟨bucket, set, stream, none⟩) sub.data)

/-- `BucketDeleted`, `StreamSetDeleted` or `StreamDeleted`, with the components. -/
def deleted (sub : Subscription) (id : Bytes) (parsed : Bytes × Bytes × Bytes) : Option Call :=
  match depth parsed, parsed with
  | .bucket, (bucket, _, _) =>
    sub.cb.bucketDeleted.map (.storeChange · id (.storeChangeBucketDeletedV1 bucket) sub.data)
  | .streamSet, (bucket, set, _) =>
    sub.cb.streamSetDeleted.map
      (.storeChange · id (.storeChangeStreamSetDeletedV1 ⟨bucket, set⟩) sub.data)
  | .stream, (bucket, set, stream) =>
    sub.cb.streamDeleted.map
      (.storeChange · id (.storeChangeStreamDeletedV1 ⟨bucket, set, stream, none⟩) sub.data)

/-- What was sent comes to the client without the identities that led to it, and makes it call
one callback. -/
def Makes (c : Client) (subscription : SubscriptionInfo) (sent : Except Exn (List Frame))
    (call : Option Call) : Prop :=
  ∃ frames container made, sent = .ok frames ∧ call = some made ∧
    ZeroMQ.receiveMessage (frames.drop subscription.socketIdentifiers.length) =
      some (container, []) ∧
    c.processResponseMessage container.messages = (.ok true, c.call made)

/-! ## The response -/

/-- The envelope of a response with a change. -/
def changeEnvelope (now : UInt64) (id : Bytes) (change : Message) : Envelope :=
  (Envelope.ofMessage now (.subscriptionStartV1 id)).addMessage change

theorem getMessage_zero_changeEnvelope (now : UInt64) (id : Bytes) (change : Message) :
    (changeEnvelope now id change).getMessage 0 = some (.subscriptionStartV1 id) := by
  simp [changeEnvelope, Envelope.getMessage, Envelope.ofMessage, Envelope.addMessage, Envelope.new]

theorem getMessage_one_changeEnvelope (now : UInt64) (id : Bytes) (change : Message) :
    (changeEnvelope now id change).getMessage 1 = some change := by
  simp [changeEnvelope, Envelope.getMessage, Envelope.ofMessage, Envelope.addMessage, Envelope.new]

/-- The switch takes the change for what it is. -/
theorem handleStoreChange_changeEnvelope (c : Client) (now : UInt64) (id : Bytes)
    {sub : Subscription} {change : Message} {callback : Nat}
    (hcallback : storeChangeCallback sub.cb change.type = some callback) :
    c.handleStoreChange (changeEnvelope now id change) id sub 1 =
      (.ok (), c.call (.storeChange callback id change sub.data)) := by
  have htype : (changeEnvelope now id change).messageType[1]? = some change.type.enumeration := by
    simp [changeEnvelope, Envelope.ofMessage, Envelope.addMessage, Envelope.new]
  rw [handleStoreChange, htype]
  simp only [MessageType.ofEnumeration?_enumeration, hcallback, getMessage_one_changeEnvelope,
    if_true]

/-- **One change makes one call.** -/
theorem processResponseMessage_change {c : Client} {id : Bytes} {sub : Subscription}
    (hsub : c.subscriptions.lookup id = some sub) (now : UInt64) {change : Message} {callback : Nat}
    (hcallback : storeChangeCallback sub.cb change.type = some callback) :
    c.processResponseMessage [(changeEnvelope now id change).toProtocolZmqMessage] =
      (.ok true, c.call (.storeChange callback id change sub.data)) := by
  have hcount : List.range' 1 ((changeEnvelope now id change).messageCount - 1) = [1] := by
    simp [changeEnvelope, Envelope.messageCount, Envelope.ofMessage, Envelope.addMessage,
      Envelope.new]
  rw [processResponseMessage_subscriptionStart (getMessage_zero_changeEnvelope now id change) hsub,
    handleSubscriptionResponse, hcount, handleStoreChanges,
    handleStoreChange_changeEnvelope c now id hcallback]
  dsimp only [handleStoreChanges]
  -- no frame is behind the change for `EnvelopeReceived`
  split
  · rfl
  · rfl

/-- The frames of a response behind the identities. -/
theorem receiveMessage_change (identities : List Bytes) (now : UInt64) (id : Bytes)
    (change : Message) :
    ZeroMQ.receiveMessage ((ZeroMQ.sendEnvelopeTo identities (changeEnvelope now id change)
        true false).drop identities.length) =
      some (⟨[], [(changeEnvelope now id change).toProtocolZmqMessage]⟩, []) := by
  have hdrop : (ZeroMQ.sendEnvelopeTo identities (changeEnvelope now id change)
      true false).drop identities.length =
        ZeroMQ.multipart ([] ++ [[], (changeEnvelope now id change).toProtocolZmqMessage]) := by
    rw [ZeroMQ.sendEnvelopeTo, List.append_assoc, List.drop_left' (List.length_map _)]
    rfl
  have hreceived : ZeroMQ.receiveMessage (ZeroMQ.multipart ([] ++
      [[], (changeEnvelope now id change).toProtocolZmqMessage]) ++ []) =
        some (⟨[], [(changeEnvelope now id change).toProtocolZmqMessage]⟩, []) :=
    ZeroMQ.receiveMessage_multipart_append (by simp) (by simp)
      (by simp [Envelope.toProtocolZmqMessage]) []
  rw [List.append_nil] at hreceived
  rw [hdrop]
  exact hreceived

/-- The message for a path that was added. -/
def addedMessage : Bytes × Bytes × Bytes → Message := fun (bucket, set, stream) =>
  if !stream.isEmpty then .storeChangeStreamAddedV1 ⟨bucket, set, stream, none⟩
  else if !set.isEmpty then .storeChangeStreamSetAddedV1 ⟨bucket, set⟩
  else .storeChangeBucketAddedV1 bucket

/-- The message for a path that was deleted. -/
def deletedMessage : Bytes × Bytes × Bytes → Message := fun (bucket, set, stream) =>
  if !stream.isEmpty then .storeChangeStreamDeletedV1 ⟨bucket, set, stream, none⟩
  else if !set.isEmpty then .storeChangeStreamSetDeletedV1 ⟨bucket, set⟩
  else .storeChangeBucketDeletedV1 bucket

theorem sendSubscriptionStoreChangePathAddedResponse_eq :
    RequestProcessor.sendSubscriptionStoreChangePathAddedResponse =
      RequestProcessor.sendSubscriptionStoreChange addedMessage := rfl

theorem sendSubscriptionStoreChangePathDeletedResponse_eq :
    RequestProcessor.sendSubscriptionStoreChangePathDeletedResponse =
      RequestProcessor.sendSubscriptionStoreChange deletedMessage := rfl

/-- What a response makes the client call. -/
theorem makes_change {c : Client} {sub : Subscription} {subscription : SubscriptionInfo}
    (hsub : c.subscriptions.lookup subscription.id = some sub) (now : UInt64) {path : Bytes}
    {parsed : Bytes × Bytes × Bytes} (hparsed : Store.parsePath path = some parsed)
    (message : Bytes × Bytes × Bytes → Message) {callback : Pointer}
    (hset : callback ≠ none)
    (hcallback : storeChangeCallback sub.cb (message parsed).type = callback) :
    c.Makes subscription
      (RequestProcessor.sendSubscriptionStoreChange message now subscription path)
      (callback.map (.storeChange · subscription.id (message parsed) sub.data)) := by
  obtain ⟨cb, rfl⟩ := Option.ne_none_iff_exists'.mp hset
  refine ⟨_, _, _, ?_, rfl, receiveMessage_change subscription.socketIdentifiers now
    subscription.id (message parsed), processResponseMessage_change hsub now hcallback⟩
  rw [RequestProcessor.sendSubscriptionStoreChange, hparsed]
  rfl

/-- **Store changes** come to the client as one call of the callback for the deepest component, with
the id of the subscription and the components as they are in the path: for every path that parses,
in both directions, and for any client that has the callback set. -/
theorem storeChange_codec {c : Client} {sub : Subscription} {subscription : SubscriptionInfo}
    (hsub : c.subscriptions.lookup subscription.id = some sub) (hcb : AllSet sub.cb) (now : UInt64)
    {path : Bytes} {parsed : Bytes × Bytes × Bytes} (hparsed : Store.parsePath path = some parsed) :
    c.Makes subscription
        (RequestProcessor.sendSubscriptionStoreChangePathAddedResponse now subscription path)
        (added sub subscription.id parsed) ∧
      c.Makes subscription
        (RequestProcessor.sendSubscriptionStoreChangePathDeletedResponse now subscription path)
        (deleted sub subscription.id parsed) := by
  obtain ⟨bucket, set, stream⟩ := parsed
  constructor
  · rw [sendSubscriptionStoreChangePathAddedResponse_eq]
    cases stream with
    | cons b stream =>
      cases set <;> exact makes_change hsub now hparsed addedMessage hcb.streamAdded rfl
    | nil =>
      cases set with
      | cons b set => exact makes_change hsub now hparsed addedMessage hcb.streamSetAdded rfl
      | nil => exact makes_change hsub now hparsed addedMessage hcb.bucketAdded rfl
  · rw [sendSubscriptionStoreChangePathDeletedResponse_eq]
    cases stream with
    | cons b stream =>
      cases set <;> exact makes_change hsub now hparsed deletedMessage hcb.streamDeleted rfl
    | nil =>
      cases set with
      | cons b set => exact makes_change hsub now hparsed deletedMessage hcb.streamSetDeleted rfl
      | nil => exact makes_change hsub now hparsed deletedMessage hcb.bucketDeleted rfl

/-- A subscription with all callbacks. -/
def withCallbacks : Subscription :=
  ⟨[7], 0, ⟨none, some 1, some 2, some 3, some 4, some 5, some 6, some 7, some 8⟩, none⟩

theorem storeChange_codec_bucket :
    Client.Makes { subscriptions := AList.insert [7] withCallbacks ∅ }
        { id := [7], socketIdentifiers := [[1]] }
        (RequestProcessor.sendSubscriptionStoreChangePathAddedResponse 0
          { id := [7], socketIdentifiers := [[1]] } (str "/b"))
        (some (.storeChange 4 [7] (.storeChangeBucketAddedV1 (str "b")) none)) ∧
      Client.Makes { subscriptions := AList.insert [7] withCallbacks ∅ }
        { id := [7], socketIdentifiers := [[1]] }
        (RequestProcessor.sendSubscriptionStoreChangePathDeletedResponse 0
          { id := [7], socketIdentifiers := [[1]] } (str "/b"))
        (some (.storeChange 5 [7] (.storeChangeBucketDeletedV1 (str "b")) none)) := by
  have hsub : ({ subscriptions := AList.insert [7] withCallbacks ∅ } : Client).subscriptions.lookup
      ({ id := [7], socketIdentifiers := [[1]] } : SubscriptionInfo).id = some withCallbacks :=
    AList.lookup_insert _
  have hcb : AllSet withCallbacks.cb := by constructor <;> simp [withCallbacks]
  have hparsed : Store.parsePath (str "/b") = some (str "b", [], []) := by decide +kernel
  exact storeChange_codec hsub hcb 0 hparsed

end Client

end Zippylog
