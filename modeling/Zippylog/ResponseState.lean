import Zippylog.RequestProcessor

/-!
# Subscription responses

`EnvelopeSubscriptionResponseState` and `SendSubscriptionEnvelopeResponse` of
`request_processor.cpp`: envelopes are collected, and sent when there are many, when they are large
or when there are no more. A store change is sent at once, in a message of its own.

The state knows how many envelopes it has and how many bytes they are, and `Finalize` closes it. A
state that is closed takes no more envelopes. As on the other sockets a send and a serialisation
succeed.
-/

namespace Zippylog

open Wire

/-- `EnvelopeSubscriptionResponseState`. -/
structure EnvelopeSubscriptionResponseState where
  finalized : Bool := false
  id : Bytes
  identities : List Bytes
  currentSize : UInt32 := 0
  messages : List Bytes := []
  deriving DecidableEq

namespace EnvelopeSubscriptionResponseState

def maxSize : UInt32 := 1048576

def maxEnvelopes : UInt32 := 1024

/-- The constructor. -/
def ofSubscription (subscription : SubscriptionInfo) : EnvelopeSubscriptionResponseState where
  id := subscription.id
  identities := subscription.socketIdentifiers

/-- `AddEnvelope`. The sum of the sizes is taken in 32 bits. -/
def addEnvelope (state : EnvelopeSubscriptionResponseState) (e : Envelope) :
    EnvelopeSubscriptionResponseState :=
  let msg := e.toProtocolZmqMessage
  { state with
    messages := state.messages ++ [msg]
    currentSize := state.currentSize + UInt32.ofNat msg.length }

@[simp] theorem id_addEnvelope (state : EnvelopeSubscriptionResponseState) (e : Envelope) :
    (state.addEnvelope e).id = state.id := by
  rw [addEnvelope]

@[simp] theorem identities_addEnvelope (state : EnvelopeSubscriptionResponseState)
    (e : Envelope) : (state.addEnvelope e).identities = state.identities := by
  rw [addEnvelope]

@[simp] theorem messages_addEnvelope (state : EnvelopeSubscriptionResponseState) (e : Envelope) :
    (state.addEnvelope e).messages = state.messages ++ [e.toProtocolZmqMessage] := by
  rw [addEnvelope]

@[simp] theorem finalized_addEnvelope (state : EnvelopeSubscriptionResponseState) (e : Envelope) :
    (state.addEnvelope e).finalized = state.finalized := by
  rw [addEnvelope]

/-- `Finalize`. -/
def finalize (state : EnvelopeSubscriptionResponseState) : EnvelopeSubscriptionResponseState :=
  { state with finalized := true }

/-- One of the limits is exceeded. -/
def full (state : EnvelopeSubscriptionResponseState) : Bool :=
  state.currentSize > maxSize || state.messages.length > maxEnvelopes.toNat

/-- The envelope in front of the others. -/
def subscriptionStart (state : EnvelopeSubscriptionResponseState) (now : UInt64) : Envelope :=
  Envelope.ofMessage now (.subscriptionStartV1 state.id)

end EnvelopeSubscriptionResponseState

namespace RequestProcessor

/-- The loop over the messages, at message `i` of `stop`. The flag compares `i`
with the end, where the loop does not send. -/
def sendMessages (stop : Nat) : Nat → List Bytes → List Frame
  | _, [] => []
  | i, msg :: msgs => ⟨msg, i != stop⟩ :: sendMessages stop (i + 1) msgs

/-- `SendSubscriptionEnvelopeResponse`: the frames, and the state after it. -/
def sendSubscriptionEnvelopeResponse (now : UInt64) (state : EnvelopeSubscriptionResponseState) :
    List Frame × EnvelopeSubscriptionResponseState :=
  if !state.finalized && !state.full then ([], state)
  else if state.messages.length = 0 then ([], state)
  else
    (ZeroMQ.sendEnvelopeTo state.identities (state.subscriptionStart now) true true ++
        sendMessages state.messages.length 0 state.messages,
      { state with messages := [], currentSize := 0 })

/-- The bodies of the two routines below, with the message for a parsed path. -/
def sendSubscriptionStoreChange (message : Bytes × Bytes × Bytes → Message) (now : UInt64)
    (subscription : SubscriptionInfo) (path : Bytes) : Except Exn (List Frame) :=
  let response := Envelope.ofMessage now (.subscriptionStartV1 subscription.id)
  match Store.parsePath path with
  | none => .error (.generic "invalid store path supplied")
  | some parsed =>
    .ok (ZeroMQ.sendEnvelopeTo subscription.socketIdentifiers (response.addMessage (message parsed))
      true false)

/-- `SendSubscriptionStoreChangePathAddedResponse`. -/
def sendSubscriptionStoreChangePathAddedResponse :
    UInt64 → SubscriptionInfo → Bytes → Except Exn (List Frame) :=
  sendSubscriptionStoreChange fun (bucket, set, stream) =>
    if !stream.isEmpty then .storeChangeStreamAddedV1 ⟨bucket, set, stream, none⟩
    else if !set.isEmpty then .storeChangeStreamSetAddedV1 ⟨bucket, set⟩
    else .storeChangeBucketAddedV1 bucket

/-- `SendSubscriptionStoreChangePathDeletedResponse`. -/
def sendSubscriptionStoreChangePathDeletedResponse :
    UInt64 → SubscriptionInfo → Bytes → Except Exn (List Frame) :=
  sendSubscriptionStoreChange fun (bucket, set, stream) =>
    if !stream.isEmpty then .storeChangeStreamDeletedV1 ⟨bucket, set, stream, none⟩
    else if !set.isEmpty then .storeChangeStreamSetDeletedV1 ⟨bucket, set⟩
    else .storeChangeBucketDeletedV1 bucket

end RequestProcessor

namespace EnvelopeSubscriptionResponseState

/-! ## Runs -/

/-- A call of `SendSubscriptionEnvelopeResponse`: the state before it, the frames
it sends and the state after it. -/
structure Sent where
  before : EnvelopeSubscriptionResponseState
  frames : List Frame
  after : EnvelopeSubscriptionResponseState
  deriving DecidableEq

def send (now : UInt64) (state : EnvelopeSubscriptionResponseState) : Sent :=
  let sent := RequestProcessor.sendSubscriptionEnvelopeResponse now state
  ⟨state, sent.1, sent.2⟩

/-- Each envelope is added and the response sent, at the given times; then the
response is finalized and sent once more. -/
def respond (now : UInt64) :
    List (UInt64 × Envelope) → EnvelopeSubscriptionResponseState → List Sent
  | [], state => [send now state.finalize]
  | (t, e) :: es, state =>
    let sent := send t (state.addEnvelope e)
    sent :: respond now es sent.after

end EnvelopeSubscriptionResponseState

end Zippylog
