import Mathlib.Data.List.AList
import Zippylog.Store.Path
import Zippylog.ZeroMQ

/-!
# The client

`client.cpp`: the methods that send requests, the map of the requests that are outstanding, and what
happens to a response. A method gives its request an identifier, keeps the options and the callback
that it was called with, sends the request and returns; the response is processed when it arrives,
in any order and perhaps never.

- A callback and the `void *` passed to it are addresses (`Pointer`). A call of one is recorded in
  `calls` with its arguments; what it does is not part of the model.
- The UUID of a request is an argument, since the library that makes it is not here.
- Of the timer of a subscription the model has the interval that it is started with.
- What throws, fails an assertion or reads what is not there is an error, with the client as it is
  at that point.
-/

namespace Zippylog

open Wire

/-- A function or data pointer; `none` is `NULL`. -/
abbrev Pointer := Option Nat

/-- `StreamSegment`. -/
structure StreamSegment where
  path : Bytes
  startOffset : UInt64
  endOffset : UInt64
  bytesSent : UInt32
  envelopesSent : UInt32
  envelopes : List Envelope
  deriving DecidableEq

/-- `SubscriptionCallbackInfo`. -/
structure SubscriptionCallbackInfo where
  data : Pointer := none
  streamAdded : Pointer := none
  streamDeleted : Pointer := none
  streamAppended : Pointer := none
  bucketAdded : Pointer := none
  bucketDeleted : Pointer := none
  streamSetAdded : Pointer := none
  streamSetDeleted : Pointer := none
  envelopeReceived : Pointer := none
  deriving DecidableEq

/-- `OutstandingRequest`. -/
structure OutstandingRequest where
  id : Bytes := []
  cbPing : Pointer := none
  cbFeatures : Pointer := none
  cbStoreInfo : Pointer := none
  cbBucketInfo : Pointer := none
  cbStreamSetInfo : Pointer := none
  cbStreamInfo : Pointer := none
  cbStreamSegment : Pointer := none
  cbSubscription : Pointer := none
  callbacks : SubscriptionCallbackInfo := {}
  data : Pointer := none
  deriving DecidableEq

/-- `Subscription`, with the interval its timer was started with. -/
structure Subscription where
  id : Bytes
  expirationTimer : UInt32
  cb : SubscriptionCallbackInfo
  data : Pointer
  deriving DecidableEq

/-- The call of a callback and its arguments. -/
inductive Call where
  | ping (callback : Nat) (data : Pointer)
  | storeInfo (callback : Nat) (info : StoreInfoV1) (data : Pointer)
  | bucketInfo (callback : Nat) (info : BucketInfoV1) (data : Pointer)
  | streamSetInfo (callback : Nat) (info : StreamSetInfoV1) (data : Pointer)
  | streamInfo (callback : Nat) (info : StreamInfoV1) (data : Pointer)
  | streamSegment (callback : Nat) (path : Bytes) (startOffset : UInt64) (segment : StreamSegment)
      (data : Pointer)
  | subscription (callback : Nat) (ack : SubscriptionAcceptAckV1) (data : Pointer)
  | storeChange (callback : Nat) (id : Bytes) (change : Message) (data : Pointer)
  | envelopeReceived (callback : Nat) (id : Bytes) (e : Envelope) (data : Pointer)
  deriving DecidableEq

structure Client where
  outstanding : AList fun _ : Bytes => OutstandingRequest := ∅
  subscriptions : AList fun _ : Bytes => Subscription := ∅
  /-- in microseconds -/
  subscriptionRenewalOffset : UInt32 := 5000000
  calls : List Call := []

namespace Client

def call (c : Client) (call : Call) : Client := { c with calls := c.calls ++ [call] }

/-- What a function returns, and the client after it. -/
abbrev Handled (α : Type) := Except Fault α × Client

/-! ## Requests

What each method sends, before `SendRequest` adds the id: the envelope and the
entry of `outstanding`. A synchronous form is the asynchronous one with a
callback of the class, unless it differs. -/

/-- A method whose callback has to be given. -/
def withCallback (callback : Pointer) (what : String)
    (request : Except Exn (Envelope × OutstandingRequest)) :
    Except Exn (Envelope × OutstandingRequest) :=
  if callback = none then .error (.invalidArgument what) else request

/-- `Ping`. -/
def ping (now : UInt64) (callback data : Pointer) : Except Exn (Envelope × OutstandingRequest) :=
  withCallback callback "callback parameter not defined"
    (.ok (Envelope.ofMessage now .pingV1, { cbPing := callback, data := data }))

/-- `GetFeatures`. -/
def getFeatures (now : UInt64) (callback data : Pointer) :
    Except Exn (Envelope × OutstandingRequest) :=
  withCallback callback "callback parameter not defined"
    (.ok (Envelope.ofMessage now .getFeaturesV1, { cbFeatures := callback, data := data }))

/-- `GetStoreInfo`. -/
def getStoreInfo (now : UInt64) (callback data : Pointer) :
    Except Exn (Envelope × OutstandingRequest) :=
  withCallback callback "callback parameter not defined"
    (.ok (Envelope.ofMessage now .getStoreInfoV1, { cbStoreInfo := callback, data := data }))

/-- `GetBucketInfo`. -/
def getBucketInfo (now : UInt64) (path : Bytes) (callback data : Pointer) :
    Except Exn (Envelope × OutstandingRequest) :=
  withCallback callback "callback parameter not defined"
    (if !Store.isBucketPath path then .error (.invalidArgument "path is not a valid bucket path")
    else .ok (Envelope.ofMessage now (.getBucketInfoV1 path),
      { cbBucketInfo := callback, data := data }))

/-- `GetStreamSetInfo`. -/
def getStreamSetInfo (now : UInt64) (path : Bytes) (callback data : Pointer) :
    Except Exn (Envelope × OutstandingRequest) :=
  withCallback callback "callback is not defined"
    (if !Store.isStreamSetPath path then
      .error (.invalidArgument "path is not a path to a stream set")
    else .ok (Envelope.ofMessage now (.getStreamSetInfoV1 path),
      { cbStreamSetInfo := callback, data := data }))

/-- `GetStreamInfo`; the synchronous form does not look at the path. -/
def getStreamInfo (now : UInt64) (path : Bytes) (synchronous : Bool) (callback data : Pointer) :
    Except Exn (Envelope × OutstandingRequest) :=
  withCallback callback "callback is not defined"
    (if !synchronous && !Store.isStreamPath path then
      .error (.invalidArgument "path is not a path to a stream")
    else .ok (Envelope.ofMessage now (.getStreamInfoV1 path),
      { cbStreamInfo := callback, data := data }))

/-- `GetStreamSegment`, with or without a limit on the bytes. -/
def getStreamSegment (now : UInt64) (path : Bytes) (startOffset : UInt64)
    (maxResponseBytes : Option UInt32) (callback data : Pointer) :
    Except Exn (Envelope × OutstandingRequest) :=
  withCallback callback "callback parameter not defined"
    (.ok (Envelope.ofMessage now
        (.getStreamSegmentV1 ⟨path, startOffset, maxResponseBytes, none⟩),
      { cbStreamSegment := callback, data := data }))

/-- `SubscribeStoreChanges`, which has no asynchronous form. -/
def subscribeStoreChanges (now : UInt64) (paths : List Bytes) (callbacks : SubscriptionCallbackInfo)
    (callback result : Pointer) : Except Exn (Envelope × OutstandingRequest) :=
  withCallback callback "callback is not defined"
    (if !paths.all Store.validatePath then .error (.invalidArgument "path is not valid")
    else .ok (Envelope.ofMessage now (.subscribeStoreChangesV1 paths),
      { callbacks := callbacks, data := result, cbSubscription := callback }))

/-- `SubscribeEnvelopes`: no callback for the answer is stored. -/
def subscribeEnvelopes (now : UInt64) (path lua : Bytes) (cb : SubscriptionCallbackInfo)
    (data : Pointer) : Except Exn (Envelope × OutstandingRequest) :=
  .ok (Envelope.ofMessage now
    (.subscribeEnvelopesV1 ⟨[path], [], [], [], if lua.isEmpty then none else some lua⟩),
    { data := data, callbacks := cb })

/-- A call of one of the public methods that send a request. -/
inductive Method where
  | ping (callback data : Pointer)
  | getFeatures (callback data : Pointer)
  | getStoreInfo (callback data : Pointer)
  | getBucketInfo (path : Bytes) (callback data : Pointer)
  | getStreamSetInfo (path : Bytes) (callback data : Pointer)
  | getStreamInfo (path : Bytes) (synchronous : Bool) (callback data : Pointer)
  | getStreamSegment (path : Bytes) (startOffset : UInt64) (maxResponseBytes : Option UInt32)
      (callback data : Pointer)
  | subscribeStoreChanges (paths : List Bytes) (callbacks : SubscriptionCallbackInfo)
      (callback result : Pointer)
  | subscribeEnvelopes (path lua : Bytes) (cb : SubscriptionCallbackInfo) (data : Pointer)

/-- The envelope and the entry of `outstanding` of a call, unless it throws. -/
def Method.request (now : UInt64) : Method → Except Exn (Envelope × OutstandingRequest)
  | .ping callback data => Client.ping now callback data
  | .getFeatures callback data => Client.getFeatures now callback data
  | .getStoreInfo callback data => Client.getStoreInfo now callback data
  | .getBucketInfo path callback data => Client.getBucketInfo now path callback data
  | .getStreamSetInfo path callback data => Client.getStreamSetInfo now path callback data
  | .getStreamInfo path synchronous callback data =>
    Client.getStreamInfo now path synchronous callback data
  | .getStreamSegment path startOffset maxResponseBytes callback data =>
    Client.getStreamSegment now path startOffset maxResponseBytes callback data
  | .subscribeStoreChanges paths callbacks callback result =>
    Client.subscribeStoreChanges now paths callbacks callback result
  | .subscribeEnvelopes path lua cb data => Client.subscribeEnvelopes now path lua cb data

/-- `SendRequest`, and the part of `SendAndProcessSynchronousRequest` before it
waits. -/
def sendRequest (c : Client) (id : Bytes) (e : Envelope) (req : OutstandingRequest) :
    List Frame × Client :=
  (ZeroMQ.sendEnvelopeTo [] (e.addTag id) true false,
    { c with outstanding := c.outstanding.insert id { req with id := id } })

/-! ## Responses to requests -/

/-- `messages.size() - 2`, a `size_t`. -/
def payloadEnd (size : Nat) : UInt64 := UInt64.ofNat size - 2

/-- The payload loop, with the number of rounds it still makes and the messages
from `messages[i]` on. -/
def payload : Nat → List Bytes → Except Fault (List Envelope)
  | 0, _ => .ok []
  | _ + 1, [] => .error .undefinedBehavior
  | n + 1, msg :: msgs =>
    match Envelope.ofZmqMessage msg 1 with
    | .error e => .error (.exception e)
    | .ok e => (payload n msgs).map (e :: ·)

/-- The segment in the messages of a response. The footer is taken to be a
`StreamSegmentEndV1` whatever it is. -/
def parseSegment (start : StreamSegmentStartV1) (messages : List Bytes) :
    Except Fault StreamSegment :=
  match messages.getLast? with
  | none => .error .undefinedBehavior
  | some last =>
    match Envelope.ofZmqMessage last 1 with
    | .error e => .error (.exception e)
    | .ok footer =>
      match footer.getMessage 0 with
      | some (.streamSegmentEndV1 stop) =>
        (payload ((payloadEnd messages.length).toNat - 1) messages.tail).map fun envelopes =>
          { path := start.path
            startOffset := start.offset
            endOffset := stop.offset
            bytesSent := stop.bytesSent
            envelopesSent := stop.envelopesSent
            envelopes := envelopes }
      | _ => .error .undefinedBehavior

/-- The call of a callback that is asserted to be set. -/
def callAsserted (c : Client) (callback : Pointer) (f : Nat → Call) : Handled Bool :=
  match callback with
  | none => (.error .assertion, c)
  | some callback => (.ok true, c.call (f callback))

/-- What comes of a message that is `NULL`: the callback is asserted first. -/
def nullMessage (callback : Pointer) : Fault :=
  if callback = none then .assertion else .undefinedBehavior

/-- `HandleRequestResponse` once the request is found and removed. -/
def handleMessage (c : Client) (req : OutstandingRequest) (e : Envelope) (type : MessageType)
    (messages : List Bytes) : Handled Bool :=
  match type, e.getMessage 0 with
  | .pongV1, _ => c.callAsserted req.cbPing fun cb => .ping cb req.data
  | .storeInfoV1, some (.storeInfoV1 info) =>
    c.callAsserted req.cbStoreInfo fun cb => .storeInfo cb info req.data
  | .bucketInfoV1, some (.bucketInfoV1 info) =>
    c.callAsserted req.cbBucketInfo fun cb => .bucketInfo cb info req.data
  | .streamSetInfoV1, some (.streamSetInfoV1 info) =>
    c.callAsserted req.cbStreamSetInfo fun cb => .streamSetInfo cb info req.data
  | .streamInfoV1, some (.streamInfoV1 info) =>
    c.callAsserted req.cbStreamInfo fun cb => .streamInfo cb info req.data
  | .streamSegmentStartV1, some (.streamSegmentStartV1 start) =>
    if req.cbStreamSegment = none then (.error .assertion, c)
    else match parseSegment start messages with
      | .error f => (.error f, c)
      | .ok segment => c.callAsserted req.cbStreamSegment fun cb =>
          .streamSegment cb start.path start.offset segment req.data
  | .subscriptionAcceptAckV1, some (.subscriptionAcceptAckV1 ack) =>
    -- milliseconds to microseconds, in 32 bits
    let ttl := ack.ttl * 1000
    if ttl < c.subscriptionRenewalOffset then
      (.error (.exception (.generic "subscription TTL less than configured time offset")), c)
    else
      let sub : Subscription := {
        id := ack.id
        expirationTimer := ttl - c.subscriptionRenewalOffset
        cb := req.callbacks
        data := req.data }
      let c := { c with subscriptions := c.subscriptions.insert ack.id sub }
      c.callAsserted req.cbSubscription fun cb => .subscription cb ack req.data
  -- `GetMessage` returned `NULL`
  | .storeInfoV1, _ => (.error (nullMessage req.cbStoreInfo), c)
  | .bucketInfoV1, _ => (.error (nullMessage req.cbBucketInfo), c)
  | .streamSetInfoV1, _ => (.error (nullMessage req.cbStreamSetInfo), c)
  | .streamInfoV1, _ => (.error (nullMessage req.cbStreamInfo), c)
  | .streamSegmentStartV1, _ => (.error (nullMessage req.cbStreamSegment), c)
  | .subscriptionAcceptAckV1, _ => (.error .undefinedBehavior, c)
  | _, _ => (.ok false, c)

/-- `HandleRequestResponse`. -/
def handleRequestResponse (c : Client) (e : Envelope) (type : MessageType)
    (messages : List Bytes) : Handled Bool :=
  match e.tag with
  | [] =>
    (.error (.exception (.generic "received response with no tag to match to request")), c)
  | id :: _ =>
    match c.outstanding.lookup id with
    | none =>
      (.error (.exception (.generic
        "received a response to an unknown outstanding request")), c)
    | some req =>
      handleMessage { c with outstanding := c.outstanding.erase id } req e type messages

/-! ## Responses to subscriptions -/

/-- The callback for a store change. -/
def storeChangeCallback (cb : SubscriptionCallbackInfo) : MessageType → Pointer
  | .storeChangeBucketAddedV1 => cb.bucketAdded
  | .storeChangeBucketDeletedV1 => cb.bucketDeleted
  | .storeChangeStreamSetAddedV1 => cb.streamSetAdded
  | .storeChangeStreamSetDeletedV1 => cb.streamSetDeleted
  | .storeChangeStreamAddedV1 => cb.streamAdded
  | .storeChangeStreamDeletedV1 => cb.streamDeleted
  | .storeChangeStreamAppendedV1 => cb.streamAppended
  | _ => none

/-- The switch on a message behind the first: the namespace is not looked at. -/
def handleStoreChange (c : Client) (e : Envelope) (id : Bytes) (sub : Subscription) (i : Nat) :
    Handled Unit :=
  match e.messageType[i]? with
  | none => (.error .undefinedBehavior, c)
  | some enumeration =>
    match MessageType.ofEnumeration? enumeration with
    | none => (.ok (), c)
    | some type =>
      match storeChangeCallback sub.cb type, e.getMessage i with
      | none, _ => (.ok (), c)
      | some callback, some m =>
        if m.type = type then (.ok (), c.call (.storeChange callback id m sub.data))
        else (.error .undefinedBehavior, c)
      | some _, none => (.error .undefinedBehavior, c)

def handleStoreChanges (e : Envelope) (id : Bytes) (sub : Subscription) :
    List Nat → Client → Handled Unit
  | [], c => (.ok (), c)
  | i :: is, c =>
    match c.handleStoreChange e id sub i with
    | (.error f, c) => (.error f, c)
    | (.ok (), c) => handleStoreChanges e id sub is c

/-- The loop over the messages behind the first. -/
def handleEnvelopes (callback : Nat) (id : Bytes) (sub : Subscription) :
    List Bytes → Client → Handled Unit
  | [], c => (.ok (), c)
  | msg :: msgs, c =>
    match Envelope.ofBuffer msg with
    | .error e => (.error (.exception e), c)
    | .ok e => handleEnvelopes callback id sub msgs
        (c.call (.envelopeReceived callback id e sub.data))

/-- `HandleSubscriptionResponse` for a subscription that the client has. -/
def handleSubscriptionResponse (c : Client) (e : Envelope) (id : Bytes) (sub : Subscription)
    (messages : List Bytes) : Handled Bool :=
  match handleStoreChanges e id sub (List.range' 1 (e.messageCount - 1)) c with
  | (.error f, c) => (.error f, c)
  | (.ok (), c) =>
    match sub.cb.envelopeReceived with
    | none => (.ok true, c)
    | some callback =>
      match handleEnvelopes callback id sub messages c with
      | (.error f, c) => (.error f, c)
      | (.ok (), c) => (.ok true, c)

/-! ## Processing -/

/-- `ProcessResponseMessage`. -/
def processResponseMessage (c : Client) (messages : List Bytes) : Handled Bool :=
  match messages with
  | [] => (.error .assertion, c)
  | first :: rest =>
    match Envelope.ofZmqMessage first 1 with
    | .error e => (.error (.exception e), c)
    | .ok e =>
      if e.messageCount < 1 then (.ok false, c)
      else match e.messageNamespace with
        | [] => (.error .undefinedBehavior, c)
        | ns :: _ =>
          if ns ≠ 1 then (.ok false, c)
          else match e.messageType with
            | [] => (.error .undefinedBehavior, c)
            | enumeration :: _ =>
              match MessageType.ofEnumeration? enumeration with
              | some .subscriptionStartV1 =>
                match e.getMessage 0 with
                | some (.subscriptionStartV1 id) =>
                  match c.subscriptions.lookup id with
                  | none => (.ok false, c)
                  | some sub => c.handleSubscriptionResponse e id sub rest
                | _ => (.error .undefinedBehavior, c)
              | some .pongV1 => c.handleRequestResponse e .pongV1 messages
              | some .storeInfoV1 => c.handleRequestResponse e .storeInfoV1 messages
              | some .streamSegmentStartV1 =>
                c.handleRequestResponse e .streamSegmentStartV1 messages
              | some .subscriptionAcceptAckV1 =>
                c.handleRequestResponse e .subscriptionAcceptAckV1 messages
              | _ => (.ok false, c)

/-- `ProcessPendingMessage`, with what `ReceiveMessage` received. -/
def processPendingMessage (c : Client) (received : Option MessageContainer) : Handled Bool :=
  match received with
  | none => (.ok false, c)
  | some container => c.processResponseMessage container.messages

/-- `HaveOutstandingRequest`. -/
def haveOutstandingRequest (c : Client) (id : Bytes) : Bool := (c.outstanding.lookup id).isSome

/-- How a call that can wait for ever ends. -/
inductive Outcome (α : Type) where
  | returns (a : α)
  | throws (f : Fault)
  | waits

/-- The loop of `SendAndProcessSynchronousRequest` without a timeout, given the
messages that arrive from then on. -/
def awaitResponse (id : Bytes) : List (List Bytes) → Client → Outcome Unit × Client
  | [], c => (if c.haveOutstandingRequest id then .waits else .returns (), c)
  | messages :: arriving, c =>
    match c.processResponseMessage messages with
    | (.error f, c) => (.throws f, c)
    | (.ok _, c) =>
      if c.haveOutstandingRequest id then awaitResponse id arriving c else (.returns (), c)

end Client

end Zippylog
