import Zippylog.PersistedStateReactor

/-!
# The network of the reactors

The parts of a server that subscriptions go through: the handlers of the request processors, the
store watcher, the reactors, and the forwarding of `Server::Pump`. A run takes any of their steps in
any order, with clients that ask for anything.

- A socket of the server or the workers is the messages that wait on it. Which one is taken next is
  any, but store changes stay in order. A reactor gets the frames.
- A message from a client has a number, which goes with what a worker sends for it and which nothing
  of the code reads.
- A message whose last part is empty is dropped by a worker, which would wait for the next message
  and take both for one.
- Whatever else the server does, such as ending when a device has ended, is left out.
- `renewals`, `accepted` and `changes` keep what was asked for, so that it can be compared with what
  the reactors did.
-/

namespace Zippylog

open Wire

/-! ## Senders -/

/-- `RenewSubscriptions`: what is sent for the ids whose timers have elapsed, or for
all of them. -/
def Client.renewSubscriptions (now : UInt64) (ids : List Bytes) : List Frame :=
  ZeroMQ.sendEnvelope (Envelope.ofMessage now (.subscribeKeepaliveV1 ids)) true false

namespace ServerRequestProcessor

/-- `HandleSubscribeKeepalive`: the result, and what is sent. -/
def handleSubscribeKeepalive (request : Envelope) : HandlerResult × List Frame :=
  (.makeDeferred, ZeroMQ.sendEnvelopePtr request false)

/-- `HandleSubscriptionRequest`, with the id that `CreateUUID` makes. The TTL is still
to be populated. -/
def handleSubscriptionRequest (now : UInt64) (uuid : Bytes) (subscription : SubscriptionInfo) :
    Except Exn (HandlerResult × List Frame) :=
  match subscription.toProtocolBuffer with
  | .error e => .error e
  | .ok record =>
    .ok (.makeSubscriptionAccepted uuid 0,
      ZeroMQ.sendEnvelope (Envelope.ofMessage now (.subscriptionRecord (record uuid))) false false)

/-- The handlers as a request processor calls them. -/
def implementation (now : UInt64) (uuid : Bytes) : RequestProcessorImplementation where
  handleSubscriptionRequest subscription :=
    (handleSubscriptionRequest now uuid subscription).map Prod.fst
  handleSubscribeKeepalive request output := (.ok (handleSubscribeKeepalive request).1, output)
  handleWriteEnvelopes _ _ _ := .error (.generic "TODO implement Worker::HandleWriteEnvelopes")

end ServerRequestProcessor

/-- What the watcher sees happen to a path of the store. -/
inductive DirectoryChange where
  | added (path : Bytes)
  | deleted (path : Bytes)
  | modified (path : Bytes) (size : UInt64)
  deriving DecidableEq

namespace Watcher

/-- The message of `HandleAdded`, `HandleDeleted` or `HandleModified`, unless there is
none or the handler throws. -/
def message : DirectoryChange → Option Message
  | .added path =>
    (Store.parsePath path).map fun (bucket, set, stream) =>
      if !stream.isEmpty then .storeChangeStreamAddedV1 ⟨bucket, set, stream, none⟩
      else if !set.isEmpty then .storeChangeStreamSetAddedV1 ⟨bucket, set⟩
      else .storeChangeBucketAddedV1 bucket
  | .deleted path =>
    (Store.parsePath path).map fun (bucket, set, stream) =>
      if !stream.isEmpty then .storeChangeStreamDeletedV1 ⟨bucket, set, stream, none⟩
      else if !set.isEmpty then .storeChangeStreamSetDeletedV1 ⟨bucket, set⟩
      else .storeChangeBucketDeletedV1 bucket
  | .modified path size =>
    (Store.parsePath path).bind fun (bucket, set, stream) =>
      if !stream.isEmpty then some (.storeChangeStreamAppendedV1 ⟨bucket, set, stream, some size⟩)
      else none

/-- What `SendChangeMessage` sends besides the log message. -/
def sendChangeMessage (e : Envelope) : List Frame := ZeroMQ.sendEnvelopePtr e false

end Watcher

/-! ## The network -/

/-- The address of a peer, which a socket puts in front of what it receives. -/
abbrev Identity := {bs : Bytes // bs ≠ []}

/-- A subscription that was accepted, with the id and the TTL that are acknowledged. -/
structure Accepted where
  subscription : SubscriptionInfo
  id : Bytes
  ttl : UInt32
  deriving DecidableEq

/-- What is to be registered for it. -/
def Accepted.registration (a : Accepted) : SubscriptionInfo := { a.subscription with id := a.id }

structure ReactorNetwork where
  /-- in microseconds -/
  now : Nat := 0
  /-- the number of messages from clients so far -/
  sent : Nat := 0
  clientsSock : List (Nat × List Frame) := []
  workersSock : List (Nat × List Frame) := []
  workerSubscriptionsSock : List (List Frame) := []
  workerStreamingNotifySock : List (Nat × List Frame) := []
  storeChangesInputSock : List (List Frame) := []
  reactors : List PersistedStateReactor
  /-- the keepalives of clients: number and ids -/
  renewals : List (Nat × List Bytes) := []
  accepted : List Accepted := []
  changes : List Envelope := []

namespace ReactorNetwork

inductive Step where
  | wait (microseconds : Nat)
  /-- any message from a client -/
  | send (client : Identity) (part : Bytes) (parts : List Bytes)
  | renewSubscriptions (client : Identity) (now : UInt64) (ids : List Bytes)
  | transferClient (i : Nat)
  | work (i : Nat) (server : Identity) (p : RequestProcessor) (uuid : Bytes)
  | transferSubscription (i reactor : Nat)
  | transferNotify (i : Nat)
  | watch (now : UInt64) (change : DirectoryChange)
  | transferStoreChange
  | pump (reactor : Nat) (store : Store)

/-- The message at a place of a queue, and the others. -/
def takeAt {α : Type} (queue : List α) (i : Nat) : Option (α × List α) :=
  queue[i]?.map fun m => (m, queue.eraseIdx i)

/-- `TransferMessage` of a message that waits: what is sent. -/
def transfer (frames : List Frame) : List Frame :=
  ((ZeroMQ.transferMessage frames).map Prod.fst).getD []

/-- The ids in a part of a message, if it is a keepalive. -/
def keepaliveIds : Bytes → Option (List Bytes)
  | 1 :: e =>
    match (Envelope.parse e).bind (·.getMessage 0) with
    | some (.subscribeKeepaliveV1 ids) => some ids
    | _ => none
  | _ => none

/-- A message from a client arrives. -/
def receive (s : ReactorNetwork) (client : Identity) (frames : List Frame)
    (ids : Option (List Bytes)) : ReactorNetwork :=
  { s with
    sent := s.sent + 1
    clientsSock := s.clientsSock ++ [(s.sent, ⟨client.val, true⟩ :: frames)]
    renewals := s.renewals ++ ids.toList.map fun ids => (s.sent, ids) }

/-- What a call to a handler sends, for message `n` of a client. -/
def handle (now : UInt64) (uuid : Bytes) (n : Nat) (s : ReactorNetwork) : HandlerCall → ReactorNetwork
  | .handleSubscriptionRequest subscription =>
    match ServerRequestProcessor.handleSubscriptionRequest now uuid subscription with
    | .ok (.makeSubscriptionAccepted id ttl, frames) =>
      { s with
        workerSubscriptionsSock := s.workerSubscriptionsSock ++ [frames]
        accepted := s.accepted ++ [⟨subscription, id, ttl⟩] }
    | _ => s
  | .handleSubscribeKeepalive request =>
    { s with
      workerStreamingNotifySock := s.workerStreamingNotifySock ++
        [(n, (ServerRequestProcessor.handleSubscribeKeepalive request).2)] }
  | .handleWriteEnvelopes _ _ _ => s

/-- A worker processes a message, which it gets from the server. -/
def processMessage (p : RequestProcessor) (uuid : Bytes) (server : Identity) (n : Nat)
    (frames : List Frame) (s : ReactorNetwork) : ReactorNetwork :=
  match ZeroMQ.receiveMessage (⟨server.val, true⟩ :: frames) with
  | none => s
  | some (container, _) =>
    let p := { p with
      impl := ServerRequestProcessor.implementation p.now uuid
      currentRequestIdentities := container.identities }
    (p.processMessages container.messages).2.calls.foldl (handle p.now uuid n) s

def step (s : ReactorNetwork) : Step → ReactorNetwork
  | .wait microseconds => { s with now := s.now + microseconds }
  | .send client part parts =>
    s.receive client (ZeroMQ.multipart (part :: parts)) ((part :: parts).findSome? keepaliveIds)
  | .renewSubscriptions client now ids =>
    s.receive client (Client.renewSubscriptions now ids) (some ids)
  | .transferClient i =>
    match takeAt s.clientsSock i with
    | none => s
    | some ((n, frames), rest) =>
      { s with clientsSock := rest, workersSock := s.workersSock ++ [(n, transfer frames)] }
  | .work i server p uuid =>
    match takeAt s.workersSock i with
    | none => s
    | some ((n, frames), rest) =>
      processMessage p uuid server n frames { s with workersSock := rest }
  | .transferSubscription i reactor =>
    match takeAt s.workerSubscriptionsSock i with
    | none => s
    | some (frames, rest) =>
      if reactor < s.reactors.length then
        { s with
          workerSubscriptionsSock := rest
          reactors := s.reactors.modify reactor fun r =>
            { r with subscriptionSock := r.subscriptionSock ++ transfer frames } }
      else s
  | .transferNotify i =>
    match takeAt s.workerStreamingNotifySock i with
    | none => s
    | some ((_, frames), rest) =>
      { s with
        workerStreamingNotifySock := rest
        reactors := s.reactors.map fun r =>
          { r with subscriptionUpdatesSock := r.subscriptionUpdatesSock ++ transfer frames } }
  | .watch now change =>
    match Watcher.message change with
    | none => s
    | some message =>
      let e := Envelope.ofMessage now message
      { s with
        storeChangesInputSock := s.storeChangesInputSock ++ [Watcher.sendChangeMessage e]
        changes := s.changes ++ [e] }
  | .transferStoreChange =>
    match s.storeChangesInputSock with
    | [] => s
    | frames :: rest =>
      { s with
        storeChangesInputSock := rest
        reactors := s.reactors.map fun r =>
          { r with storeChangesSock := r.storeChangesSock ++ transfer frames } }
  | .pump reactor store => { s with reactors := s.reactors.modify reactor (·.pump s.now store) }

def run (s : ReactorNetwork) (steps : List Step) : ReactorNetwork := steps.foldl step s

end ReactorNetwork

end Zippylog
