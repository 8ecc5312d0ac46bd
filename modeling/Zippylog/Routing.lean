import Zippylog.ReactorNetwork
import Zippylog.ResponseState

/-!
# The way of a message through a server

`Server::Pump` as far as it forwards between clients, workers and reactors; `Pump` of
`request_processor.cpp`; and what is sent on the streaming socket for a subscription.

- A socket is the frames that wait on it from each of its peers. A message is taken off
  once it is complete, from any peer.
- An XREP socket puts the identity of the peer in front of what it receives. The first
  frame of what it sends is the identity of the peer that gets the others.
- The server gives a request to any worker. In each step a worker has any store, clock and
  handlers.
- The record that a subscription handler is given can be used by any reactor from then
  on, with any id and as often as it likes.
- A worker takes a message whose last frame is empty together with the one behind it. What
  it makes of them counts as made for the client of the first.
- The clients of the frames at a worker, `subscriptions` and `sent` are kept for the
  proofs; no step reads them.
-/

namespace Zippylog

open Wire

/-- What sockets call their peers: the server its clients, and each worker the server. -/
structure Peers (κ ω : Type) where
  client : κ → Identity
  server : ω → Identity
  unique : Function.Injective client

namespace ZeroMQ

/-- What an XREP socket receives from a peer. -/
def xrepReceive (peer : Identity) (message : List Frame) : List Frame :=
  ⟨peer.val, true⟩ :: message

/-- What a peer gets when a message is sent on an XREP socket. -/
def xrepSend (peer : Identity) : List Frame → List Frame
  | [] => []
  | destination :: frames => if destination.data = peer.val then frames else []

end ZeroMQ

/-- Of `κ` clients, `ω` workers and `ρ` reactors. -/
structure Routing (κ ω ρ : Type) where
  /-- `clients_sock`, from each client -/
  clientsSock : κ → List Frame
  /-- the socket of each worker, with the client that a frame is from -/
  workerSock : ω → List (κ × Frame)
  /-- `workers_sock` from each worker, and `streaming_sock` from each reactor -/
  responseSock : ω ⊕ ρ → List Frame
  inbox : κ → List (List Bytes)
  /-- what handlers were given, for a request of the client -/
  subscriptions : List (κ × SubscriptionInfo)
  /-- the messages for requests of the client, without the addresses -/
  sent : κ → List (List Bytes)

namespace Routing

variable {κ ω ρ : Type}

/-- Nothing was sent. -/
def initial : Routing κ ω ρ := ⟨fun _ => [], fun _ => [], fun _ => [], fun _ => [], [], fun _ => []⟩

inductive Action (κ ω ρ : Type) where
  /-- a client sends a message of these parts -/
  | send (client : κ) (part : Bytes) (parts : List Bytes)
  | transferRequest (client : κ) (worker : ω)
  | work (worker : ω) (p : RequestProcessor)
  | transferResponse (source : ω ⊕ ρ)
  | pathAdded (reactor : ρ) (i : Nat) (id : Bytes) (now : UInt64) (path : Bytes)
  | pathDeleted (reactor : ρ) (i : Nat) (id : Bytes) (now : UInt64) (path : Bytes)
  | envelopes (reactor : ρ) (i : Nat) (id : Bytes) (now : UInt64)
      (state : EnvelopeSubscriptionResponseState)

section

variable [DecidableEq κ] [DecidableEq ω] [DecidableEq ρ] (peers : Peers κ ω) (s : Routing κ ω ρ)

def send (client : κ) (part : Bytes) (parts : List Bytes) : Routing κ ω ρ :=
  { s with
    clientsSock := Function.update s.clientsSock client (s.clientsSock client ++
      ZeroMQ.xrepReceive (peers.client client) (ZeroMQ.multipart (part :: parts))) }

/-! ## `Server::Pump` -/

/-- The branch for `clients_sock`. -/
def transferRequest (client : κ) (worker : ω) : Routing κ ω ρ :=
  match ZeroMQ.transferMessage (s.clientsSock client) with
  | none => s
  | some (message, rest) =>
    { s with
      clientsSock := Function.update s.clientsSock client rest
      workerSock := Function.update s.workerSock worker (s.workerSock worker ++
        (ZeroMQ.xrepReceive (peers.server worker) message).map (client, ·)) }

/-- The branches for `workers_sock` and `streaming_sock`. -/
def transferResponse (source : ω ⊕ ρ) : Routing κ ω ρ :=
  match ZeroMQ.transferMessage (s.responseSock source) with
  | none => s
  | some (message, rest) =>
    { s with
      responseSock := Function.update s.responseSock source rest
      inbox := fun client =>
        let received := ZeroMQ.xrepSend (peers.client client) message
        if received.isEmpty then s.inbox client
        else s.inbox client ++ [received.map Frame.data] }

/-! ## Workers -/

/-- A worker sends a message. It has two addresses: the server's and the client's. -/
def reply (worker : ω) (client : κ) (frames : List Frame) : Routing κ ω ρ :=
  if frames.isEmpty then s
  else
    { s with
      responseSock := Function.update s.responseSock (.inl worker)
        (s.responseSock (.inl worker) ++ ZeroMQ.xrepSend (peers.server worker) frames)
      sent := Function.update s.sent client (s.sent client ++ [(frames.drop 2).map Frame.data]) }

/-- The record that a handler was given. -/
def subscriptionOf : HandlerCall → Option SubscriptionInfo
  | .handleSubscriptionRequest subscription => some subscription
  | _ => none

/-- The records that the handlers are given for a message. -/
def subscriptionsOf (p : RequestProcessor) (container : MessageContainer) :
    List SubscriptionInfo :=
  ({ p with currentRequestIdentities := container.identities }.processMessages
    container.messages).2.calls.filterMap subscriptionOf

/-- `RequestProcessor::Pump`. An exception ends it without a message. -/
def work (worker : ω) (p : RequestProcessor) : Routing κ ω ρ :=
  match s.workerSock worker, ZeroMQ.receiveMessage ((s.workerSock worker).map Prod.snd) with
  | (client, _) :: _, some (container, rest) =>
    let s' := { s with
      workerSock := Function.update s.workerSock worker
        ((s.workerSock worker).drop ((s.workerSock worker).length - rest.length))
      subscriptions := s.subscriptions ++ (subscriptionsOf p container).map (client, ·) }
    match p.pump container with
    | .error _ => s'
    | .ok frames => s'.reply peers worker client frames
  | _, _ => s

/-! ## Reactors -/

/-- A reactor sends frames for a subscription. They have one address, the client's. -/
def stream (reactor : ρ) (client : κ) (frames : List Frame) : Routing κ ω ρ :=
  if frames.isEmpty then s
  else
    { s with
      responseSock := Function.update s.responseSock (.inr reactor)
        (s.responseSock (.inr reactor) ++ frames)
      sent := Function.update s.sent client (s.sent client ++ [(frames.drop 1).map Frame.data]) }

/-- A call for one of the subscriptions; `none` is an exception. -/
def streamFor (reactor : ρ) (i : Nat) (id : Bytes)
    (frames : SubscriptionInfo → Option (List Frame)) : Routing κ ω ρ :=
  match s.subscriptions[i]? with
  | none => s
  | some (client, subscription) =>
    match frames { subscription with id := id } with
    | none => s
    | some frames => s.stream reactor client frames

/-- A state of the response for a subscription, with what it has collected. -/
def responseState (subscription : SubscriptionInfo) (state : EnvelopeSubscriptionResponseState) :
    EnvelopeSubscriptionResponseState :=
  { state with id := subscription.id, identities := subscription.socketIdentifiers }

def step : Action κ ω ρ → Routing κ ω ρ
  | .send client part parts => s.send peers client part parts
  | .transferRequest client worker => s.transferRequest peers client worker
  | .work worker p => s.work peers worker p
  | .transferResponse source => s.transferResponse peers source
  | .pathAdded reactor i id now path =>
    s.streamFor reactor i id fun subscription =>
      (RequestProcessor.sendSubscriptionStoreChangePathAddedResponse now subscription path).toOption
  | .pathDeleted reactor i id now path =>
    s.streamFor reactor i id fun subscription =>
      (RequestProcessor.sendSubscriptionStoreChangePathDeletedResponse now subscription path).toOption
  | .envelopes reactor i id now state =>
    s.streamFor reactor i id fun subscription =>
      some (RequestProcessor.sendSubscriptionEnvelopeResponse now
        (responseState subscription state)).1

end

/-- The server after some actions. -/
def run [DecidableEq κ] [DecidableEq ω] [DecidableEq ρ] (peers : Peers κ ω)
    (actions : List (Action κ ω ρ)) : Routing κ ω ρ := actions.foldl (step peers) initial

end Routing

end Zippylog
