import Zippylog.Client

/-!
# Runs of a client

A callback is code of the application: it can send requests and pump while the client is in the
middle of a message, and it can throw. So a run is not one call after the other, but calls inside of
calls, to any depth.

- `Activity`: the frames of the call stack, in the client and in the application, from the innermost
  one on.
- A message changes the client before its first callback, so that a frame that processes one keeps
  the calls still to make. Only the data of a subscription is read again for each of them.
- `timeout` ends the wait of a synchronous call at any time, if it has one.
- An assertion or undefined behaviour ends the run.
-/

namespace Zippylog

open Wire

namespace Call

/-- The callback answers a request; it is not one of a subscription. -/
def answers : Call → Bool
  | storeChange .. | envelopeReceived .. => false
  | _ => true

/-- The entry of a request that a callback was found in. -/
def slot (req : OutstandingRequest) : Call → Pointer
  | ping .. => req.cbPing
  | storeInfo .. => req.cbStoreInfo
  | bucketInfo .. => req.cbBucketInfo
  | streamSetInfo .. => req.cbStreamSetInfo
  | streamInfo .. => req.cbStreamInfo
  | streamSegment .. => req.cbStreamSegment
  | subscription .. => req.cbSubscription
  | storeChange .. | envelopeReceived .. => none

def callback : Call → Nat
  | ping callback _ | storeInfo callback _ _ | bucketInfo callback _ _ | streamSetInfo callback _ _
  | streamInfo callback _ _ | streamSegment callback _ _ _ _ | subscription callback _ _
  | storeChange callback _ _ _ | envelopeReceived callback _ _ _ => callback

def data : Call → Pointer
  | ping _ data | storeInfo _ _ data | bucketInfo _ _ data | streamSetInfo _ _ data
  | streamInfo _ _ data | streamSegment _ _ _ _ data | subscription _ _ data
  | storeChange _ _ _ data | envelopeReceived _ _ _ data => data

/-- `iter->second.data`, when the callback of a subscription is called. -/
def reread (c : Client) : Call → Call
  | storeChange callback id change data =>
    storeChange callback id change (((c.subscriptions.lookup id).map Subscription.data).getD data)
  | envelopeReceived callback id e data =>
    envelopeReceived callback id e (((c.subscriptions.lookup id).map Subscription.data).getD data)
  | call => call

end Call

/-- The first tag of a response. -/
def firstTag : List Bytes → Option Bytes
  | [] => none
  | first :: _ =>
    match Envelope.ofZmqMessage first 1 with
    | .error _ => none
    | .ok e => e.tag.head?

/-- What is going on, in one frame of the stack. -/
inductive Activity where
  /-- code of the application: its own, or a callback -/
  | code
  /-- `ProcessResponseMessage`: the first tag, the request that was outstanding for it,
  the calls still to make, and what it comes to then -/
  | processing (tag : Option Bytes) (req : Option OutstandingRequest) (pending : List Call)
      (result : Except Fault Bool)
  /-- the loop of `SendAndProcessSynchronousRequest`, with or without a timeout -/
  | synchronous (id : Bytes) (haveTimer : Bool)

/-- A frame of a method of the client. -/
def Activity.inClient : Activity → Bool
  | .code => false
  | _ => true

/-- What is seen of a run. -/
inductive Event where
  | sent (id : Bytes) (req : OutstandingRequest)
  /-- a synchronous call has sent its request -/
  | waits (id : Bytes)
  | called (tag : Option Bytes) (req : Option OutstandingRequest) (call : Call)

/-- A client and its thread; the innermost frame comes first. -/
structure ClientRun where
  client : Client := {}
  stack : List Activity := [.code]
  /-- UUIDs generated so far -/
  generated : Nat := 0
  events : List Event := []

/-- A step of the thread. -/
inductive Action where
  /-- `SendRequest`, and whether `SendEnvelope` succeeds -/
  | sendRequest (e : Envelope) (req : OutstandingRequest) (sends : Bool)
  /-- `SendAndProcessSynchronousRequest` up to its loop -/
  | sendSynchronous (e : Envelope) (req : OutstandingRequest) (haveTimer sends : Bool)
  /-- `Pump`, with a message that has arrived -/
  | pump (messages : List Bytes)
  /-- the next callback is called -/
  | call
  /-- the processing of a message ends -/
  | finish
  /-- a callback returns -/
  | return
  /-- code throws an exception, which leaves the client for the code that called it -/
  | throw
  /-- a synchronous call is answered, or its timer is signaled -/
  | leave
  /-- the loop of a synchronous call throws an exception of its own: of the timer, of
  `zmq::poll`, or of `ReceiveMessage` -/
  | fail

namespace ClientRun

/-- An exception goes through the frames of the client to the code below. -/
def unwind (stack : List Activity) : List Activity :=
  stack.dropWhile Activity.inClient

/-- `SendRequest`. -/
def send (uuid : Nat → Bytes) (s : ClientRun) (e : Envelope) (req : OutstandingRequest) : ClientRun :=
  let id := uuid s.generated
  { s with
    client := (s.client.sendRequest id e req).2
    generated := s.generated + 1
    events := s.events ++ [.sent id { req with id := id }] }

/-- The loop of a synchronous call begins. -/
def wait (s : ClientRun) (id : Bytes) (haveTimer : Bool) : ClientRun :=
  { s with stack := .synchronous id haveTimer :: s.stack, events := s.events ++ [.waits id] }

/-- `ProcessResponseMessage` up to the first callback. -/
def process (s : ClientRun) (messages : List Bytes) : ClientRun :=
  let tag := firstTag messages
  let req := tag.bind (s.client.outstanding.lookup ·)
  let (result, client) := { s.client with calls := [] }.processResponseMessage messages
  { s with
    client := client
    stack := .processing tag req client.calls result :: s.stack }

/-- What is not enabled changes nothing. -/
def step (uuid : Nat → Bytes) (s : ClientRun) (a : Action) : ClientRun :=
  match a, s.stack with
  | .sendRequest e req sends, .code :: _ =>
    if sends then s.send uuid e req else { s with generated := s.generated + 1 }
  | .sendSynchronous e req haveTimer sends, .code :: _ =>
    if sends then (s.send uuid e req).wait (uuid s.generated) haveTimer
    else { s with generated := s.generated + 1 }
  | .pump messages, .code :: _ => s.process messages
  | .pump messages, .synchronous id _ :: _ =>
    if s.client.haveOutstandingRequest id then s.process messages else s
  | .call, .processing tag req (call :: pending) result :: rest =>
    { s with
      stack := .code :: .processing tag req pending result :: rest
      events := s.events ++ [.called tag req (call.reread s.client)] }
  | .finish, .processing _ _ [] result :: rest =>
    match result with
    | .ok _ => { s with stack := rest }
    | .error (.exception _) => { s with stack := unwind rest }
    | .error _ => { s with stack := [] }
  | .return, .code :: activity :: rest => { s with stack := activity :: rest }
  | .throw, .code :: activity :: rest => { s with stack := unwind (activity :: rest) }
  | .leave, .synchronous id haveTimer :: rest =>
    if s.client.haveOutstandingRequest id && !haveTimer then s else { s with stack := rest }
  | .fail, .synchronous _ _ :: rest => { s with stack := unwind rest }
  | _, _ => s

/-- The run of a thread with a new client. -/
def run (uuid : Nat → Bytes) (actions : List Action) : ClientRun :=
  actions.foldl (step uuid) {}

theorem run_append (uuid : Nat → Bytes) (actions : List Action) (a : Action) :
    run uuid (actions ++ [a]) = step uuid (run uuid actions) a := by
  rw [run, List.foldl_append]
  rfl

end ClientRun

end Zippylog
