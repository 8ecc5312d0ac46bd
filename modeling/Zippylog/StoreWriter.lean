import Zippylog.Store.Path
import Zippylog.ZeroMQ

/-!
# The store writer

`device/store_writer.cpp` and `device/store_writer_sender.cpp`: envelopes are sent to a device that
writes them to a store, over a PUSH/PULL pair without an answer, or over REQ/REP.

- What the store does with a write is not part of the model: `store` says it for each attempt.
- The path of a message is read as a C string, past the end of the frame: `memory` says what is
  behind it, up to a byte that is zero.
- A PULL socket hands out frames; a REP socket hands out requests, and refuses a `recv` between a
  request and its reply and a `send` at any other time. Both throw.
-/

namespace Zippylog

open Wire

/-- A call of `Store::WriteEnvelope`. -/
structure StoreWrite where
  bucket : Bytes
  set : Bytes
  data : Bytes
  deriving DecidableEq

/-- What a store does with a write: it takes it, returns false, or throws. -/
inductive WriteResult where
  | written
  | failed
  | threw
  deriving DecidableEq

/-- A multipart message on the REP socket, and the client that waits for the
reply. -/
structure Request where
  client : Nat
  parts : List Bytes
  ne_nil : parts ≠ []
  deriving DecidableEq

/-- What happens at the REP socket. -/
inductive RepEvent where
  /-- a request is received, and this is written of it -/
  | received (container : MessageContainer) (written : List StoreWrite)
  | sent (client : Nat) (reply : Bytes)
  /-- `recv` while a request waits for its reply -/
  | recvRefused
  /-- `send` while no request waits for a reply -/
  | sendRefused
  /-- the store throws while a request waits for its reply -/
  | storeThrew
  deriving DecidableEq

/-- `StoreWriter::ReceiveResult`. -/
inductive ReceiveResult where
  | ok
  | receiveError
  | noMessages
  deriving DecidableEq

/-- A `StoreWriter` and its sockets. -/
structure StoreWriter where
  /-- what the store does with the attempt of this number -/
  store : Nat → WriteResult
  /-- what is behind the path in the message of this number -/
  memory : Nat → Bytes
  attempts : Nat := 0
  received : Nat := 0
  written : List StoreWrite := []
  pull : List Frame := []
  rep : List Request := []
  /-- the client of the request that was received and not replied to -/
  pending : Option Nat := none
  events : List RepEvent := []

namespace StoreWriter

/-- The C string at the start of some memory. -/
def cString (bs : Bytes) : Bytes := bs.takeWhile (· != 0)

/-- The bucket, the stream set and the payloads of a message; `none` for a message
that is an error. -/
def target (memory : Bytes) : List Bytes → Option (Bytes × Bytes × List Bytes)
  | path :: payload :: payloads =>
    if path.length < 1 then none
    else match Store.parsePath (cString (path ++ memory)) with
      | none => none
      | some (bucket, set, _) =>
        if set.isEmpty then none else some (bucket, set, payload :: payloads)
  -- fewer than two messages
  | _ => none

/-- The write loop of `ReceiveAndWrite`; `none` is an exception. -/
def writeAll (bucket set : Bytes) : List Bytes → StoreWriter → Option ReceiveResult × StoreWriter
  | [], w => (some .ok, w)
  | data :: rest, w =>
    let w' := { w with attempts := w.attempts + 1 }
    match w.store w.attempts with
    | .written => writeAll bucket set rest { w' with written := w.written ++ [⟨bucket, set, data⟩] }
    | .failed => (some .receiveError, w')
    | .threw => (none, w')

/-- `ReceiveAndWrite` behind `ReceiveMessage`. -/
def receiveAndWrite (w : StoreWriter) (container : MessageContainer) :
    Option ReceiveResult × StoreWriter :=
  let w' := { w with received := w.received + 1 }
  match target (w.memory w.received) container.messages with
  | none => (some .receiveError, w')
  | some (bucket, set, payloads) => writeAll bucket set payloads w'

/-- `ProcessEnvelopePull`, for the frames on the socket: what it returns, unless it
throws. A message whose last frame is missing is `NO_MESSAGES`, and lost. -/
def processEnvelopePull (frames : List Frame) (w : StoreWriter) : Option Bool × StoreWriter :=
  match _h : ZeroMQ.receiveMessage frames with
  | none => (some true, { w with pull := [] })
  | some (container, rest) =>
    let result := w.receiveAndWrite container
    match result.1 with
    | none => (none, { result.2 with pull := rest })
    | some .receiveError => (some false, { result.2 with pull := rest })
    | some _ => processEnvelopePull rest result.2
termination_by frames.length
decreasing_by exact ZeroMQ.length_receiveMessage_lt _h

/-- `envelope_rep_sock->send`: whether it succeeds; it throws else. -/
def reply (w : StoreWriter) (data : Bytes) : Bool × StoreWriter :=
  match w.pending with
  | some client =>
    (true, { w with pending := none, events := w.events ++ [.sent client data] })
  | none => (false, { w with events := w.events ++ [.sendRefused] })

/-- A request is received whole. -/
def receive (w : StoreWriter) (client : Nat) (container : MessageContainer) :
    Option ReceiveResult × StoreWriter :=
  let result := { w with pending := some client }.receiveAndWrite container
  let event := .received container (result.2.written.drop w.written.length)
  (result.1, { result.2 with events := w.events ++ [event] })

/-- `ProcessEnvelopeRep`, for the requests on the socket: what it returns, unless
it throws. -/
def processEnvelopeRep : List Request → StoreWriter → Option Bool × StoreWriter
  | [], w =>
    -- `NO_MESSAGES` is not an error, so it is replied to
    let sent := w.reply []
    (if sent.1 then some true else none, { sent.2 with rep := [] })
  | request :: rest, w =>
    match ZeroMQ.receiveMessage (ZeroMQ.multipart request.parts) with
    | none =>
      -- an empty last part is dropped, and the next one asked for
      (none, { w with
        rep := rest
        pending := some request.client
        events := w.events ++ [.recvRefused] })
    | some (container, _) =>
      let result := w.receive request.client container
      match result.1 with
      | none =>
        (none, { result.2 with rep := rest, events := result.2.events ++ [.storeThrew] })
      | some .receiveError =>
        let sent := result.2.reply (str "unknown error")
        (if sent.1 then some false else none, { sent.2 with rep := rest })
      | some _ =>
        let sent := result.2.reply []
        if sent.1 then processEnvelopeRep rest sent.2
        else (none, { sent.2 with rep := rest })

/-- The first part of `Pump`: whether the second is reached. -/
def pumpPull (w : StoreWriter) : Bool × StoreWriter :=
  if w.pull = [] then (true, w)
  else
    let result := processEnvelopePull w.pull w
    (result.1 = some true, result.2)

/-- The second part of `Pump`. A REP socket is not ready for reading while a
request waits for its reply. -/
def pumpRep (w : StoreWriter) : StoreWriter :=
  if w.rep = [] ∨ w.pending ≠ none then w else (processEnvelopeRep w.rep w).2

/-- `Pump`. -/
def pump (w : StoreWriter) : StoreWriter :=
  if w.pumpPull.1 then w.pumpPull.2.pumpRep else w.pumpPull.2

/-- Messages that arrive between two calls of `Pump`. -/
structure Arrivals where
  pull : List Frame
  rep : List Request

def arrive (w : StoreWriter) (arrivals : Arrivals) : StoreWriter :=
  { w with pull := w.pull ++ arrivals.pull, rep := w.rep ++ arrivals.rep }

/-- `Pump` is called after each group of arrivals. -/
def run (w : StoreWriter) : List Arrivals → StoreWriter
  | [] => w
  | arrivals :: rest => run (w.arrive arrivals).pump rest

end StoreWriter

/-! ## The sender -/

namespace StoreWriterSender

/-- A call of `DeliverEnvelope` or `WriteEnvelope`. -/
structure Call where
  sender : Nat
  bucket : Bytes
  set : Bytes
  e : Envelope
  deriving DecidableEq

/-- The parts both methods send. -/
def parts (call : Call) : List Bytes :=
  [Store.streamsetPath call.bucket call.set, ZeroMQ.encode call.e false]

/-- What `WriteEnvelope` returns for a reply, unless it throws: the socket refuses a
`recv` behind the reply. -/
def acknowledged (reply : Bytes) : Option Bool :=
  match ZeroMQ.receiveMessage (ZeroMQ.multipart [reply]) with
  | none => none
  | some (container, _) =>
    match container.messages with
    | [message] => some (message.length = 0)
    | _ => some false

end StoreWriterSender

/-- Senders and a store writer. -/
structure Delivery where
  writer : StoreWriter
  /-- the calls that were made -/
  calls : List StoreWriterSender.Call := []
  /-- the call of `WriteEnvelope` that a sender is in -/
  waiting : Nat → Option StoreWriterSender.Call := fun _ => none
  /-- what calls of `WriteEnvelope` returned, `none` if they threw -/
  returned : List (StoreWriterSender.Call × Option Bool) := []

namespace Delivery

/-- What the senders and the writer do. -/
inductive Step where
  | deliverEnvelope (call : StoreWriterSender.Call)
  | writeEnvelope (call : StoreWriterSender.Call)
  | pump

/-- A reply ends the call of its client. -/
def answer (d : Delivery) : RepEvent → Delivery
  | .sent client reply =>
    match d.waiting client with
    | none => d
    | some call =>
      { d with
        waiting := fun sender => if sender = client then none else d.waiting sender
        returned := d.returned ++ [(call, StoreWriterSender.acknowledged reply)] }
  | _ => d

/-- One step. A sender that waits for a reply makes no call. -/
def step (d : Delivery) : Step → Delivery
  | .deliverEnvelope call =>
    if d.waiting call.sender ≠ none then d
    else
      { d with
        calls := d.calls ++ [call]
        writer := { d.writer with
          pull := d.writer.pull ++ ZeroMQ.multipart (StoreWriterSender.parts call) } }
  | .writeEnvelope call =>
    if d.waiting call.sender ≠ none then d
    else
      { d with
        calls := d.calls ++ [call]
        waiting := fun sender => if sender = call.sender then some call else d.waiting sender
        writer := { d.writer with
          rep := d.writer.rep ++
            [⟨call.sender, StoreWriterSender.parts call, List.cons_ne_nil _ _⟩] } }
  | .pump =>
    let writer := d.writer.pump
    (writer.events.drop d.writer.events.length).foldl answer { d with writer := writer }

def run (d : Delivery) (steps : List Step) : Delivery := steps.foldl step d

end Delivery

end Zippylog
