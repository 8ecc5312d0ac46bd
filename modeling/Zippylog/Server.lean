import Zippylog.Polling
import Zippylog.ServerLog

/-!
# The server device

`Start`, `Pump`, `CheckDevices`, `Shutdown` and the handlers of `server.cpp`.

- A socket that is polled is the frames that wait on it, and a socket that is sent on is the
  frames that were sent. What arrives arrives whole. The calls are those that return:
  `TransferMessage` sends with a blocking `send`, which on a socket without a peer does not
  (`pumpBlocks`), and a call that returns has sent what it took.
- Which operation throws, which timers are due, which devices run and the clock are given with
  each call.
- The devices stop when they are told to.
- `server.proto` is here as far as the server writes it to its log.

`Server.polling` is what the sockets are for: queues of messages that are polled in an order.
-/

namespace Zippylog

open Wire

namespace Server

/-! ## The log messages of the server -/

/-- The messages of `server.proto` that the server logs, behind their `id`. -/
inductive LogRecord where
  | create (storePath : Bytes) (listenEndpoints : List Bytes)
  | runStart
  | runFinish
  | flushOutputStreams
  | receiveClientMessage
  | sendClientMessage
  deriving DecidableEq

namespace LogRecord

/-- `zippylog_enumeration`. -/
def enumeration : LogRecord → UInt32
  | create _ _ => 120
  | runStart => 122
  | runFinish => 123
  | flushOutputStreams => 124
  | receiveClientMessage => 125
  | sendClientMessage => 126

theorem fieldNumber_id : FieldNumber 1 := by decide

theorem fieldNumber_storePath : FieldNumber 2 := by decide

theorem fieldNumber_listenEndpoints : FieldNumber 3 := by decide

/-- The message behind `set_id`. -/
def serialize (id : Bytes) (record : LogRecord) : Bytes :=
  encodeFields (bytesField 1 (some id) fieldNumber_id ++
    match record with
    | create storePath listenEndpoints =>
      bytesField 2 (some storePath) fieldNumber_storePath ++
        bytesFields 3 listenEndpoints fieldNumber_listenEndpoints
    | runStart | runFinish | flushOutputStreams | receiveClientMessage | sendClientMessage => [])

/-- The envelope of `LOG_MESSAGE`. -/
def envelope (id : Bytes) (now : UInt64) (record : LogRecord) : Envelope :=
  { Envelope.new now with
    message := [record.serialize id]
    messageNamespace := [messageNamespace]
    messageType := [record.enumeration] }

/-- The parts of the log message. `log_client_sock` is passed as a pointer: an empty part is in
front. -/
def parts (id : Bytes) (now : UInt64) (record : LogRecord) : List Bytes :=
  [[], ZeroMQ.encode (record.envelope id now) false]

end LogRecord

/-! ## The server -/

/-- The sockets that `Pump` polls. -/
inductive Source where
  | clients
  | worker
  | streaming
  | workerSubscriptions
  | streamingNotify
  | logger
  | storeChangesInput
  deriving DecidableEq

/-- The sockets that `Pump` forwards to. -/
inductive Sink where
  | clients
  | workers
  | streamingSubscriptions
  | streamingStreamingNotify
  | storeChangesOutput
  deriving DecidableEq

/-- A device that the server has made: it is constructed, or `RunAsync` has returned. -/
inductive Child where
  | constructed
  | async
  deriving DecidableEq

/-- `log_client_sock`. -/
inductive LogClient where
  | null
  | created
  | connected
  deriving DecidableEq

/-- The devices whose `IsRunning` is asked for. -/
inductive DeviceId where
  | storeWriter
  | storeWatcher
  | requestProcessor (i : Nat)
  | persistedStateReactor (i : Nat)

/-- What a call of the server throws, or that it uses what is not there. -/
inductive Failure where
  /-- an exception of 0MQ, of a constructor or of `RunAsync` -/
  | raised
  | generic (what : String)
  | undefinedBehavior
  deriving DecidableEq

end Server

/-- The server. `store` is its store, as far as the server writes its log to it. -/
structure Server where
  id : Bytes
  storePath : Bytes
  listenEndpoints : List Bytes
  numberWorkerThreads : UInt32
  numberPersistedReactorThreads : UInt32
  store : ServerLog
  startStarted : Bool := false
  initialized : Bool := false
  /-- `active` is signaled. It is not the semaphore that `Device::Run` tests. -/
  active : Bool := false
  storeWriter : Option Server.Child := none
  storeWatcher : Option Server.Child := none
  requestProcessors : Nat := 0
  persistedStateReactors : Nat := 0
  logClientSock : Server.LogClient := .null
  waiting : Server.Source → List Frame := fun _ => []
  sent : Server.Sink → List Frame := fun _ => []

namespace Server

/-- What is sent to the logger socket. -/
def sendLog (now : UInt64) (record : LogRecord) (s : Server) : Server :=
  { s with
    waiting := Function.update s.waiting .logger
      (s.waiting .logger ++ ZeroMQ.multipart (record.parts s.id now)) }

/-- `LOG_MESSAGE`. It does not wait for a peer of the socket. -/
def logMessage (now : UInt64) (record : LogRecord) (s : Server) : Server × Option Failure :=
  match s.logClientSock with
  | .null => (s, some .undefinedBehavior)
  | .created => (s, none)
  | .connected => (s.sendLog now record, none)

/-! ## `Start` -/

/-- The operations of `Start`. -/
inductive StartOp where
  | newLoggerSock | bindLoggerSock
  | newLogClientSock | connectLogClientSock
  | newWorkersSock | bindWorkersSock
  | newStreamingSock | bindStreamingSock
  | newWorkerSubscriptionsSock | bindWorkerSubscriptionsSock
  | newWorkerStreamingNotifySock | bindWorkerStreamingNotifySock
  | newStreamingSubscriptionsSock | bindStreamingSubscriptionsSock
  | newStreamingStreamingNotifySock | bindStreamingStreamingNotifySock
  | newStoreChangesInputSock | bindStoreChangesInputSock
  | newStoreChangesOutputSock | bindStoreChangesOutputSock
  | newStoreWriter | runStoreWriter
  | newStoreWatcher | runStoreWatcher
  | createRequestProcessorDevice
  | createPersistedStateReactorDevice
  | newClientsSock | bindClientsSock (endpoint : Bytes)
  | startStreamFlushTimer
  | startThreadCheckTimer

/-- The operations in their order. The `int` counters of the loops reach zero from any `uint32`. -/
def startOps (s : Server) : List StartOp :=
  [.newLoggerSock, .bindLoggerSock, .newLogClientSock, .connectLogClientSock,
    .newWorkersSock, .bindWorkersSock, .newStreamingSock, .bindStreamingSock,
    .newWorkerSubscriptionsSock, .bindWorkerSubscriptionsSock,
    .newWorkerStreamingNotifySock, .bindWorkerStreamingNotifySock,
    .newStreamingSubscriptionsSock, .bindStreamingSubscriptionsSock,
    .newStreamingStreamingNotifySock, .bindStreamingStreamingNotifySock,
    .newStoreChangesInputSock, .bindStoreChangesInputSock,
    .newStoreChangesOutputSock, .bindStoreChangesOutputSock,
    .newStoreWriter, .runStoreWriter, .newStoreWatcher, .runStoreWatcher] ++
  List.replicate s.numberWorkerThreads.toNat .createRequestProcessorDevice ++
  List.replicate s.numberPersistedReactorThreads.toNat .createPersistedStateReactorDevice ++
  [.newClientsSock] ++ s.listenEndpoints.map .bindClientsSock ++
  [.startStreamFlushTimer, .startThreadCheckTimer]

/-- An operation that succeeds. A device whose `RunAsync` throws is not among the devices. -/
def StartOp.apply (s : Server) : StartOp → Server
  | .newLogClientSock => { s with logClientSock := .created }
  | .connectLogClientSock => { s with logClientSock := .connected }
  | .newStoreWriter => { s with storeWriter := some .constructed }
  | .runStoreWriter => { s with storeWriter := some .async }
  | .newStoreWatcher => { s with storeWatcher := some .constructed }
  | .runStoreWatcher => { s with storeWatcher := some .async }
  | .createRequestProcessorDevice => { s with requestProcessors := s.requestProcessors + 1 }
  | .createPersistedStateReactorDevice =>
    { s with persistedStateReactors := s.persistedStateReactors + 1 }
  | _ => s

/-- What an operation throws. -/
def StartOp.failure : StartOp → Failure
  | .startStreamFlushTimer => .generic "could not start stream flush timer"
  | .startThreadCheckTimer => .generic "TODO handle failure to start time"
  | _ => .raised

/-- Operations one after the other. The first of which `throws` holds ends them. -/
def runOps (throws : Nat → Bool) : Nat → List StartOp → Server → Server × Option Failure
  | _, [], s => (s, none)
  | n, op :: ops, s =>
    if throws n then (s, some op.failure) else runOps throws (n + 1) ops (op.apply s)

/-- `Start`. -/
def start (throws : Nat → Bool) (s : Server) : Server × Option Failure :=
  if s.startStarted && !s.initialized then
    (s, some (.generic "Start() already called but it hasn't finished yet"))
  else if s.initialized then (s, none)
  else
    match runOps throws 0 s.startOps { s with startStarted := true, active := false } with
    | (s, some failure) => (s, some failure)
    | (s, none) => ({ s with initialized := true }, none)

/-! ## `Shutdown` and `CheckDevices` -/

/-- `StopAsync` of a device without a thread. -/
def notAsync : Failure := .generic "device is not running asynchronously"

/-- `Shutdown`. -/
def shutdown (s : Server) : Server × Option Failure :=
  let s := { s with active := true, requestProcessors := 0, persistedStateReactors := 0 }
  if s.storeWatcher = some .constructed then (s, some notAsync)
  else
    let s := { s with storeWatcher := none }
    if s.storeWriter = some .constructed then (s, some notAsync)
    else ({ s with storeWriter := none }, none)

/-- Every device is there and `IsRunning`. -/
def devicesRunning (running : DeviceId → Bool) (s : Server) : Bool :=
  s.storeWriter.isSome && running .storeWriter && s.storeWatcher.isSome && running .storeWatcher &&
    (List.range s.requestProcessors).all (fun i => running (.requestProcessor i)) &&
    (List.range s.persistedStateReactors).all fun i => running (.persistedStateReactor i)

/-- `CheckDevices`. -/
def checkDevices (running : DeviceId → Bool) (s : Server) : Server × Option Failure :=
  if s.devicesRunning running then (s, none) else s.shutdown

/-! ## `Pump` -/

/-- What a call of `Pump` meets: the timers that are due and whether they can be started again,
the devices that run, whether `poll` returns, the clock of the log messages, and the hour at which
each frame of a log message is written. -/
structure PumpInput where
  flushSignaled : Bool
  flushStarts : Bool
  checkSignaled : Bool
  checkStarts : Bool
  running : DeviceId → Bool
  polled : Bool
  now : UInt64
  hours : Nat → Int

/-- `PumpResult`. -/
structure PumpResult where
  isError : Bool
  deriving DecidableEq

/-- The branch for `stream_flush_timer`. -/
def flushTimer (input : PumpInput) (s : Server) : Server × Option Failure :=
  if input.flushSignaled then
    let s := s.sendLog input.now .flushOutputStreams
    let s := { s with store := s.store.step .flushOutputStreams }
    if input.flushStarts then (s, none)
    else (s, some (.generic "could not restart stream flush timer"))
  else (s, none)

/-- The branch for `thread_check_timer`. -/
def checkTimer (input : PumpInput) (s : Server) : Server × Option Failure :=
  if input.checkSignaled then
    match s.checkDevices input.running with
    | (s, some failure) => (s, some failure)
    | (s, none) =>
      if input.checkStarts then (s, none)
      else (s, some (.generic "TODO handle failure of timer to start"))
  else (s, none)

/-- The loop of the logger branch, at frame `i` of a message: the store, the frames that are
left, and whether `recv` found no frame. -/
def receiveLog (hours : Nat → Int) :
    Nat → List Frame → ServerLog → ServerLog × List Frame × Bool
  | _, [], store => (store, [], true)
  | i, f :: fs, store =>
    let store := if store.writeLogs then store.writeEnvelope (hours i) f.data else store
    if f.more then receiveLog hours (i + 1) fs store else (store, fs, false)

/-- `TransferMessage` between two of the sockets; `none` is that it returns false. -/
def transfer (source : Source) (sink : Sink) (s : Server) : Option Server :=
  (ZeroMQ.transferMessage (s.waiting source)).map fun (message, rest) =>
    { s with
      waiting := Function.update s.waiting source rest
      sent := Function.update s.sent sink (s.sent sink ++ message) }

/-- The sockets in the order of the branches of `Pump`. -/
def order : List Source :=
  [.logger, .worker, .streaming, .workerSubscriptions, .storeChangesInput, .streamingNotify,
    .clients]

/-- The branch of `Pump` for a socket, and whether it is an error. -/
def serve (input : PumpInput) (s : Server) : Source → Server × Bool
  | .logger =>
    let (store, rest, error) := receiveLog input.hours 0 (s.waiting .logger) s.store
    ({ s with store := store, waiting := Function.update s.waiting .logger rest }, error)
  | .worker =>
    match s.transfer .worker .clients with
    | some s => (s.sendLog input.now .sendClientMessage, false)
    | none => (s, false)
  | .streaming =>
    match s.transfer .streaming .clients with
    | some s => (s.sendLog input.now .sendClientMessage, false)
    | none => (s, false)
  | .workerSubscriptions =>
    ((s.transfer .workerSubscriptions .streamingSubscriptions).getD s, false)
  | .storeChangesInput => ((s.transfer .storeChangesInput .storeChangesOutput).getD s, false)
  | .streamingNotify => ((s.transfer .streamingNotify .streamingStreamingNotify).getD s, false)
  | .clients =>
    match s.transfer .clients .workers with
    | some s => (s.sendLog input.now .receiveClientMessage, false)
    | none => (s, false)

/-- `Pump`. The timers and the sockets are there once `Start` has returned. -/
def pump (input : PumpInput) (s : Server) : Server × Except Failure PumpResult :=
  if !s.initialized then (s, .error .undefinedBehavior)
  else
    match s.flushTimer input with
    | (s, some failure) => (s, .error failure)
    | (s, none) =>
      match s.checkTimer input with
      | (s, some failure) => (s, .error failure)
      | (s, none) =>
        if !input.polled then (s, .error .raised)
        else
          -- one message of the first socket that has one
          match order.find? fun source => !(s.waiting source).isEmpty with
          | none => (s, .ok ⟨false⟩)
          | some source =>
            let (s, error) := s.serve input source
            (s, .ok ⟨error⟩)

/-! ## The handlers -/

def onFirstRun (throws : Nat → Bool) (now : UInt64) (s : Server) : Server × Option Failure :=
  match s.start throws with
  | (s, some failure) => (s, some failure)
  | (s, none) => s.logMessage now (.create s.storePath s.listenEndpoints)

def onRunStart (throws : Nat → Bool) (now : UInt64) (s : Server) : Server × Option Failure :=
  match s.start throws with
  | (s, some failure) => (s, some failure)
  | (s, none) => s.logMessage now .runStart

def onRunFinish (now : UInt64) (s : Server) : Server × Option Failure :=
  match s.shutdown with
  | (s, some failure) => (s, some failure)
  | (s, none) => s.logMessage now .runFinish

/-! ## Runs -/

/-- A whole message. -/
abbrev Message : Type := { parts : List Bytes // parts ≠ [] }

/-- The frames of messages. -/
def frames (ms : List Message) : List Frame := ms.flatMap fun m => ZeroMQ.multipart m.val

/-- What happens to a server: a message arrives on a socket, the library writes out a part of a
buffer of the store, or there is a call. -/
inductive Action where
  | arrive (source : Source) (m : Message)
  | spill (hour : Int) (n : Nat)
  | start (throws : Nat → Bool)
  | pump (input : PumpInput)
  | shutdown
  | onFirstRun (throws : Nat → Bool) (now : UInt64)
  | onRunStart (throws : Nat → Bool) (now : UInt64)
  | onRunFinish (now : UInt64)

/-- A message arrives. -/
def arrive (source : Source) (m : Message) (s : Server) : Server :=
  { s with
    waiting := Function.update s.waiting source (s.waiting source ++ ZeroMQ.multipart m.val) }

def step (s : Server) : Action → Server
  | .arrive source m => s.arrive source m
  | .spill hour n => { s with store := s.store.step (.spill hour n) }
  | .start throws => (s.start throws).1
  | .pump input => (s.pump input).1
  | .shutdown => s.shutdown.1
  | .onFirstRun throws now => (s.onFirstRun throws now).1
  | .onRunStart throws now => (s.onRunStart throws now).1
  | .onRunFinish now => (s.onRunFinish now).1

def run (s : Server) (actions : List Action) : Server := actions.foldl step s

/-- What arrives on a socket. -/
def arrivals (source : Source) (actions : List Action) : List Message :=
  actions.filterMap fun
    | .arrive source' m => if source' = source then some m else none
    | _ => none

/-! ## The queues of the server -/

/-- Where the messages of a socket are forwarded to. -/
def Source.sink? : Source → Option Sink
  | clients => some .workers
  | worker | streaming => some .clients
  | workerSubscriptions => some .streamingSubscriptions
  | streamingNotify => some .streamingStreamingNotify
  | logger => none
  | storeChangesInput => some .storeChangesOutput

/-- What is logged about a message that was forwarded. -/
def Source.record? : Source → Option LogRecord
  | clients => some .receiveClientMessage
  | worker | streaming => some .sendClientMessage
  | workerSubscriptions | streamingNotify | logger | storeChangesInput => none

/-- A send on the socket waits for a peer that is not there: the peers of these two are the
devices, and of the other sockets what nobody receives is dropped. -/
def lacksPeer (s : Server) : Sink → Bool
  | .workers => s.requestProcessors = 0
  | .streamingSubscriptions => s.persistedStateReactors = 0
  | .clients | .streamingStreamingNotify | .storeChangesOutput => false

/-- A call of `Pump` that polls does not return: behind the timers, it takes a message for a
socket without a peer. -/
def pumpBlocks (input : PumpInput) (s : Server) : Bool :=
  let s := ((s.flushTimer input).1.checkTimer input).1
  match order.find? fun source => !(s.waiting source).isEmpty with
  | none => false
  | some source => source.sink?.any s.lacksPeer

def LogRecord.toMessage (id : Bytes) (now : UInt64) (record : LogRecord) : Message :=
  ⟨record.parts id now, List.cons_ne_nil _ _⟩

/-- **What the sockets are for**: a message that is taken is gone, and the server logs those of
clients and to clients. -/
def polling (id : Bytes) : Polling Source Message UInt64 where
  order := order
  nodup := by decide
  complete source := by cases source <;> decide
  causes now source _ :=
    source.record?.toList.map fun record => (.logger, record.toMessage id now)
  polls source _ := if source.record?.isSome then 2 else 1
  polls_eq now source _ := by cases source <;> rfl

end Server

end Zippylog
