import Zippylog.Lua
import Zippylog.Store
import Zippylog.ZeroMQ

/-!
# The request processor

`request_processor.cpp`, as far as it answers requests: the checks of the envelope and the message,
the routine for each type of request, and the loop of `ProcessGetStream` over the records of a
stream.

- `output` is the vector that the routines fill, and `calls` records the calls to the
  `RequestProcessorImplementation`; together they are the `Trace` of a request.
- A handler is an arbitrary function that may throw. What it can return is what the `Make...`
  functions build (`HandlerResult`).
- The store is as its readers see it, the names in it and the files behind them.
- One reading of the clock stands for all readings made for one request.
- The Lua interpreter is a parameter.
- Log messages are left out.
-/

namespace Zippylog

open Wire

/-- `RequestProcessorResponseStatus`. -/
inductive ResponseStatus where
  | authoritative
  | deferred
  deriving DecidableEq

inductive SubscriptionType where
  | envelope
  | storeChange
  | unknown
  deriving DecidableEq

structure SubscriptionInfo where
  type : SubscriptionType := .unknown
  id : Bytes := []
  paths : List Bytes := []
  luaCode : Bytes := []
  socketIdentifiers : List Bytes := []
  envelopeFilterNamespaces : List UInt32 := []
  envelopeFilterEnumerations : List (UInt32 × UInt32) := []
  deriving DecidableEq

/-! ## Handlers -/

/-- `RequestProcessorHandlerResult`: its fields are only ever set by the `Make...`
functions, so a value is one of these. `MakePluginStatus` throws. -/
inductive HandlerResult where
  | makeSynchronous
  | makeError (code : ErrorCode) (message : Bytes)
  | makeDeferred
  | makeSubscriptionAccepted (id : Bytes) (ttl : UInt32)
  | makeSubscriptionRejected (reason : Bytes)
  | makeWriteResult (written : UInt32)
  deriving DecidableEq

namespace HandlerResult

def deferred : HandlerResult → Bool
  | makeDeferred => true
  | _ => false

end HandlerResult

/-- The handlers that some routine calls. -/
structure RequestProcessorImplementation where
  handleSubscriptionRequest : SubscriptionInfo → Except Exn HandlerResult
  handleSubscribeKeepalive : Envelope → List Envelope → Except Exn HandlerResult × List Envelope
  handleWriteEnvelopes : Bytes → List Envelope → Bool → Except Exn HandlerResult

/-- A call to a handler. -/
inductive HandlerCall where
  | handleSubscriptionRequest (subscription : SubscriptionInfo)
  | handleSubscribeKeepalive (request : Envelope)
  | handleWriteEnvelopes (path : Bytes) (toWrite : List Envelope) (waitForWrite : Bool)
  deriving DecidableEq

structure RequestProcessor where
  store : Store
  impl : RequestProcessorImplementation
  getStreamMaxBytes : UInt32
  getStreamMaxEnvelopes : UInt32
  lua : Lua.Interpreter
  luaMemoryMax : UInt32 := 65535
  now : UInt64
  currentRequestIdentities : List Bytes := []

/-- The output and the handler calls of a request so far. -/
structure Trace where
  output : List Envelope := []
  calls : List HandlerCall := []

namespace Trace

def push (t : Trace) (e : Envelope) : Trace := { t with output := t.output ++ [e] }

def call (t : Trace) (c : HandlerCall) : Trace := { t with calls := t.calls ++ [c] }

end Trace

namespace RequestProcessor

/-- A new envelope with one message. -/
def respond (p : RequestProcessor) (m : Message) : Envelope := Envelope.ofMessage p.now m

/-- `PopulateErrorResponse`. -/
def populateErrorResponse (p : RequestProcessor) (code : ErrorCode) (message : Bytes) (t : Trace) :
    Trace :=
  t.push (p.respond (.error (some code) (some message)))

/-- `CheckPath`. -/
def checkPath (p : RequestProcessor) (path : Bytes) (t : Trace)
    (requireBucket requireSet requireStream : Bool) : Bool × Trace :=
  match Store.parsePath path with
  | none => (false, p.populateErrorResponse .invalidPath (str "supplied path does not parse") t)
  | some (bucket, set, stream) =>
    if requireBucket && bucket.isEmpty then
      (false, p.populateErrorResponse .invalidPath
        (str "path does not contain a bucket component") t)
    else if requireSet && set.isEmpty then
      (false, p.populateErrorResponse .invalidPath
        (str "path does not contain a stream set component") t)
    else if requireStream && stream.isEmpty then
      (false, p.populateErrorResponse .invalidPath
        (str "path does not contain a stream component") t)
    else if requireBucket && !p.store.bucketExists bucket then
      (false, p.populateErrorResponse .pathNotFound (str "bucket does not exist") t)
    else if requireSet && !p.store.streamSetExists bucket set then
      (false, p.populateErrorResponse .pathNotFound (str "stream set does not exist") t)
    else if requireStream && !p.store.streamExists bucket set stream then
      (false, p.populateErrorResponse .pathNotFound (str "stream does not exist") t)
    else (true, t)

/-- What a routine returns, and the trace. -/
abbrev Processed := Except Fault ResponseStatus × Trace

/-- `if (!CheckPath(...)) goto LOG_END`, and what follows. -/
def checkPathThen (p : RequestProcessor) (path : Bytes) (t : Trace)
    (requireBucket requireSet requireStream : Bool) (k : Trace → Processed) : Processed :=
  match p.checkPath path t requireBucket requireSet requireStream with
  | (false, t) => (.ok .authoritative, t)
  | (true, t) => k t

/-- The failure branch of `OBTAIN_MESSAGE`. -/
def messageFailure (p : RequestProcessor) (t : Trace) : Trace :=
  p.populateErrorResponse .unknownRequestType (str "error parsing message in envelope") t

/-! ## Information requests -/

/-- `ProcessPing`. -/
def processPing (p : RequestProcessor) (t : Trace) : Processed :=
  (.ok .authoritative, t.push (p.respond .pongV1))

/-- `ProcessFeatures`. -/
def processFeatures (p : RequestProcessor) (t : Trace) : Processed :=
  (.ok .authoritative, t.push (p.respond (.featureSpecificationV1 {
    supportedMessageFormats := [1]
    supportedRequestTypes := [MessageType.pingV1, .getFeaturesV1, .getStoreInfoV1,
      .getBucketInfoV1, .getStreamSetInfoV1, .getStreamInfoV1, .getStreamSegmentV1,
      .writeEnvelopeV1, .writeEnvelopeFromMessagesV1, .subscribeStoreChangesV1,
      .subscribeEnvelopesV1, .subscribeKeepaliveV1, .subscribeCancelV1].map
        MessageType.enumeration
    supportedRequestNames := ["PingV1", "GetFeaturesV1", "GetStoreInfoV1", "GetBucketInfoV1",
      "GetStreamSetInfoV1", "GetStreamInfoV1", "GetStreamSegmentV1", "WriteEnvelopeV1",
      "WriteEnvelopeFromMessagesV1", "SubscribeStoreChangesV1", "SubscribeEnvelopesV1",
      "SubscribeKeepaliveV1", "SubscribeCancelV1"].map str
    maxStreamSegmentBytes := some p.getStreamMaxBytes
    maxStreamSegmentEnvelopes := some p.getStreamMaxEnvelopes })))

/-- `ProcessStoreInfo`. -/
def processStoreInfo (p : RequestProcessor) (e : Envelope) (t : Trace) : Processed :=
  match e.getMessage 0 with
  | none => (.ok .authoritative, p.messageFailure t)
  | some _ => (.ok .authoritative, t.push (p.respond (.storeInfoV1 p.store.storeInfo)))

/-- `ProcessBucketInfo`. -/
def processBucketInfo (p : RequestProcessor) (e : Envelope) (t : Trace) : Processed :=
  match e.getMessage 0 with
  | none => (.ok .authoritative, p.messageFailure t)
  | some (.getBucketInfoV1 path) =>
    p.checkPathThen path t true false false fun t =>
      let bucket := ((Store.parsePath path).getD ([], [], [])).1
      (.ok .authoritative, t.push (p.respond (.bucketInfoV1 (p.store.bucketInfo bucket))))
  | some _ => (.error .undefinedBehavior, t)

/-- `ProcessStreamSetInfo`. -/
def processStreamSetInfo (p : RequestProcessor) (e : Envelope) (t : Trace) : Processed :=
  match e.getMessage 0 with
  | none => (.ok .authoritative, p.messageFailure t)
  | some (.getStreamSetInfoV1 path) =>
    p.checkPathThen path t true true false fun t =>
      let (bucket, set, _) := (Store.parsePath path).getD ([], [], [])
      (.ok .authoritative,
        t.push (p.respond (.streamSetInfoV1 (p.store.streamsetInfo bucket set))))
  | some _ => (.error .undefinedBehavior, t)

/-- `ProcessStreamInfo`. -/
def processStreamInfo (p : RequestProcessor) (e : Envelope) (t : Trace) : Processed :=
  match e.getMessage 0 with
  | none => (.ok .authoritative, p.messageFailure t)
  | some (.getStreamInfoV1 path) =>
    p.checkPathThen path t true true true fun t =>
      let (bucket, set, stream) := (Store.parsePath path).getD ([], [], [])
      (.ok .authoritative,
        t.push (p.respond (.streamInfoV1 (p.store.streamInfo bucket set stream))))
  | some _ => (.error .undefinedBehavior, t)

/-! ## Stream segments -/

/-- The state of the loop of `ProcessGetStream`. -/
structure Segment where
  stream : InputStream
  output : List Envelope
  bytesRead : UInt32
  envelopesRead : UInt32

/-- The loop of `ProcessGetStream`. Its first argument is `envelopes_left`, which
is not zero where the loop is entered and at least one where it goes round. -/
def getStreamLoop : Nat → UInt32 → Segment → Segment
  | 0, _, g => g
  | envelopesLeft + 1, bytesLeft, g =>
    let (size, stream) := g.stream.nextEnvelopeSize
    if size = 0 then { g with stream := stream }
    else match stream.readEnvelope with
      | (none, _, stream) => { g with stream := stream }
      | (some env, size, stream) =>
        let g : Segment := ⟨stream, g.output ++ [env], g.bytesRead + size, g.envelopesRead + 1⟩
        if bytesLeft < size then g
        else if envelopesLeft = 0 then g
        else getStreamLoop envelopesLeft (bytesLeft - size) g

/-- A client can lower a limit of the server. -/
def lowerLimit (server : UInt32) (client : Option UInt32) : UInt32 :=
  match client with
  | some n => if n < server then n else server
  | none => server

/-- `ProcessGetStream` once the stream is open at the requested offset. -/
def sendSegment (p : RequestProcessor) (request : Envelope) (get : GetStreamSegmentV1)
    (stream : InputStream) (t : Trace) : Trace :=
  let bytesLeft := lowerLimit p.getStreamMaxBytes get.maxResponseBytes
  let envelopesLeft := lowerLimit p.getStreamMaxEnvelopes get.maxResponseEnvelopes
  let noEnvelopes := p.populateErrorResponse .invalidStreamOffset
    (str "no envelopes found at requested stream offset") t
  let (size, stream) := stream.nextEnvelopeSize
  if size = 0 then noEnvelopes
  else match stream.readEnvelope with
    | (none, _, _) => noEnvelopes
    | (some env, size, stream) =>
      let start := (p.respond (.streamSegmentStartV1 ⟨get.path, get.startOffset⟩)).addTags
        request.tag
      let first : Segment := ⟨stream, [env], size, 1⟩
      let envelopesLeft := envelopesLeft - 1
      let g := if size < bytesLeft ∧ envelopesLeft ≠ 0 then
          getStreamLoop envelopesLeft.toNat (bytesLeft - size) first
        else first
      let finish := p.respond (.streamSegmentEndV1
        ⟨UInt64.ofInt g.stream.offset, g.bytesRead, g.envelopesRead⟩)
      { t with output := t.output ++ start :: g.output ++ [finish] }

/-- A `uint64` passed as an `int64`. -/
def toInt64 (n : UInt64) : Int := (n.toNat : Int).bmod (2 ^ 64)

/-- `ProcessGetStream`. -/
def processGetStream (p : RequestProcessor) (request : Envelope) (t : Trace) : Processed :=
  match request.getMessage 0 with
  | none =>
    (.ok .authoritative,
      p.populateErrorResponse .unknownRequestType (str "error parsing get message... weird") t)
  | some (.getStreamSegmentV1 get) =>
    p.checkPathThen get.path t true true true fun t =>
      match p.store.getInputStream get.path with
      | none =>
        (.ok .authoritative,
          p.populateErrorResponse .pathNotFound (str "requested stream could not be found") t)
      | some (.error e) => (.error (.exception e), t)
      | some (.ok stream) =>
        if get.startOffset = 0 then
          (.ok .authoritative, p.sendSegment request get stream t)
        else match stream.setAbsoluteOffset (toInt64 get.startOffset) with
          | .error e => (.error (.exception e), t)
          | .ok stream => (.ok .authoritative, p.sendSegment request get stream t)
  | some _ => (.error .undefinedBehavior, t)

/-! ## Subscriptions -/

/-- `CallHandleSubscriptionRequest`. -/
def callHandleSubscriptionRequest (p : RequestProcessor) (subscription : SubscriptionInfo)
    (t : Trace) : Except Fault Unit × Trace :=
  let subscription :=
    { subscription with socketIdentifiers := p.currentRequestIdentities.drop 1 }
  let t := t.call (.handleSubscriptionRequest subscription)
  match p.impl.handleSubscriptionRequest subscription with
  | .error e => (.error (.exception e), t)
  | .ok .makeDeferred => (.ok (), t)
  | .ok (.makeError code message) => (.ok (), p.populateErrorResponse code message t)
  | .ok (.makeSubscriptionAccepted id ttl) =>
    if id.isEmpty then (.ok (), p.populateErrorResponse .subscriptionRejected [] t)
    else (.ok (), t.push (p.respond (.subscriptionAcceptAckV1 ⟨id, ttl⟩)))
  | .ok (.makeSubscriptionRejected reason) =>
    (.ok (), p.populateErrorResponse .subscriptionRejected reason t)
  | .ok .makeSynchronous | .ok (.makeWriteResult _) =>
    (.error (.exception
      (.generic "invalid response seen from request processor implementation")), t)

/-- The paths a subscription is made for. -/
def subscribedPaths (paths : List Bytes) : List Bytes :=
  if paths.isEmpty then [str "/"] else paths

/-- The last part of both subscription routines: the paths are validated, no path
is the whole store, and the handler is called. -/
def subscribe (p : RequestProcessor) (subscription : SubscriptionInfo) (paths : List Bytes)
    (t : Trace) : Processed :=
  if paths.all Store.validatePath then
    match p.callHandleSubscriptionRequest
      { subscription with paths := subscribedPaths paths } t with
    | (.error f, t) => (.error f, t)
    | (.ok (), t) => (.ok .authoritative, t)
  else (.ok .authoritative, p.populateErrorResponse .invalidPath (str "path not valid") t)

/-- `ProcessSubscribeStoreChanges`. -/
def processSubscribeStoreChanges (p : RequestProcessor) (request : Envelope) (t : Trace) :
    Processed :=
  match request.getMessage 0 with
  | none => (.ok .authoritative, p.messageFailure t)
  | some (.subscribeStoreChangesV1 paths) => p.subscribe { type := .storeChange } paths t
  | some _ => (.error .undefinedBehavior, t)

/-- `LoadLuaCode` as `ProcessSubscribeEnvelopes` calls it. -/
def loadLuaCode (p : RequestProcessor) (code : Bytes) : Except Fault LuaState.Loaded :=
  LuaState.loadLuaCode p.lua p.luaMemoryMax p.now code

/-- `ProcessSubscribeEnvelopes`. -/
def processSubscribeEnvelopes (p : RequestProcessor) (request : Envelope) (t : Trace) :
    Processed :=
  match request.getMessage 0 with
  | none => (.ok .authoritative, p.messageFailure t)
  | some (.subscribeEnvelopesV1 m) =>
    if m.filterEnumerationNamespace.length ≠ m.filterEnumerationType.length then
      (.ok .authoritative, p.populateErrorResponse .fieldLengthsDifferent
        (str ("lengths of filter_enumeration_namespace and filter_enumeration_type " ++
          "are not identical")) t)
    else
      let subscription : SubscriptionInfo := {
        type := .envelope
        envelopeFilterEnumerations :=
          m.filterEnumerationNamespace.zip m.filterEnumerationType
        envelopeFilterNamespaces := m.filterNamespace }
      match m.luaCode with
      | some code =>
        -- `goto LOG_END` is behind the branch for code that does not load
        match p.loadLuaCode code with
        | .error f => (.error f, t)
        | .ok (.failed error) =>
          (.ok .authoritative, p.populateErrorResponse .luaError error t)
        | .ok (.loaded _) => (.ok .authoritative, t)
      | none => p.subscribe subscription m.path t
  | some _ => (.error .undefinedBehavior, t)

/-- `LOG_END` of `ProcessSubscribeKeepalive`: the handler can change the output. -/
def handleKeepalive (p : RequestProcessor) (request : Envelope) (t : Trace) : Processed :=
  let t := t.call (.handleSubscribeKeepalive request)
  match p.impl.handleSubscribeKeepalive request t.output with
  | (.error e, output) => (.error (.exception e), { t with output := output })
  | (.ok result, output) =>
    (.ok (if result.deferred then .deferred else .authoritative), { t with output := output })

/-- `ProcessSubscribeKeepalive`. The handler is also called for a message that
does not parse; `id(0)` is read for a log message. -/
def processSubscribeKeepalive (p : RequestProcessor) (request : Envelope) (t : Trace) :
    Processed :=
  match request.getMessage 0 with
  | none => p.handleKeepalive request (p.messageFailure t)
  | some (.subscribeKeepaliveV1 (_ :: _)) => p.handleKeepalive request t
  | some _ => (.error .undefinedBehavior, t)

/-! ## Writing -/

/-- The envelopes of a write request. An entry that does not parse is skipped, but
an empty one is another exception, which is not caught. -/
def parseEnvelopes : List Bytes → Except Exn (List Envelope)
  | [] => .ok []
  | s :: ss =>
    match Envelope.ofBuffer s with
    | .ok e => (parseEnvelopes ss).map (e :: ·)
    | .error .deserialize => parseEnvelopes ss
    | .error e => .error e

/-- The answer of `ProcessWriteEnvelope` to what the handler returned. -/
def acknowledgeWrite (p : RequestProcessor) (result : HandlerResult) (sendAck : Bool) (t : Trace) :
    Except Fault Unit × Trace :=
  if sendAck && !result.deferred then
    match result with
    | .makeError .. => (.error (.exception (.generic "not implemented")), t)
    | .makeWriteResult written => (.ok (), t.push (p.respond (.writeAckV1 written)))
    | _ =>
      (.error (.exception (.generic
        "return from request processor write envelopes implementation not sane")), t)
  else (.ok (), t)

/-- `ProcessWriteEnvelope` once the request is validated. -/
def writeEnvelopes (p : RequestProcessor) (m : WriteEnvelopeV1) (t : Trace) :
    Except Fault Unit × Trace :=
  let synchronous := m.synchronous.getD false
  let sendAck := m.acknowledge.getD true || synchronous
  match parseEnvelopes m.envelope with
  | .error e => (.error (.exception e), t)
  | .ok [] => p.acknowledgeWrite .makeSynchronous sendAck t
  | .ok (env :: envs) =>
    let t := t.call (.handleWriteEnvelopes m.path (env :: envs) synchronous)
    match p.impl.handleWriteEnvelopes m.path (env :: envs) synchronous with
    | .error e => (.error (.exception e), t)
    | .ok result => p.acknowledgeWrite result sendAck t

/-- The path of a write request: a stream, or a stream set that exists. -/
def checkWritePath (p : RequestProcessor) (path : Bytes) (t : Trace) : Bool × Trace :=
  match Store.parsePath path with
  | none => (false, p.populateErrorResponse .invalidPath (str "invalid path: " ++ path) t)
  | some (_, set, stream) =>
    if stream.isEmpty then
      if set.isEmpty then
        (false, p.populateErrorResponse .invalidPath
          (str "path not to a stream set or stream: " ++ path) t)
      else p.checkPath path t true true false
    else (true, t)

/-- `LOG_END` of `ProcessWriteEnvelope`: without output there is no response. -/
def writeStatus (t : Trace) : ResponseStatus :=
  if t.output.isEmpty then .deferred else .authoritative

/-- `ProcessWriteEnvelope`. -/
def processWriteEnvelope (p : RequestProcessor) (request : Envelope) (t : Trace) : Processed :=
  match request.getMessage 0 with
  | none =>
    let t := p.messageFailure t
    (.ok (writeStatus t), t)
  | some (.writeEnvelopeV1 m) =>
    match p.checkWritePath m.path t with
    | (false, t) => (.ok (writeStatus t), t)
    | (true, t) =>
      if m.envelope.isEmpty then
        let t := p.populateErrorResponse .emptyField
          (str "no envelopes specified in request") t
        (.ok (writeStatus t), t)
      else match p.writeEnvelopes m t with
        | (.error f, t) => (.error f, t)
        | (.ok (), t) => (.ok (writeStatus t), t)
  | some _ => (.error .undefinedBehavior, t)

/-! ## Requests that are not implemented -/

def notImplemented : Fault := .exception (.generic "not implemented")

/-- `ProcessSubscribeCancel`. -/
def processSubscribeCancel (t : Trace) : Processed := (.error notImplemented, t)

/-- `ProcessRegisterPlugin`. -/
def processRegisterPlugin (p : RequestProcessor) (request : Envelope) (t : Trace) : Processed :=
  match request.getMessage 0 with
  | none => (.ok .deferred, p.messageFailure t)
  | some _ => (.error notImplemented, t)

/-- `ProcessUnregisterPlugin`. -/
def processUnregisterPlugin (t : Trace) : Processed := (.error notImplemented, t)

/-- `ProcessPluginStatus`. -/
def processPluginStatus (t : Trace) : Processed := (.error notImplemented, t)

/-! ## Dispatch -/

/-- The default branch of the switch of `ProcessRequest`. -/
def unknownRequest (p : RequestProcessor) (t : Trace) : Processed :=
  (.ok .authoritative, p.populateErrorResponse .unknownRequestType
    (str "server does not know how to process the request") t)

/-- The switch of `ProcessRequest`, by type. -/
def dispatchType (p : RequestProcessor) (type : MessageType) (request : Envelope) (t : Trace) :
    Processed :=
  match type with
  | .pingV1 => p.processPing t
  | .getFeaturesV1 => p.processFeatures t
  | .getStoreInfoV1 => p.processStoreInfo request t
  | .getBucketInfoV1 => p.processBucketInfo request t
  | .getStreamSetInfoV1 => p.processStreamSetInfo request t
  | .getStreamInfoV1 => p.processStreamInfo request t
  | .getStreamSegmentV1 => p.processGetStream request t
  | .subscribeStoreChangesV1 => p.processSubscribeStoreChanges request t
  | .subscribeEnvelopesV1 => p.processSubscribeEnvelopes request t
  | .subscribeKeepaliveV1 => p.processSubscribeKeepalive request t
  | .subscribeCancelV1 => processSubscribeCancel t
  | .writeEnvelopeV1 => p.processWriteEnvelope request t
  | .registerPluginV1 => p.processRegisterPlugin request t
  | .unregisterPluginV1 => processUnregisterPlugin t
  | .getPluginStatusV1 => processPluginStatus t
  | _ => p.unknownRequest t

/-- The switch of `ProcessRequest`. -/
def dispatch (p : RequestProcessor) (requestType : UInt32) (request : Envelope) (t : Trace) :
    Processed :=
  match MessageType.ofEnumeration? requestType with
  | some type => p.dispatchType type request t
  | none => p.unknownRequest t

/-- What `ProcessRequest` does before `SEND_RESPONSE`. -/
def validateAndDispatch (p : RequestProcessor) (request : Envelope) (t : Trace) : Processed :=
  if request.messageCount < 1 then
    (.ok .authoritative,
      p.populateErrorResponse .emptyEnvelope (str "envelope contains no messages") t)
  else match request.messageNamespace, request.messageType with
    | [], _ | _, [] =>
      (.ok .authoritative, p.populateErrorResponse .missingEnumerations
        (str "message received without namespace or type enumerations") t)
    | ns :: _, requestType :: _ =>
      if ns ≠ messageNamespace then
        (.ok .authoritative, p.populateErrorResponse .invalidMessageNamespace
          (str "message namespace is not zippylog's") t)
      else p.dispatch requestType request t

/-- Add the tags of the request to the first envelope of the output. -/
def tagFirst (tags : List Bytes) : List Envelope → List Envelope
  | [] => []
  | e :: es => e.addTags tags :: es

/-- `ProcessRequest`. -/
def processRequest (p : RequestProcessor) (request : Envelope) (t : Trace) : Processed :=
  match p.validateAndDispatch request t with
  | (.ok .authoritative, t) =>
    if t.output.isEmpty then (.error .assertion, t)
    else (.ok .authoritative, { t with output := tagFirst request.tag t.output })
  | r => r

/-- `ProcessMessages` after `ProcessRequest`: an exception becomes an error behind
whatever is in the output. -/
def createOutput (p : RequestProcessor) (request : Envelope) :
    Processed → Except Fault Unit × Trace
  | (.error (.exception _), t) =>
    let t := p.populateErrorResponse .generalErrorProcessing
      (str "exception when processing request") t
    (.ok (), { t with output := tagFirst request.tag t.output })
  | (.error f, t) => (.error f, t)
  | (.ok .authoritative, t) => if t.output.isEmpty then (.error .assertion, t) else (.ok (), t)
  | (.ok .deferred, t) => (.ok (), t)

/-- `ProcessMessages`. -/
def processMessages (p : RequestProcessor) (messages : List Bytes) : Except Fault Unit × Trace :=
  match messages with
  | [] => (.ok (), {})
  | initial :: _ =>
    match initial with
    | [] =>
      (.ok (), p.populateErrorResponse .emptyMessage (str "empty 0MQ message received") {})
    | version :: rest =>
      if version ≠ 1 then
        (.ok (), p.populateErrorResponse .unknownMessageFormatVersion
          (str ("protocol message version not understood. server only supports " ++
            "version 1")) {})
      else if rest.isEmpty then
        (.ok (), p.populateErrorResponse .protocolNoEnvelope
          (str "protocol version 1 0MQ message received without an envelope") {})
      else match Envelope.ofZmqMessage initial 1 with
        | .error _ =>
          (.ok (), p.populateErrorResponse .envelopeParseFailure (str "error parsing envelope") {})
        | .ok request => p.createOutput request (p.processRequest request {})

/-! ## Pump -/

/-- The envelopes after the first as `Pump` sends them: its iterator starts at
`begin()++`, which is `begin()`. -/
def sendRest : List Envelope → List Frame
  | [] => []
  | [e] => ZeroMQ.sendEnvelope e true false
  | e :: es => ZeroMQ.sendEnvelope e true true ++ sendRest es

/-- What `Pump` sends for a list of response envelopes. -/
def sendResponse (identities : List Bytes) : List Envelope → List Frame
  | [] => []
  | e :: es =>
    let sndmore := !es.isEmpty
    ZeroMQ.sendEnvelopeTo identities e true sndmore ++ if sndmore then sendRest (e :: es) else []

/-- `Pump` for a received message: the frames it sends. -/
def pump (p : RequestProcessor) (container : MessageContainer) : Except Fault (List Frame) :=
  match { p with currentRequestIdentities := container.identities }.processMessages
      container.messages with
  | (.error f, _) => .error f
  | (.ok (), t) => .ok (sendResponse container.identities t.output)

end RequestProcessor

end Zippylog
