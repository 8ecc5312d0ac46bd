import Zippylog.Segments

/-!
# What a request comes to

The output of `ProcessMessages`, by what the routine for a request leaves in it. A routine says
whether the request is done, deferred or authoritative, and `ProcessRequest` adds the tags of the
request to the first envelope where it is not deferred. An exception of a handler is caught by
`ProcessMessages`, which is to answer with one error.

- `output_processMessages`: the output, from what the routine returned;
- `Plain`: what all routines but those for keepalives, segments and plugin
  registrations leave, which is nothing or one new envelope;
- `tagged_iff`: when the first envelope has the tags of the request. A segment has them twice, and
  the answer to a plugin registration that does not parse has none;
- `atomic_iff`: when an exception is answered with one error and nothing else. Only the keepalive
  handler is given the output itself, and only it can throw with something in it.
-/

namespace Zippylog

open Wire

/-- The envelope holds an `Error`. -/
def Envelope.IsError (e : Envelope) : Prop :=
  ∃ code message, e.getMessage 0 = some (.error code message)

theorem Envelope.IsError.addTags {e : Envelope} (h : e.IsError) (tags : List Bytes) :
    (e.addTags tags).IsError := by
  obtain ⟨code, message, h⟩ := h
  exact ⟨code, message, (Envelope.getMessage_addTags e tags 0).trans h⟩

namespace RequestProcessor

theorem isError_respond (p : RequestProcessor) (code : Option ErrorCode)
    (message : Option Bytes) : (p.respond (.error code message)).IsError :=
  ⟨code, message, Envelope.getMessage_ofMessage _ _⟩

/-! ## Requests -/

/-- The first of the messages is a frame with the request. -/
def Requests (messages : List Bytes) (request : Envelope) : Prop :=
  ∃ frame rest, messages = (1 :: frame) :: rest ∧
    Envelope.ofZmqMessage (1 :: frame) 1 = .ok request

/-- `ProcessRequest` switches to the routine for this type. -/
structure HasType (request : Envelope) (type : MessageType) : Prop where
  message_ne_nil : request.message ≠ []
  messageNamespace_eq : request.messageNamespace.head? = some messageNamespace
  messageType_eq : request.messageType.head? = some type.enumeration

/-- The message of a request is of the type that the envelope says. -/
theorem HasType.of_getMessage {request : Envelope} {m : Message}
    (h : request.getMessage 0 = some m) : HasType request m.type := by
  obtain ⟨b, bs, nss, types, hb, hns, htype, -⟩ := Envelope.getMessage_zero_eq_some h
  refine ⟨?_, ?_, ?_⟩
  · rw [hb]
    exact List.cons_ne_nil _ _
  · rw [hns]
    rfl
  · rw [htype]
    rfl

theorem HasType.eq {request : Envelope} {type type' : MessageType} (h : HasType request type)
    (h' : HasType request type') : type = type' := by
  have heq := h.messageType_eq.symm.trans h'.messageType_eq
  have hof := congrArg MessageType.ofEnumeration? (Option.some.inj heq)
  rwa [MessageType.ofEnumeration?_enumeration, MessageType.ofEnumeration?_enumeration,
    Option.some.injEq] at hof

theorem HasType.validateAndDispatch {request : Envelope} {type : MessageType}
    (h : HasType request type) (p : RequestProcessor) (t : Trace) :
    p.validateAndDispatch request t = p.dispatchType type request t := by
  rw [p.validateAndDispatch_eq t h.message_ne_nil h.messageNamespace_eq h.messageType_eq,
    dispatch, MessageType.ofEnumeration?_enumeration]

/-- A request is refused with an error, or comes to the routine for its type. -/
theorem validateAndDispatch_or (p : RequestProcessor) (request : Envelope) (t : Trace) :
    (∃ code message, p.validateAndDispatch request t =
      (.ok .authoritative, p.populateErrorResponse code message t)) ∨
    ∃ type, HasType request type := by
  rcases p.validateAndDispatch_cases request t with hrefused | ⟨requestType, hcount, hns, htype⟩
  · exact Or.inl hrefused
  cases hof : MessageType.ofEnumeration? requestType with
  | none =>
    left
    rw [p.validateAndDispatch_eq t hcount hns htype, dispatch, hof]
    exact ⟨_, _, rfl⟩
  | some type =>
    right
    refine ⟨type, hcount, hns, ?_⟩
    rw [htype, MessageType.enumeration_of_ofEnumeration? hof]

/-! ## The output -/

/-- The error that `ProcessMessages` makes of an exception. -/
def exceptionResponse (p : RequestProcessor) : Envelope :=
  p.respond (.error (some .generalErrorProcessing) (some (str "exception when processing request")))

/-- What `ProcessRequest` and `ProcessMessages` make of the output of a routine. -/
def finalOutput (p : RequestProcessor) (request : Envelope) : Processed → List Envelope
  | (.ok .authoritative, t) => tagFirst request.tag t.output
  | (.ok .deferred, t) => t.output
  | (.error (.exception _), t) => tagFirst request.tag (t.output ++ [p.exceptionResponse])
  | (.error _, t) => t.output

theorem Requests.processMessages {messages : List Bytes} {request : Envelope}
    (h : Requests messages request) (p : RequestProcessor) :
    p.processMessages messages = p.createOutput request (p.processRequest request {}) := by
  obtain ⟨frame, rest, rfl, hframe⟩ := h
  exact processMessages_request hframe rest

/-- A frame made of a request is one for it. -/
theorem requests_toProtocolZmqMessage {request : Envelope} (h : request.message ≠ []) :
    Requests [request.toProtocolZmqMessage] request :=
  ⟨request.serialize, [], rfl,
    Envelope.ofZmqMessage_toProtocolZmqMessage (Envelope.serialize_ne_nil h)⟩

/-- The output of `ProcessRequest` by the two things that the routine left: its output, and whether
the tags are added. -/
theorem output_createOutput (p : RequestProcessor) (request : Envelope) (t : Trace) :
    (p.createOutput request (p.processRequest request t)).2.output =
      p.finalOutput request (p.validateAndDispatch request t) := by
  cases hv : p.validateAndDispatch request t with
  | mk r t' =>
    cases r with
    | error f =>
      rw [processRequest_error hv]
      cases f <;> rfl
    | ok status =>
      cases status with
      | deferred =>
        rw [processRequest_deferred hv]
        rfl
      | authoritative =>
        show _ = tagFirst request.tag t'.output
        by_cases hnil : t'.output = []
        · rw [processRequest_unanswered hv hnil, hnil]
          exact hnil
        · rw [processRequest_authoritative hv hnil]
          show (if (tagFirst request.tag t'.output).isEmpty = true then _ else _ :
            Except Fault Unit × Trace).2.output = _
          split_ifs <;> rfl

/-- **The output of `ProcessMessages`**, whatever the routine left. -/
theorem output_processMessages (p : RequestProcessor) {messages : List Bytes} {request : Envelope}
    (h : Requests messages request) : (p.processMessages messages).2.output =
      p.finalOutput request (p.validateAndDispatch request {}) := by
  rw [h.processMessages, output_createOutput]

/-- `ProcessRequest` calls no handlers of its own. -/
theorem calls_processRequest (p : RequestProcessor) (request : Envelope) (t : Trace) :
    (p.processRequest request t).2.calls = (p.validateAndDispatch request t).2.calls := by
  cases hv : p.validateAndDispatch request t with
  | mk r t' =>
    rcases r with f | status
    · rw [processRequest_error hv]
    · cases status with
      | deferred => rw [processRequest_deferred hv]
      | authoritative =>
        by_cases hnil : t'.output = []
        · rw [processRequest_unanswered hv hnil]
        · rw [processRequest_authoritative hv hnil]

/-- Making the output calls no handler. -/
theorem calls_createOutput (p : RequestProcessor) (request : Envelope) (r : Processed) :
    (p.createOutput request r).2.calls = r.2.calls := by
  obtain ⟨r, t⟩ := r
  rcases r with f | status
  · cases f <;> rfl
  · cases status with
    | deferred => rfl
    | authoritative =>
      show (if t.output.isEmpty = true then _ else _ : Except Fault Unit × Trace).2.calls = _
      split_ifs <;> rfl

/-- The calls to handlers are those of the routine. -/
theorem calls_processMessages (p : RequestProcessor) {messages : List Bytes} {request : Envelope}
    (h : Requests messages request) : (p.processMessages messages).2.calls =
      (p.validateAndDispatch request {}).2.calls := by
  rw [h.processMessages, calls_createOutput, calls_processRequest]

/-! ## Plain results -/

/-- A routine leaves nothing in the output or, where it is authoritative, one new
envelope. -/
def Plain (p : RequestProcessor) (r : Processed) : Prop :=
  r.2.output = [] ∨ r.1 = .ok .authoritative ∧ ∃ m, r.2.output = [p.respond m]

section

variable {p : RequestProcessor} {t : Trace}

theorem output_push_of_nil (ht : t.output = []) (e : Envelope) : (t.push e).output = [e] := by
  rw [output_push, ht]
  rfl

theorem plain_push (ht : t.output = []) (m : Message) :
    p.Plain (.ok .authoritative, t.push (p.respond m)) :=
  Or.inr ⟨rfl, m, output_push_of_nil ht _⟩

theorem plain_populateErrorResponse (ht : t.output = []) (code : ErrorCode) (message : Bytes) :
    p.Plain (.ok .authoritative, p.populateErrorResponse code message t) :=
  plain_push ht _

theorem plain_messageFailure (ht : t.output = []) :
    p.Plain (.ok .authoritative, p.messageFailure t) :=
  plain_push ht _

theorem plain_nil (ht : t.output = []) (r : Except Fault ResponseStatus) : p.Plain (r, t) :=
  Or.inl ht

theorem plain_checkPathThen (ht : t.output = []) (path : Bytes) (rb rs rn : Bool)
    {k : Trace → Processed} (hk : p.Plain (k t)) : p.Plain (p.checkPathThen path t rb rs rn k) := by
  unfold checkPathThen
  rcases p.checkPath_eq_or path t rb rs rn with hcheck | ⟨code, message, hcheck⟩
  · rw [hcheck]
    exact hk
  · rw [hcheck]
    exact plain_populateErrorResponse ht code message

theorem plain_processStoreInfo (ht : t.output = []) (request : Envelope) :
    p.Plain (p.processStoreInfo request t) := by
  unfold processStoreInfo
  split
  · exact plain_messageFailure ht
  · exact plain_push ht _

theorem plain_processBucketInfo (ht : t.output = []) (request : Envelope) :
    p.Plain (p.processBucketInfo request t) := by
  unfold processBucketInfo
  split
  · exact plain_messageFailure ht
  · exact plain_checkPathThen ht _ _ _ _ (plain_push ht _)
  · exact plain_nil ht _

theorem plain_processStreamSetInfo (ht : t.output = []) (request : Envelope) :
    p.Plain (p.processStreamSetInfo request t) := by
  unfold processStreamSetInfo
  split
  · exact plain_messageFailure ht
  · exact plain_checkPathThen ht _ _ _ _ (plain_push ht _)
  · exact plain_nil ht _

theorem plain_processStreamInfo (ht : t.output = []) (request : Envelope) :
    p.Plain (p.processStreamInfo request t) := by
  unfold processStreamInfo
  split
  · exact plain_messageFailure ht
  · exact plain_checkPathThen ht _ _ _ _ (plain_push ht _)
  · exact plain_nil ht _

/-! ### Subscriptions -/

/-- What the subscription handler returns becomes one envelope, an error or nothing. -/
theorem plain_callHandleSubscriptionRequest (ht : t.output = [])
    {subscription : SubscriptionInfo} {r : Except Fault Unit} {t' : Trace}
    (h : p.callHandleSubscriptionRequest subscription t = (r, t')) :
    p.Plain (r.map fun _ => .authoritative, t') := by
  unfold callHandleSubscriptionRequest at h
  simp only at h
  split at h
  · cases h
    exact plain_nil ht _
  · cases h
    exact plain_nil ht _
  · cases h
    exact plain_populateErrorResponse ht _ _
  · split_ifs at h
    · cases h
      exact plain_populateErrorResponse ht _ _
    · cases h
      exact plain_push ht _
  · cases h
    exact plain_populateErrorResponse ht _ _
  · cases h
    exact plain_nil ht _
  · cases h
    exact plain_nil ht _

/-- The paths are checked in front of the handler, so either of the two leaves the one envelope. -/
theorem plain_subscribe (ht : t.output = []) (subscription : SubscriptionInfo)
    (paths : List Bytes) : p.Plain (p.subscribe subscription paths t) := by
  unfold subscribe
  split_ifs
  · split
    · rename_i heq
      exact plain_callHandleSubscriptionRequest ht heq
    · rename_i heq
      exact plain_callHandleSubscriptionRequest ht heq
  · exact plain_populateErrorResponse ht _ _

theorem plain_processSubscribeStoreChanges (ht : t.output = []) (request : Envelope) :
    p.Plain (p.processSubscribeStoreChanges request t) := by
  unfold processSubscribeStoreChanges
  split
  · exact plain_messageFailure ht
  · exact plain_subscribe ht _ _
  · exact plain_nil ht _

/-- Lua code either ends the routine without an output or leaves the handler to make it. -/
theorem plain_processSubscribeEnvelopes (ht : t.output = []) (request : Envelope) :
    p.Plain (p.processSubscribeEnvelopes request t) := by
  unfold processSubscribeEnvelopes
  split
  · exact plain_messageFailure ht
  · dsimp only
    split_ifs
    · exact plain_populateErrorResponse ht _ _
    · split
      · split
        · exact plain_nil ht _
        · exact plain_populateErrorResponse ht _ _
        · exact plain_nil ht _
      · exact plain_subscribe ht _ _
  · exact plain_nil ht _

/-! ### Writing -/

/-- A write request is authoritative where there is output. -/
theorem plain_writeStatus (h : t.output = [] ∨ ∃ m, t.output = [p.respond m]) :
    p.Plain (.ok (writeStatus t), t) := by
  rcases h with hnil | ⟨m, hm⟩
  · exact plain_nil hnil _
  · refine Or.inr ⟨?_, m, hm⟩
    unfold writeStatus
    rw [hm]
    rfl

/-- The answer to a write is one envelope, or none where no acknowledgement is wanted. -/
theorem plain_acknowledgeWrite (ht : t.output = []) {result : HandlerResult} {sendAck : Bool}
    {r : Except Fault Unit} {t' : Trace} (h : p.acknowledgeWrite result sendAck t = (r, t')) :
    p.Plain (r.map fun _ => writeStatus t', t') := by
  unfold acknowledgeWrite at h
  split_ifs at h
  · split at h
    · cases h
      exact plain_nil ht _
    · cases h
      exact plain_writeStatus (Or.inr ⟨_, output_push_of_nil ht _⟩)
    · cases h
      exact plain_nil ht _
  · cases h
    exact plain_nil ht _

/-- An entry that is empty throws in front of the output, and is answered elsewhere. -/
theorem plain_writeEnvelopes (ht : t.output = []) {m : WriteEnvelopeV1}
    {r : Except Fault Unit} {t' : Trace} (h : p.writeEnvelopes m t = (r, t')) :
    p.Plain (r.map fun _ => writeStatus t', t') := by
  unfold writeEnvelopes at h
  simp only at h
  split at h
  · cases h
    exact plain_nil ht _
  · exact plain_acknowledgeWrite ht h
  · split at h
    · cases h
      exact plain_nil ht _
    · refine plain_acknowledgeWrite ?_ h
      exact ht

/-- The path of a write leaves the trace as it is, or an error in it. -/
theorem checkWritePath_eq_or (p : RequestProcessor) (path : Bytes) (t : Trace) :
    p.checkWritePath path t = (true, t) ∨
      ∃ code message, p.checkWritePath path t = (false, p.populateErrorResponse code message t) := by
  unfold checkWritePath
  split
  · exact Or.inr ⟨_, _, rfl⟩
  · split_ifs
    · exact Or.inr ⟨_, _, rfl⟩
    · exact p.checkPath_eq_or path t true true false
    · exact Or.inl rfl

/-- A write leaves what its checks leave, or what `writeEnvelopes` leaves. -/
theorem plain_processWriteEnvelope (ht : t.output = []) (request : Envelope) :
    p.Plain (p.processWriteEnvelope request t) := by
  have herror : ∀ code message, p.Plain (.ok (writeStatus (p.populateErrorResponse code message t)),
      p.populateErrorResponse code message t) :=
    fun code message => plain_writeStatus (Or.inr ⟨_, output_push_of_nil ht _⟩)
  unfold processWriteEnvelope
  split
  · exact herror _ _
  · rename_i m _
    rcases p.checkWritePath_eq_or m.path t with hcheck | ⟨code, message, hcheck⟩
    · rw [hcheck]
      dsimp only
      split_ifs
      · exact herror _ _
      · split
        · rename_i heq
          exact plain_writeEnvelopes ht heq
        · rename_i heq
          exact plain_writeEnvelopes ht heq
    · rw [hcheck]
      exact herror code message
  · exact plain_nil ht _

/-- The routines of all other types are plain. -/
theorem plain_dispatchType (ht : t.output = []) (request : Envelope) {type : MessageType}
    (hsegment : type ≠ .getStreamSegmentV1) (hkeepalive : type ≠ .subscribeKeepaliveV1)
    (hplugin : type ≠ .registerPluginV1) : p.Plain (p.dispatchType type request t) := by
  cases type with
  | pingV1 => exact plain_push ht _
  | getFeaturesV1 => exact plain_push ht _
  | getStoreInfoV1 => exact plain_processStoreInfo ht request
  | getBucketInfoV1 => exact plain_processBucketInfo ht request
  | getStreamSetInfoV1 => exact plain_processStreamSetInfo ht request
  | getStreamInfoV1 => exact plain_processStreamInfo ht request
  | getStreamSegmentV1 => exact absurd rfl hsegment
  | subscribeStoreChangesV1 => exact plain_processSubscribeStoreChanges ht request
  | subscribeEnvelopesV1 => exact plain_processSubscribeEnvelopes ht request
  | subscribeKeepaliveV1 => exact absurd rfl hkeepalive
  | subscribeCancelV1 => exact plain_nil ht _
  | writeEnvelopeV1 => exact plain_processWriteEnvelope ht request
  | registerPluginV1 => exact absurd rfl hplugin
  | unregisterPluginV1 => exact plain_nil ht _
  | getPluginStatusV1 => exact plain_nil ht _
  | _ => exact plain_populateErrorResponse ht _ _

end

/-! ## Segments -/

/-- The stream that was opened, at the offset of a request. -/
def atOffset (s : InputStream) (offset : UInt64) : Except Exn InputStream :=
  if offset = 0 then .ok s else s.setAbsoluteOffset (toInt64 offset)

/-- `ProcessGetStream` has a stream open at the offset of the request. -/
def Opens (p : RequestProcessor) (get : GetStreamSegmentV1) (stream : InputStream) : Prop :=
  ∃ content s, p.Serves get.path content ∧ InputStream.ofFile (some content) 0 = .ok s ∧
    atOffset s get.startOffset = .ok stream

/-- The stream of a request has an envelope at the offset. -/
def HasEnvelope (p : RequestProcessor) (get : GetStreamSegmentV1) : Prop :=
  ∃ stream e size s', p.Opens get stream ∧ stream.readEnvelope = (some e, size, s')

/-- Where an envelope can be read at the offset, the routine sends the segment. -/
theorem Opens.processGetStream {p : RequestProcessor} {get : GetStreamSegmentV1}
    {stream : InputStream} (h : p.Opens get stream) {request : Envelope}
    (hm : request.getMessage 0 = some (.getStreamSegmentV1 get)) (t : Trace) :
    p.processGetStream request t = (.ok .authoritative, p.sendSegment request get stream t) := by
  obtain ⟨content, s, hserves, hopen, hoffset⟩ := h
  unfold RequestProcessor.processGetStream
  rw [hm]
  simp only [checkPathThen, hserves.checkPath, hserves.getInputStream, hopen]
  unfold atOffset at hoffset
  split_ifs at hoffset with h0
  · cases hoffset
    rw [if_pos h0]
  · rw [if_neg h0, hoffset]

/-- The segment is the answer, where there is an envelope at the offset. -/
theorem Opens.segment {p : RequestProcessor} {get : GetStreamSegmentV1} {stream s' : InputStream}
    {e : Envelope} {size : UInt32} (h : p.Opens get stream)
    (hread : stream.readEnvelope = (some e, size, s')) {request : Envelope}
    (hm : request.getMessage 0 = some (.getStreamSegmentV1 get)) (t : Trace) :
    p.processGetStream request t =
      (.ok .authoritative, { t with
        output := t.output ++ p.segmentResponse request get (p.segment get e size s').output
          (p.segment get e size s').stop }) := by
  rw [h.processGetStream hm, sendSegment_read request get t hread]

/-- Where none can, the routine leaves one error, for the path, the stream or the offset. -/
theorem plain_processGetStream {p : RequestProcessor} {t : Trace} (ht : t.output = [])
    {request : Envelope}
    (h : ¬ ∃ get, request.getMessage 0 = some (.getStreamSegmentV1 get) ∧ p.HasEnvelope get) :
    p.Plain (p.processGetStream request t) := by
  cases hm : request.getMessage 0 with
  | none =>
    unfold processGetStream
    rw [hm]
    exact plain_populateErrorResponse ht _ _
  | some m =>
    by_cases hget : ∃ get, m = .getStreamSegmentV1 get
    swap
    · unfold processGetStream
      rw [hm]
      split
      · exact plain_populateErrorResponse ht _ _
      · rename_i get heq
        exact absurd ⟨get, Option.some.inj heq⟩ hget
      · exact plain_nil ht _
    -- the path is checked, the stream is opened, and it seeks: each can end the routine
    obtain ⟨get, rfl⟩ := hget
    rcases p.checkPath_eq_or get.path t true true true with hcheck | ⟨code, message, hcheck⟩
    swap
    · unfold processGetStream
      rw [hm]
      simp only [checkPathThen, hcheck]
      exact plain_populateErrorResponse ht _ _
    obtain ⟨content, hserves⟩ := serves_of_checkPath hcheck
    cases hopen : InputStream.ofFile (some content) 0 with
    | error e =>
      unfold processGetStream
      rw [hm]
      simp only [checkPathThen, hcheck, hserves.getInputStream, hopen]
      exact plain_nil ht _
    | ok s =>
      cases hoffset : atOffset s get.startOffset with
      | error e =>
        unfold atOffset at hoffset
        split_ifs at hoffset with h0
        unfold processGetStream
        rw [hm]
        simp only [checkPathThen, hcheck, hserves.getInputStream, hopen, if_neg h0, hoffset]
        exact plain_nil ht _
      | ok stream =>
        have hopens : p.Opens get stream := ⟨content, s, hserves, hopen, hoffset⟩
        rw [hopens.processGetStream hm]
        -- what is left is that no envelope can be read, which is an error of its own
        rcases hread : stream.readEnvelope with ⟨_ | e, size, s'⟩
        · rw [sendSegment_none t ⟨size, s', hread⟩]
          exact plain_populateErrorResponse ht _ _
        · exact absurd ⟨get, rfl, stream, e, size, s', hopens, hread⟩ (hm ▸ h)

/-! ## The other results -/

/-- The requests whose routine need not be plain. -/
inductive Special (p : RequestProcessor) (request : Envelope) : Prop where
  | segment (get : GetStreamSegmentV1)
      (hm : request.getMessage 0 = some (.getStreamSegmentV1 get)) (h : p.HasEnvelope get)
  | registerPlugin (htype : HasType request .registerPluginV1) (hm : request.getMessage 0 = none)
  | keepalive (id : Bytes) (ids : List Bytes)
      (hm : request.getMessage 0 = some (.subscribeKeepaliveV1 (id :: ids)))
  | keepaliveUnparsed (htype : HasType request .subscribeKeepaliveV1)
      (hm : request.getMessage 0 = none)

/-- One routine after the other: the three exceptions are the requests that `Special` lists. -/
theorem plain_or_special (p : RequestProcessor) (request : Envelope) :
    p.Plain (p.validateAndDispatch request {}) ∨ p.Special request := by
  rcases p.validateAndDispatch_or request {} with ⟨code, message, hrefused⟩ | ⟨type, htype⟩
  · left
    rw [hrefused]
    exact plain_populateErrorResponse rfl code message
  rw [htype.validateAndDispatch]
  by_cases hget : type = .getStreamSegmentV1
  · subst hget
    by_cases h : ∃ get, request.getMessage 0 = some (.getStreamSegmentV1 get) ∧ p.HasEnvelope get
    · obtain ⟨get, hm, h⟩ := h
      exact Or.inr (.segment get hm h)
    · exact Or.inl (plain_processGetStream rfl h)
  by_cases hkeepalive : type = .subscribeKeepaliveV1
  · subst hkeepalive
    show p.Plain (p.processSubscribeKeepalive request {}) ∨ _
    unfold processSubscribeKeepalive
    split
    · rename_i hm
      exact Or.inr (.keepaliveUnparsed htype hm)
    · rename_i id ids hm
      exact Or.inr (.keepalive id ids hm)
    · exact Or.inl (plain_nil rfl _)
  by_cases hplugin : type = .registerPluginV1
  · subst hplugin
    show p.Plain (p.processRegisterPlugin request {}) ∨ _
    unfold processRegisterPlugin
    split
    · rename_i hm
      exact Or.inr (.registerPlugin htype hm)
    · exact Or.inl (plain_nil rfl _)
  exact Or.inl (plain_dispatchType rfl request hget hkeepalive hplugin)

section

variable (p : RequestProcessor) {request : Envelope}

theorem validateAndDispatch_segment {get : GetStreamSegmentV1} {stream s' : InputStream}
    {e : Envelope} {size : UInt32} (hm : request.getMessage 0 = some (.getStreamSegmentV1 get))
    (h : p.Opens get stream) (hread : stream.readEnvelope = (some e, size, s')) :
    p.validateAndDispatch request {} =
      (.ok .authoritative, {
        output := p.segmentResponse request get (p.segment get e size s').output
          (p.segment get e size s').stop }) := by
  rw [(HasType.of_getMessage hm).validateAndDispatch]
  exact h.segment hread hm {}

theorem validateAndDispatch_registerPlugin (htype : HasType request .registerPluginV1)
    (hm : request.getMessage 0 = none) :
    p.validateAndDispatch request {} = (.ok .deferred, p.messageFailure {}) := by
  rw [htype.validateAndDispatch]
  show p.processRegisterPlugin request {} = _
  unfold processRegisterPlugin
  rw [hm]

theorem validateAndDispatch_keepalive {id : Bytes} {ids : List Bytes}
    (hm : request.getMessage 0 = some (.subscribeKeepaliveV1 (id :: ids))) :
    p.validateAndDispatch request {} = p.handleKeepalive request {} := by
  rw [(HasType.of_getMessage hm).validateAndDispatch]
  show p.processSubscribeKeepalive request {} = _
  unfold processSubscribeKeepalive
  rw [hm]

theorem validateAndDispatch_keepaliveUnparsed (htype : HasType request .subscribeKeepaliveV1)
    (hm : request.getMessage 0 = none) :
    p.validateAndDispatch request {} = p.handleKeepalive request (p.messageFailure {}) := by
  rw [htype.validateAndDispatch]
  show p.processSubscribeKeepalive request {} = _
  unfold processSubscribeKeepalive
  rw [hm]

/-- What is made of the output of the keepalive handler. -/
def keepaliveOutput (request : Envelope) : Except Exn HandlerResult × List Envelope → List Envelope
  | (.ok .makeDeferred, output) => output
  | (.ok _, output) => tagFirst request.tag output
  | (.error _, output) => tagFirst request.tag (output ++ [p.exceptionResponse])

theorem finalOutput_handleKeepalive (request : Envelope) (t : Trace) :
    p.finalOutput request (p.handleKeepalive request t) =
      p.keepaliveOutput request (p.impl.handleSubscribeKeepalive request t.output) := by
  rw [handleKeepalive]
  simp only [output_call]
  rcases p.impl.handleSubscribeKeepalive request t.output with ⟨e | result, output⟩
  · rfl
  · cases result <;> rfl

end

/-! ## Tags -/

theorem tail_tagFirst (tags : List Bytes) (es : List Envelope) :
    (tagFirst tags es).tail = es.tail := by
  cases es <;> rfl

/-- The output of `ProcessMessages` for a request. -/
def outputFor (p : RequestProcessor) (request : Envelope) : List Envelope :=
  (p.createOutput request (p.processRequest request {})).2.output

/-- The request without its tags. -/
def untagged (request : Envelope) : Envelope := { request with tag := [] }

/-- The processor, but for the keepalive handler: it is given this request whatever
the request is. -/
def keepingAlive (p : RequestProcessor) (request : Envelope) : RequestProcessor :=
  { p with
    impl := { p.impl with
      handleSubscribeKeepalive := fun _ => p.impl.handleSubscribeKeepalive request } }

/-- Only the first envelope of the response gets the tags of the request. -/
structure Tagged (p : RequestProcessor) (messages : List Bytes) (request : Envelope) : Prop where
  /-- it has them once each, in order, and no others -/
  first : ∀ e es, (p.processMessages messages).2.output = e :: es → e.tag = request.tag
  /-- the others are what they are for the request without its tags -/
  rest : (p.processMessages messages).2.output.tail =
    ((p.keepingAlive request).outputFor (untagged request)).tail

/-- The tags that the first envelope of a keepalive handler is to have. -/
def keepaliveTags (request : Envelope) : Except Exn HandlerResult → List Bytes
  | .ok .makeDeferred => request.tag
  | _ => []

/-- The keepalive handler, given some output, leaves other tags on the first envelope. -/
def MistagsKeepalive (p : RequestProcessor) (request : Envelope) (before : List Envelope) : Prop :=
  ∃ r e es, p.impl.handleSubscribeKeepalive request before = (r, e :: es) ∧
    e.tag ≠ keepaliveTags request r

/-- The requests whose response does not have their tags. -/
inductive Mistagged (p : RequestProcessor) (request : Envelope) : Prop where
  /-- `ProcessGetStream` adds the tags, and `ProcessRequest` adds them again. -/
  | segment (get : GetStreamSegmentV1)
      (hm : request.getMessage 0 = some (.getStreamSegmentV1 get)) (h : p.HasEnvelope get)
      (htag : request.tag ≠ [])
  /-- A plugin registration that does not parse is deferred with an error. -/
  | registerPlugin (htype : HasType request .registerPluginV1) (hm : request.getMessage 0 = none)
      (htag : request.tag ≠ [])
  | keepalive (id : Bytes) (ids : List Bytes)
      (hm : request.getMessage 0 = some (.subscribeKeepaliveV1 (id :: ids)))
      (h : p.MistagsKeepalive request [])
  /-- The handler is given the error, too. -/
  | keepaliveUnparsed (htype : HasType request .subscribeKeepaliveV1)
      (hm : request.getMessage 0 = none)
      (h : p.MistagsKeepalive request (p.messageFailure {}).output)

/-- The first envelope of some output has the tags of the request. -/
def FirstTagged (request : Envelope) (output : List Envelope) : Prop :=
  ∀ e es, output = e :: es → e.tag = request.tag

theorem firstTagged_nil (request : Envelope) : FirstTagged request [] := by
  intro e es h
  cases h

theorem firstTagged_cons_iff {request e : Envelope} {es : List Envelope} :
    FirstTagged request (e :: es) ↔ e.tag = request.tag := by
  constructor
  · intro h
    exact h e es rfl
  · rintro h e' es' heq
    cases heq
    exact h

/-- Tags are added behind those that are there. -/
theorem firstTagged_tagFirst_iff {request e : Envelope} {es : List Envelope} :
    FirstTagged request (tagFirst request.tag (e :: es)) ↔ e.tag = [] := by
  rw [tagFirst, firstTagged_cons_iff, Envelope.tag_addTags]
  exact List.append_left_eq_self

/-- The response to a request whose routine is plain. -/
theorem Plain.finalOutput {p : RequestProcessor} {r : Processed} (h : p.Plain r)
    (request : Envelope) : p.finalOutput request r = [] ∨
      ∃ m, p.finalOutput request r = [(p.respond m).addTags request.tag] := by
  obtain ⟨r, t⟩ := r
  rcases h with hnil | ⟨hauthoritative, m, hm⟩
  · dsimp only at hnil
    rcases r with f | status
    · cases f with
      | exception e =>
        right
        refine ⟨.error (some .generalErrorProcessing)
          (some (str "exception when processing request")), ?_⟩
        show tagFirst request.tag (t.output ++ [p.exceptionResponse]) = _
        rw [hnil]
        rfl
      | _ => exact Or.inl hnil
    · cases status with
      | authoritative =>
        left
        show tagFirst request.tag t.output = []
        rw [hnil]
        rfl
      | deferred => exact Or.inl hnil
  · dsimp only at hauthoritative hm
    right
    refine ⟨m, ?_⟩
    rw [hauthoritative]
    show tagFirst request.tag t.output = _
    rw [hm]
    rfl

theorem Plain.firstTagged {p : RequestProcessor} {r : Processed} (h : p.Plain r)
    (request : Envelope) : FirstTagged request (p.finalOutput request r) := by
  rcases h.finalOutput request with hnil | ⟨m, hm⟩
  · rw [hnil]
    exact firstTagged_nil request
  · rw [hm, firstTagged_cons_iff, Envelope.tag_addTags]
    rfl

theorem Plain.tail_finalOutput {p : RequestProcessor} {r : Processed} (h : p.Plain r)
    (request : Envelope) : (p.finalOutput request r).tail = [] := by
  rcases h.finalOutput request with hnil | ⟨m, hm⟩
  · rw [hnil]
    rfl
  · rw [hm]
    rfl

/-- The keepalive handler decides on the first envelope. -/
theorem firstTagged_keepalive_iff (p : RequestProcessor) (request : Envelope) (t : Trace) :
    FirstTagged request (p.finalOutput request (p.handleKeepalive request t)) ↔
      ¬ p.MistagsKeepalive request t.output := by
  have hiff : ∀ {r e es}, p.impl.handleSubscribeKeepalive request t.output = (r, e :: es) →
      (¬ p.MistagsKeepalive request t.output ↔ e.tag = keepaliveTags request r) := by
    intro r e es hhandler
    constructor
    · intro h
      by_contra hne
      exact h ⟨r, e, es, hhandler, hne⟩
    · rintro h ⟨r', e', es', hhandler', hne⟩
      rw [hhandler] at hhandler'
      cases hhandler'
      exact hne h
  rw [finalOutput_handleKeepalive]
  cases hhandler : p.impl.handleSubscribeKeepalive request t.output with
  | mk r output =>
    cases output with
    | nil =>
      refine iff_of_true ?_ ?_
      · cases r with
        | error _ => exact firstTagged_tagFirst_iff.mpr rfl
        | ok result => cases result <;> exact firstTagged_nil request
      · rintro ⟨r', e, es, hhandler', -⟩
        rw [hhandler] at hhandler'
        cases hhandler'
    | cons e es =>
      rw [hiff hhandler]
      cases r with
      | error _ => exact firstTagged_tagFirst_iff
      | ok result =>
        cases result with
        | makeDeferred => exact firstTagged_cons_iff
        | _ => exact firstTagged_tagFirst_iff

/-- **The first envelope** has the tags of the request, but for those of `Mistagged`. -/
theorem firstTagged_iff (p : RequestProcessor) (request : Envelope) :
    FirstTagged request (p.finalOutput request (p.validateAndDispatch request {})) ↔
      ¬ p.Mistagged request := by
  constructor
  · rintro hfirst (⟨get, hm, ⟨stream, e, size, s', hopens, hread⟩, htag⟩ | ⟨htype, hm, htag⟩ |
      ⟨id, ids, hm, h⟩ | ⟨htype, hm, h⟩)
    · rw [p.validateAndDispatch_segment hm hopens hread] at hfirst
      have hstart := firstTagged_tagFirst_iff.mp hfirst
      rw [Envelope.tag_addTags] at hstart
      exact htag (List.append_eq_nil_iff.mp hstart).2
    · rw [p.validateAndDispatch_registerPlugin htype hm] at hfirst
      exact htag (hfirst _ _ rfl).symm
    · rw [p.validateAndDispatch_keepalive hm] at hfirst
      exact (p.firstTagged_keepalive_iff request {}).mp hfirst h
    · rw [p.validateAndDispatch_keepaliveUnparsed htype hm] at hfirst
      exact (p.firstTagged_keepalive_iff request _).mp hfirst h
  · intro hnot
    rcases p.plain_or_special request with hplain | ⟨get, hm, h⟩ | ⟨htype, hm⟩ | ⟨id, ids, hm⟩ |
      ⟨htype, hm⟩
    · exact hplain.firstTagged request
    · have htag : request.tag = [] := by
        by_contra htag
        exact hnot (.segment get hm h htag)
      obtain ⟨stream, e, size, s', hopens, hread⟩ := h
      rw [p.validateAndDispatch_segment hm hopens hread]
      refine firstTagged_tagFirst_iff.mpr ?_
      rw [Envelope.tag_addTags, htag]
      rfl
    · have htag : request.tag = [] := by
        by_contra htag
        exact hnot (.registerPlugin htype hm htag)
      rw [p.validateAndDispatch_registerPlugin htype hm]
      refine firstTagged_cons_iff.mpr ?_
      rw [htag]
      rfl
    · rw [p.validateAndDispatch_keepalive hm]
      exact (p.firstTagged_keepalive_iff request {}).mpr fun h => hnot (.keepalive id ids hm h)
    · rw [p.validateAndDispatch_keepaliveUnparsed htype hm]
      exact (p.firstTagged_keepalive_iff request _).mpr fun h =>
        hnot (.keepaliveUnparsed htype hm h)

theorem HasType.untagged {request : Envelope} {type : MessageType} (h : HasType request type) :
    HasType (untagged request) type :=
  ⟨h.message_ne_nil, h.messageNamespace_eq, h.messageType_eq⟩

/-- The types of the results do not depend on the tags. -/
theorem Special.of_untagged {p : RequestProcessor} {request : Envelope}
    (h : (p.keepingAlive request).Special (untagged request)) : p.Special request := by
  rcases h with ⟨get, hm, h⟩ | ⟨htype, hm⟩ | ⟨id, ids, hm⟩ | ⟨htype, hm⟩
  · exact .segment get hm h
  · exact .registerPlugin ⟨htype.message_ne_nil, htype.messageNamespace_eq, htype.messageType_eq⟩ hm
  · exact .keepalive id ids hm
  · exact .keepaliveUnparsed
      ⟨htype.message_ne_nil, htype.messageNamespace_eq, htype.messageType_eq⟩ hm

/-- The tags go to the first envelope only, so the others are those of a request without tags. -/
theorem tail_keepaliveOutput (p : RequestProcessor) (request : Envelope)
    (handled : Except Exn HandlerResult × List Envelope) :
    (p.keepaliveOutput request handled).tail =
      ((p.keepingAlive request).keepaliveOutput (untagged request) handled).tail := by
  obtain ⟨r, output⟩ := handled
  cases r with
  | error e =>
    show (tagFirst request.tag _).tail = (tagFirst _ _).tail
    rw [tail_tagFirst, tail_tagFirst]
    rfl
  | ok result =>
    cases result with
    | makeDeferred => rfl
    | _ =>
      show (tagFirst request.tag _).tail = (tagFirst _ _).tail
      rw [tail_tagFirst, tail_tagFirst]

/-- **The other envelopes** have no tags from the request. -/
theorem tail_output (p : RequestProcessor) (request : Envelope) :
    (p.finalOutput request (p.validateAndDispatch request {})).tail =
      ((p.keepingAlive request).outputFor (untagged request)).tail := by
  rw [outputFor, output_createOutput]
  by_cases hspecial : p.Special request
  · rcases hspecial with ⟨get, hm, stream, e, size, s', hopens, hread⟩ | ⟨htype, hm⟩ |
      ⟨id, ids, hm⟩ | ⟨htype, hm⟩
    · have hm' : (untagged request).getMessage 0 = some (.getStreamSegmentV1 get) := hm
      have hopens' : (p.keepingAlive request).Opens get stream := hopens
      rw [p.validateAndDispatch_segment hm hopens hread,
        (p.keepingAlive request).validateAndDispatch_segment hm' hopens' hread]
      rfl
    · rw [p.validateAndDispatch_registerPlugin htype hm,
        (p.keepingAlive request).validateAndDispatch_registerPlugin htype.untagged hm]
      rfl
    · have hm' : (untagged request).getMessage 0 = some (.subscribeKeepaliveV1 (id :: ids)) := hm
      rw [p.validateAndDispatch_keepalive hm,
        (p.keepingAlive request).validateAndDispatch_keepalive hm',
        finalOutput_handleKeepalive, finalOutput_handleKeepalive]
      exact p.tail_keepaliveOutput request _
    · rw [p.validateAndDispatch_keepaliveUnparsed htype hm,
        (p.keepingAlive request).validateAndDispatch_keepaliveUnparsed htype.untagged hm,
        finalOutput_handleKeepalive, finalOutput_handleKeepalive]
      exact p.tail_keepaliveOutput request _
  · have hplain := (p.plain_or_special request).resolve_right hspecial
    have hplain' := ((p.keepingAlive request).plain_or_special (untagged request)).resolve_right
      fun h => hspecial h.of_untagged
    rw [hplain.tail_finalOutput, hplain'.tail_finalOutput]

/-- **The tags of a response**: its first envelope has the tags of the request and no others exactly
where the request is not one of `Mistagged`, for every processor, list of messages and handler. -/
theorem tagged_iff (p : RequestProcessor) {messages : List Bytes} {request : Envelope}
    (h : Requests messages request) : p.Tagged messages request ↔ ¬ p.Mistagged request := by
  rw [← firstTagged_iff]
  constructor
  · intro htagged
    have hfirst := htagged.first
    rwa [output_processMessages p h] at hfirst
  · intro hfirst
    refine ⟨?_, ?_⟩
    · rw [output_processMessages p h]
      exact hfirst
    · rw [output_processMessages p h]
      exact p.tail_output request

/-- The tag of a ping comes back once. -/
theorem tagged_ping : (deferring [1]).Tagged
    [((Envelope.ofMessage 0 .pingV1).addTags [[7]]).toProtocolZmqMessage]
    ((Envelope.ofMessage 0 .pingV1).addTags [[7]]) := by
  refine (tagged_iff (deferring [1]) (requests_toProtocolZmqMessage (by decide))).mpr ?_
  rintro (⟨get, hm, -, -⟩ | ⟨htype, -, -⟩ | ⟨id, ids, hm, -⟩ | ⟨htype, -, -⟩)
  · cases hm
  · exact absurd htype.messageType_eq (by decide)
  · cases hm
  · exact absurd htype.messageType_eq (by decide)

/-- The tag of a request for a segment comes back twice. -/
theorem not_tagged_segment : ¬ (deferring [1, 2, 40, 5]).Tagged
    [(getStream.addTags [[7]]).toProtocolZmqMessage] (getStream.addTags [[7]]) := by
  intro h
  have htags : ((deferring [1, 2, 40, 5]).processMessages
      [(getStream.addTags [[7]]).toProtocolZmqMessage]).2.output.head?.map Envelope.tag =
        some [[7], [7]] := by
    decide +kernel
  cases hout : ((deferring [1, 2, 40, 5]).processMessages
      [(getStream.addTags [[7]]).toProtocolZmqMessage]).2.output with
  | nil =>
    rw [hout] at htags
    cases htags
  | cons e es =>
    rw [hout] at htags
    have hfirst := h.first e es hout
    rw [Option.some.inj htags] at hfirst
    exact absurd hfirst (by decide)

/-! ## Exceptions -/

/-- A request whose routine throws is answered with one error and nothing else. -/
def Atomic (p : RequestProcessor) (messages : List Bytes) (request : Envelope) : Prop :=
  ∀ exn t, p.processRequest request {} = (.error (.exception exn), t) →
    ∃ e, (p.processMessages messages).2.output = [e] ∧ e.IsError

/-- The keepalive handler, given some output, throws and leaves output. -/
def KeepaliveThrows (p : RequestProcessor) (request : Envelope) (before : List Envelope) : Prop :=
  ∃ exn e es, p.impl.handleSubscribeKeepalive request before = (.error exn, e :: es)

/-- The requests with output in front of the error: keepalives whose handler throws and
has added output, or has not taken out the error for a message that does not parse. -/
inductive ThrowsLate (p : RequestProcessor) (request : Envelope) : Prop where
  | keepalive (id : Bytes) (ids : List Bytes)
      (hm : request.getMessage 0 = some (.subscribeKeepaliveV1 (id :: ids)))
      (h : p.KeepaliveThrows request [])
  | keepaliveUnparsed (htype : HasType request .subscribeKeepaliveV1)
      (hm : request.getMessage 0 = none)
      (h : p.KeepaliveThrows request (p.messageFailure {}).output)

/-- An exception comes from the routine. -/
theorem processRequest_exception_iff {p : RequestProcessor} {request : Envelope} {t t' : Trace}
    {exn : Exn} : p.processRequest request t = (.error (.exception exn), t') ↔
      p.validateAndDispatch request t = (.error (.exception exn), t') := by
  constructor
  · intro h
    cases hv : p.validateAndDispatch request t with
    | mk r t'' =>
      rcases r with f | status
      · rwa [processRequest_error hv] at h
      · cases status with
        | deferred =>
          rw [processRequest_deferred hv] at h
          cases h
        | authoritative =>
          by_cases hnil : t''.output = []
          · rw [processRequest_unanswered hv hnil] at h
            cases h
          · rw [processRequest_authoritative hv hnil] at h
            cases h
  · exact processRequest_error

/-- The response to an exception is the error alone where there was no output. -/
theorem atomic_finalOutput_iff (p : RequestProcessor) (request : Envelope) (exn : Exn)
    (t : Trace) :
    (∃ e, p.finalOutput request (.error (.exception exn), t) = [e] ∧ e.IsError) ↔
      t.output = [] := by
  show (∃ e, tagFirst request.tag (t.output ++ [p.exceptionResponse]) = [e] ∧ _) ↔ _
  constructor
  · rintro ⟨e, he, -⟩
    have hlength := congrArg List.length he
    rw [length_tagFirst, List.length_append] at hlength
    exact List.length_eq_zero_iff.mp (Nat.add_right_cancel hlength)
  · intro hnil
    rw [hnil]
    exact ⟨_, rfl, (p.isError_respond _ _).addTags _⟩

theorem atomic_of_output_nil {p : RequestProcessor} {messages : List Bytes} {request : Envelope}
    (h : Requests messages request)
    (hnil : ∀ exn t, p.validateAndDispatch request {} = (.error (.exception exn), t) →
      t.output = []) : p.Atomic messages request := by
  intro exn t hr
  rw [processRequest_exception_iff] at hr
  rw [output_processMessages p h, hr]
  exact (p.atomic_finalOutput_iff request exn t).mpr (hnil exn t hr)

/-- Where the keepalive handler is called, it decides. -/
theorem atomic_keepalive_iff {p : RequestProcessor} {messages : List Bytes} {request : Envelope}
    (h : Requests messages request) {t : Trace}
    (hv : p.validateAndDispatch request {} = p.handleKeepalive request t) :
    p.Atomic messages request ↔ ¬ p.KeepaliveThrows request t.output := by
  constructor
  · rintro hatomic ⟨exn, e, es, hhandler⟩
    have hthrows : p.handleKeepalive request t = (.error (.exception exn),
        { t.call (.handleSubscribeKeepalive request) with output := e :: es }) := by
      rw [handleKeepalive]
      simp only [output_call, hhandler]
    rw [hthrows] at hv
    have hone := hatomic exn _ (processRequest_exception_iff.mpr hv)
    rw [output_processMessages p h, hv] at hone
    cases (p.atomic_finalOutput_iff request exn _).mp hone
  · intro hnot
    refine atomic_of_output_nil h fun exn t' hr => ?_
    rw [hv, handleKeepalive] at hr
    simp only [output_call] at hr
    rcases hhandler : p.impl.handleSubscribeKeepalive request t.output with ⟨e | result, output⟩
    · rw [hhandler] at hr
      cases hr
      by_contra hne
      obtain ⟨e, es, rfl⟩ := List.exists_cons_of_ne_nil hne
      exact hnot ⟨exn, e, es, hhandler⟩
    · rw [hhandler] at hr
      cases hr

/-- **An exception is answered with one error** and nothing else, but for the requests of
`ThrowsLate`: keepalives whose handler throws when there are envelopes in the output, its own or the
error for a message that does not parse. -/
theorem atomic_iff (p : RequestProcessor) {messages : List Bytes} {request : Envelope}
    (h : Requests messages request) : p.Atomic messages request ↔ ¬ p.ThrowsLate request := by
  constructor
  · rintro hatomic (⟨id, ids, hm, hthrows⟩ | ⟨htype, hm, hthrows⟩)
    · exact (atomic_keepalive_iff h (p.validateAndDispatch_keepalive hm)).mp hatomic hthrows
    · exact (atomic_keepalive_iff h (p.validateAndDispatch_keepaliveUnparsed htype hm)).mp
        hatomic hthrows
  · intro hnot
    rcases p.plain_or_special request with hplain |
      ⟨get, hm, stream, e, size, s', hopens, hread⟩ | ⟨htype, hm⟩ | ⟨id, ids, hm⟩ | ⟨htype, hm⟩
    · refine atomic_of_output_nil h fun exn t hr => ?_
      rw [hr] at hplain
      rcases hplain with hnil | ⟨hauthoritative, -⟩
      · exact hnil
      · cases hauthoritative
    · refine atomic_of_output_nil h fun exn t hr => ?_
      rw [p.validateAndDispatch_segment hm hopens hread] at hr
      cases hr
    · refine atomic_of_output_nil h fun exn t hr => ?_
      rw [p.validateAndDispatch_registerPlugin htype hm] at hr
      cases hr
    · exact (atomic_keepalive_iff h (p.validateAndDispatch_keepalive hm)).mpr fun hthrows =>
        hnot (.keepalive id ids hm hthrows)
    · exact (atomic_keepalive_iff h (p.validateAndDispatch_keepaliveUnparsed htype hm)).mpr
        fun hthrows => hnot (.keepaliveUnparsed htype hm hthrows)

/-- A request that is not implemented is answered with one error. -/
theorem atomic_cancel : (deferring [1]).Atomic
    [(Envelope.ofMessage 0 (.subscribeCancelV1 [7])).toProtocolZmqMessage]
    (Envelope.ofMessage 0 (.subscribeCancelV1 [7])) := by
  refine (atomic_iff (deferring [1]) (requests_toProtocolZmqMessage (by decide))).mpr ?_
  rintro (⟨id, ids, hm, -⟩ | ⟨htype, -, -⟩)
  · cases hm
  · exact absurd htype.messageType_eq (by decide)

/-- A keepalive whose message does not parse. -/
def unparsedKeepalive : Envelope where
  message := [[255]]
  messageNamespace := [messageNamespace]
  messageType := [MessageType.subscribeKeepaliveV1.enumeration]

/-- A processor whose keepalive handler throws. -/
def throwing : RequestProcessor :=
  { deferring [1] with
    impl := { (deferring [1]).impl with
      handleSubscribeKeepalive := fun _ output => (.error (.generic "send failure"), output) } }

/-- The error for the message and the error for the exception are both in the response. -/
theorem not_atomic_keepalive :
    ¬ throwing.Atomic [unparsedKeepalive.toProtocolZmqMessage] unparsedKeepalive := by
  intro h
  obtain ⟨e, he, -⟩ := h (.generic "send failure") _ (Prod.ext rfl rfl)
  have hlength : (throwing.processMessages
      [unparsedKeepalive.toProtocolZmqMessage]).2.output.length = 2 := by
    decide +kernel
  rw [he] at hlength
  cases hlength

end RequestProcessor

end Zippylog
