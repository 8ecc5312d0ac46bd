import Zippylog.Segments

/-!
# Replies

The responses to the requests that ask something of the store or subscribe. A client tells from the
response which request it is for by the tags, and what became of it by the type of its message.

- `Reply`: an error, or the response with the success message of the request, with the content that
  is asked for;
- `Replies`: a routine leaves one in an empty output, or nothing. There is one
  lemma for each routine, and the three requests for information share theirs with `CheckPath`;
- `reply_of_processMessages`: the output of `ProcessMessages` is a reply with the
  tags of the request on its first envelope.
-/

namespace Zippylog

open Wire

namespace RequestProcessor

/-- A segment is one of a stream that the processor serves. -/
def Segmented (p : RequestProcessor) (get : GetStreamSegmentV1) (payload : List Envelope)
    (stop : StreamSegmentEndV1) : Prop :=
  ∃ content stream, p.Serves get.path content ∧ p.Sends stream payload stop ∧
    (get.startOffset = 0 → InputStream.ofFile (some content) 0 = .ok stream)

/-- What the routine for a request can put in the output. -/
inductive Reply (p : RequestProcessor) (request : Envelope) : Message → List Envelope → Prop where
  | error (m : Message) (code : ErrorCode) (text : Bytes) :
      Reply p request m [p.respond (.error (some code) (some text))]
  | pong : Reply p request .pingV1 [p.respond .pongV1]
  | features (f : FeatureSpecificationV1) :
      Reply p request .getFeaturesV1 [p.respond (.featureSpecificationV1 f)]
  | storeInfo (info : StoreInfoV1) :
      Reply p request .getStoreInfoV1 [p.respond (.storeInfoV1 info)]
  | bucketInfo (path : Bytes) (info : BucketInfoV1) :
      Reply p request (.getBucketInfoV1 path) [p.respond (.bucketInfoV1 info)]
  | streamSetInfo (path : Bytes) (info : StreamSetInfoV1) :
      Reply p request (.getStreamSetInfoV1 path) [p.respond (.streamSetInfoV1 info)]
  | streamInfo (path : Bytes) (info : StreamInfoV1) :
      Reply p request (.getStreamInfoV1 path) [p.respond (.streamInfoV1 info)]
  | segment (get : GetStreamSegmentV1) (payload : List Envelope) (stop : StreamSegmentEndV1)
      (hsegment : p.Segmented get payload stop) :
      Reply p request (.getStreamSegmentV1 get) (p.segmentResponse request get payload stop)
  | storeChanges (paths : List Bytes) (ack : SubscriptionAcceptAckV1) :
      Reply p request (.subscribeStoreChangesV1 paths) [p.respond (.subscriptionAcceptAckV1 ack)]
  | envelopes (m : SubscribeEnvelopesV1) (ack : SubscriptionAcceptAckV1) :
      Reply p request (.subscribeEnvelopesV1 m) [p.respond (.subscriptionAcceptAckV1 ack)]

/-- The requests that `Reply` is about. -/
def HasReply : Message → Prop
  | .pingV1 | .getFeaturesV1 | .getStoreInfoV1 | .getBucketInfoV1 _ | .getStreamSetInfoV1 _
  | .getStreamInfoV1 _ | .getStreamSegmentV1 _ | .subscribeStoreChangesV1 _
  | .subscribeEnvelopesV1 _ => True
  | _ => False

/-- A routine that put a reply in the output, or left it empty. An exception comes
before any output. -/
structure Replies (p : RequestProcessor) (request : Envelope) (m : Message) (r : Processed) :
    Prop where
  output : r.2.output = [] ∨ p.Reply request m r.2.output
  exception : ∀ f, r.1 = .error f → r.2.output = []

variable {p : RequestProcessor} {request : Envelope} {m : Message}

/-! ## Results that reply -/

theorem replies_push {e : Envelope} (h : p.Reply request m [e]) {t : Trace} (ht : t.output = []) :
    p.Replies request m (.ok .authoritative, t.push e) where
  output := by
    rw [output_push, ht]
    exact Or.inr h
  exception := nofun

theorem replies_error (code : ErrorCode) (text : Bytes) {t : Trace} (ht : t.output = []) :
    p.Replies request m (.ok .authoritative, p.populateErrorResponse code text t) :=
  replies_push (.error m code text) ht

theorem replies_fault (f : Fault) {t : Trace} (ht : t.output = []) :
    p.Replies request m (.error f, t) where
  output := Or.inl ht
  exception _ _ := ht

theorem replies_checkPathThen {path : Bytes} {rb rs rn : Bool} {k : Trace → Processed}
    (h : p.checkPath path {} rb rs rn = (true, {}) → p.Replies request m (k {})) :
    p.Replies request m (p.checkPathThen path {} rb rs rn k) := by
  rw [checkPathThen]
  rcases p.checkPath_eq_or path {} rb rs rn with hc | ⟨code, text, hc⟩
  · rw [hc]
    exact h hc
  · rw [hc]
    exact replies_error code text rfl

/-! ## The routines -/

theorem replies_processStoreInfo :
    p.Replies request .getStoreInfoV1 (p.processStoreInfo request {}) := by
  rw [processStoreInfo]
  split
  · exact replies_error _ _ rfl
  · exact replies_push (.storeInfo _) rfl

theorem replies_processBucketInfo {path : Bytes}
    (h : request.getMessage 0 = some (.getBucketInfoV1 path)) :
    p.Replies request (.getBucketInfoV1 path) (p.processBucketInfo request {}) := by
  unfold processBucketInfo
  rw [h]
  exact replies_checkPathThen fun _ => replies_push (.bucketInfo path _) rfl

theorem replies_processStreamSetInfo {path : Bytes}
    (h : request.getMessage 0 = some (.getStreamSetInfoV1 path)) :
    p.Replies request (.getStreamSetInfoV1 path) (p.processStreamSetInfo request {}) := by
  unfold processStreamSetInfo
  rw [h]
  exact replies_checkPathThen fun _ => replies_push (.streamSetInfo path _) rfl

theorem replies_processStreamInfo {path : Bytes}
    (h : request.getMessage 0 = some (.getStreamInfoV1 path)) :
    p.Replies request (.getStreamInfoV1 path) (p.processStreamInfo request {}) := by
  unfold processStreamInfo
  rw [h]
  exact replies_checkPathThen fun _ => replies_push (.streamInfo path _) rfl

/-- The segment of an open stream, or the error that takes its place. -/
theorem replies_sendSegment {get : GetStreamSegmentV1} {content : Bytes} {stream : InputStream}
    (hserves : p.Serves get.path content)
    (hopen : get.startOffset = 0 → InputStream.ofFile (some content) 0 = .ok stream) :
    p.Replies request (.getStreamSegmentV1 get)
      (.ok .authoritative, p.sendSegment request get stream {}) := by
  rcases p.sendSegment_or request get stream {} with hnone | ⟨payload, stop, hsends, hsegment⟩
  · rw [hnone]
    exact replies_error _ _ rfl
  · rw [hsegment]
    exact ⟨Or.inr (.segment get payload stop ⟨content, stream, hserves, hsends, hopen⟩), nofun⟩

/-- A segment, or an error for the path, the stream or the offset. -/
theorem replies_processGetStream {get : GetStreamSegmentV1}
    (h : request.getMessage 0 = some (.getStreamSegmentV1 get)) :
    p.Replies request (.getStreamSegmentV1 get) (p.processGetStream request {}) := by
  unfold processGetStream
  rw [h]
  refine replies_checkPathThen fun hpath => ?_
  obtain ⟨content, hserves⟩ := serves_of_checkPath hpath
  rw [hserves.getInputStream]
  cases hopen : InputStream.ofFile (some content) 0 with
  | error e => exact replies_fault _ rfl
  | ok stream =>
    simp only
    split_ifs with h0
    · exact replies_sendSegment hserves fun _ => hopen
    · split
      · exact replies_fault _ rfl
      · exact replies_sendSegment hserves fun hzero => absurd hzero h0

/-- What the subscription handler returns becomes a reply, unless it defers. -/
theorem replies_subscribe {subscription : SubscriptionInfo} {paths : List Bytes}
    (h : ∀ ack, p.Reply request m [p.respond (.subscriptionAcceptAckV1 ack)]) :
    p.Replies request m (p.subscribe subscription paths {}) := by
  rw [subscribe]
  split_ifs
  · rw [callHandleSubscriptionRequest]
    simp only
    cases p.impl.handleSubscriptionRequest _ with
    | error e => exact replies_fault _ rfl
    | ok result =>
      cases result with
      | makeDeferred => exact ⟨Or.inl rfl, nofun⟩
      | makeError code text => exact replies_error code text rfl
      | makeSubscriptionAccepted id ttl =>
        simp only
        split_ifs
        · exact replies_error _ _ rfl
        · exact replies_push (h ⟨id, ttl⟩) rfl
      | makeSubscriptionRejected reason => exact replies_error _ reason rfl
      | makeSynchronous => exact replies_fault _ rfl
      | makeWriteResult written => exact replies_fault _ rfl
  · exact replies_error _ _ rfl

theorem replies_processSubscribeStoreChanges {paths : List Bytes}
    (h : request.getMessage 0 = some (.subscribeStoreChangesV1 paths)) :
    p.Replies request (.subscribeStoreChangesV1 paths)
      (p.processSubscribeStoreChanges request {}) := by
  unfold processSubscribeStoreChanges
  rw [h]
  exact replies_subscribe fun ack => .storeChanges paths ack

/-- The acceptance, an error, or nothing where there is code. -/
theorem replies_processSubscribeEnvelopes {m : SubscribeEnvelopesV1}
    (h : request.getMessage 0 = some (.subscribeEnvelopesV1 m)) :
    p.Replies request (.subscribeEnvelopesV1 m) (p.processSubscribeEnvelopes request {}) := by
  unfold processSubscribeEnvelopes
  rw [h]
  simp only
  split_ifs
  · exact replies_error _ _ rfl
  · split
    · split
      · exact replies_fault _ rfl
      · exact replies_error _ _ rfl
      · exact ⟨Or.inl rfl, nofun⟩
    · exact replies_subscribe fun ack => .envelopes m ack

/-- One routine after the other. -/
theorem replies_dispatchType (h : request.getMessage 0 = some m) (hreply : HasReply m) :
    p.Replies request m (p.dispatchType m.type request {}) := by
  cases m with
  | pingV1 => exact replies_push .pong rfl
  | getFeaturesV1 => exact replies_push (.features _) rfl
  | getStoreInfoV1 => exact replies_processStoreInfo
  | getBucketInfoV1 path => exact replies_processBucketInfo h
  | getStreamSetInfoV1 path => exact replies_processStreamSetInfo h
  | getStreamInfoV1 path => exact replies_processStreamInfo h
  | getStreamSegmentV1 get => exact replies_processGetStream h
  | subscribeStoreChangesV1 paths => exact replies_processSubscribeStoreChanges h
  | subscribeEnvelopesV1 m => exact replies_processSubscribeEnvelopes h
  | _ => exact hreply.elim

/-! ## Responses -/

/-- **The response** to a request that has a reply, when there is one. -/
theorem reply_of_processMessages (h : request.getMessage 0 = some m) (hreply : HasReply m)
    {t : Trace} (hok : p.processMessages [request.toProtocolZmqMessage] = (.ok (), t))
    (hne : t.output ≠ []) :
    ∃ es, p.Reply request m es ∧ t.output = tagFirst request.tag es := by
  obtain ⟨b, bs, -, -, hb, -, -, -⟩ := Envelope.getMessage_zero_eq_some h
  have hmessage : request.message ≠ [] := by
    rw [hb]
    exact List.cons_ne_nil _ _
  have hdecode := Envelope.ofZmqMessage_toProtocolZmqMessage (Envelope.serialize_ne_nil hmessage)
  rw [Envelope.toProtocolZmqMessage] at hok hdecode
  rw [processMessages_request hdecode] at hok
  have hreplies := replies_dispatchType (p := p) h hreply
  have hdecides : Decides (p.dispatchType m.type request {}) := by
    refine p.decides_dispatchType request {} ?_ ?_ ?_
    all_goals
      intro htype
      cases m <;> first | exact hreply | cases htype
  rw [← p.validateAndDispatch_of_getMessage h {}] at hreplies hdecides
  cases hv : p.validateAndDispatch request {} with
  | mk r t' =>
    rw [hv] at hreplies hdecides
    cases r with
    | error f =>
      -- the exception is reported as the only envelope
      rw [processRequest_error hv] at hok
      cases f with
      | exception e =>
        have hnil := hreplies.exception _ rfl
        cases hok
        refine ⟨_, .error m .generalErrorProcessing
          (str "exception when processing request"), ?_⟩
        show tagFirst request.tag (t'.output ++ [_]) = _
        rw [show t'.output = [] from hnil]
        rfl
      | assertion => cases hok
      | undefinedBehavior => cases hok
      | noReturn => cases hok
    | ok status =>
      cases status with
      | deferred => exact absurd rfl hdecides
      | authoritative =>
        rcases hreplies.output with hnil | hout
        · rw [processRequest_unanswered hv hnil] at hok
          cases hok
        · by_cases hnil : t'.output = []
          · rw [processRequest_unanswered hv hnil] at hok
            cases hok
          · rw [processRequest_authoritative hv hnil] at hok
            rw [createOutput] at hok
            simp only [List.isEmpty_iff, tagFirst_eq_nil_iff, hnil, if_false] at hok
            cases hok
            exact ⟨t'.output, hout, rfl⟩

end RequestProcessor

end Zippylog
