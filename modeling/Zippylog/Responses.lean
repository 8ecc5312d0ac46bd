import Zippylog.RequestProcessorProof

/-!
# Responses

What `ProcessRequest`, `ProcessMessages` and `Pump` make of what the routines of a request processor
return. `ProcessRequest` asserts that a routine which is authoritative has left a response, and
`Pump` sends the response as one message: the identities, an empty frame, and each envelope once.

- `consistent_iff`: the assertions hold for all requests but those that a routine leaves
  unanswered, and a deferred request is answered only on purpose. The requests are those of
  `Unanswered`, whose conditions are on the request and on what its handler returns.
- `pump_frames_iff`: the frames that `Pump` sends are those of the response when it is one envelope.
  Of a longer response the first envelope goes out twice, since the loop over the others begins with
  it as well.
-/

namespace Zippylog

open Wire

namespace RequestProcessor

/-! ## Output -/

@[simp] theorem tagFirst_eq_nil_iff {tags : List Bytes} {es : List Envelope} :
    tagFirst tags es = [] ↔ es = [] := by
  cases es <;> simp [tagFirst]

@[simp] theorem length_tagFirst (tags : List Bytes) (es : List Envelope) :
    (tagFirst tags es).length = es.length := by
  cases es <;> rfl

/-- An answered authoritative request gets the tags of its request. -/
theorem processRequest_authoritative {p : RequestProcessor} {request : Envelope} {t t' : Trace}
    (h : p.validateAndDispatch request t = (.ok .authoritative, t')) (hne : t'.output ≠ []) :
    p.processRequest request t =
      (.ok .authoritative, { t' with output := tagFirst request.tag t'.output }) := by
  unfold processRequest
  rw [h]
  show (if t'.output.isEmpty = true then _ else _) = _
  rw [if_neg (mt List.isEmpty_iff.mp hne)]

theorem processRequest_unanswered {p : RequestProcessor} {request : Envelope} {t t' : Trace}
    (h : p.validateAndDispatch request t = (.ok .authoritative, t')) (hnil : t'.output = []) :
    p.processRequest request t = (.error .assertion, t') := by
  unfold processRequest
  rw [h]
  show (if t'.output.isEmpty = true then _ else _) = _
  rw [if_pos (List.isEmpty_iff.mpr hnil)]

theorem processRequest_deferred {p : RequestProcessor} {request : Envelope} {t t' : Trace}
    (h : p.validateAndDispatch request t = (.ok .deferred, t')) :
    p.processRequest request t = (.ok .deferred, t') := by
  unfold processRequest
  rw [h]

theorem processRequest_error {p : RequestProcessor} {request : Envelope} {t t' : Trace} {f : Fault}
    (h : p.validateAndDispatch request t = (.error f, t')) :
    p.processRequest request t = (.error f, t') := by
  unfold processRequest
  rw [h]

/-- What `ProcessMessages` does with a frame that holds a request. -/
theorem processMessages_request {p : RequestProcessor} {frame : Bytes} {request : Envelope}
    (h : Envelope.ofZmqMessage (1 :: frame) 1 = .ok request) (rest : List Bytes) :
    p.processMessages ((1 :: frame) :: rest) =
      p.createOutput request (p.processRequest request {}) := by
  have hframe : frame.isEmpty ≠ true := by
    intro hempty
    rw [List.isEmpty_iff.mp hempty] at h
    cases h
  unfold processMessages
  simp only [ne_eq, not_true_eq_false, if_false, if_neg hframe, h]

/-! ## Assertions -/

/-- The assertions about the response to a request, and what is sent for one that
is deferred. -/
structure Consistent (p : RequestProcessor) (request : Envelope) : Prop where
  /-- `assert(output.size() > 0)` in `ProcessRequest`, which then reads `output[0]` -/
  processRequest : (p.processRequest request {}).1 ≠ .error .assertion
  /-- `assert(output.size())` in `ProcessMessages` -/
  processMessages (frame : Bytes) (rest : List Bytes)
    (h : Envelope.ofZmqMessage (1 :: frame) 1 = .ok request) :
    (p.processMessages ((1 :: frame) :: rest)).1 ≠ .error .assertion
  authoritative (t : Trace) (h : p.processRequest request {} = (.ok .authoritative, t)) :
    t.output ≠ []
  deferred (t : Trace) (h : p.processRequest request {} = (.ok .deferred, t)) :
    (∀ identities, sendResponse identities t.output = []) ∨ p.Filled request t

/-- The assertion in `ProcessRequest`. -/
theorem Answers.processRequest {p : RequestProcessor} {request : Envelope} {t : Trace}
    (h : Answers (p.validateAndDispatch request t)) : Answers (p.processRequest request t) := by
  cases hv : p.validateAndDispatch request t with
  | mk r t' =>
    rw [hv] at h
    cases r with
    | error f =>
      rw [processRequest_error hv]
      exact h
    | ok status =>
      cases status with
      | authoritative =>
        have hne := h.output_ne_nil rfl
        rw [processRequest_authoritative hv hne]
        exact ⟨fun _ => mt tagFirst_eq_nil_iff.mp hne, fun he => (nomatch he)⟩
      | deferred =>
        rw [processRequest_deferred hv]
        exact h

/-- The assertion in `ProcessMessages`. -/
theorem Answers.createOutput {r : Processed} (h : Answers r) (p : RequestProcessor)
    (request : Envelope) : (p.createOutput request r).1 ≠ .error .assertion := by
  obtain ⟨r, t⟩ := r
  cases r with
  | error f =>
    cases f with
    -- an exception is answered with an error
    | exception e => exact fun he => nomatch he
    | assertion => exact absurd rfl h.no_assertion
    | undefinedBehavior => exact fun he => nomatch he
    | noReturn => exact fun he => nomatch he
  | ok status =>
    cases status with
    | authoritative =>
      show (if t.output.isEmpty = true then _ else _ : Except Fault Unit × Trace).1 ≠ _
      rw [if_neg (mt List.isEmpty_iff.mp (h.output_ne_nil rfl))]
      exact fun he => nomatch he
    | deferred => exact fun he => nomatch he

/-- A request that is deferred was deferred by its routine. -/
theorem validateAndDispatch_of_deferred {p : RequestProcessor} {request : Envelope} {t t' : Trace}
    (h : p.processRequest request t = (.ok .deferred, t')) :
    p.validateAndDispatch request t = (.ok .deferred, t') := by
  cases hv : p.validateAndDispatch request t with
  | mk r t'' =>
    cases r with
    | error f =>
      rw [processRequest_error hv] at h
      cases h
    | ok status =>
      cases status with
      | authoritative =>
        by_cases hnil : t''.output = []
        · rw [processRequest_unanswered hv hnil] at h
          cases h
        · rw [processRequest_authoritative hv hnil] at h
          cases h
      | deferred =>
        rw [processRequest_deferred hv] at h
        cases h
        rfl

/-- **The assertions hold** for a request, in `ProcessRequest` and in `ProcessMessages`, exactly
when no routine leaves it unanswered: one that says it is authoritative and puts no envelope in the
output. This is so for every processor, store and handler, and for what a handler throws. -/
theorem consistent_iff (p : RequestProcessor) (request : Envelope) :
    p.Consistent request ↔ ¬ p.Unanswered request := by
  rw [← answers_validateAndDispatch_iff]
  constructor
  · intro h
    refine ⟨fun hauthoritative hnil => ?_, fun hassertion => ?_⟩
    · refine h.processRequest ?_
      rw [processRequest_unanswered (Prod.ext hauthoritative rfl) hnil]
    · refine h.processRequest ?_
      rw [processRequest_error (Prod.ext hassertion rfl)]
  · intro h
    have hprocess := Answers.processRequest h
    refine ⟨hprocess.no_assertion, fun frame rest hframe => ?_, fun t hauthoritative => ?_,
      fun t hdeferred => ?_⟩
    · rw [processMessages_request hframe]
      exact Answers.createOutput hprocess p request
    · rw [hauthoritative] at hprocess
      exact hprocess.output_ne_nil rfl
    · refine (output_of_deferred (validateAndDispatch_of_deferred hdeferred)).imp_left fun hnil => ?_
      intro identities
      rw [hnil]
      rfl

/-- A store with one stream. -/
def singleStream (content : Bytes) : Store where
  bucketNames := [str "bucket"]
  streamSetNames _ := [str "set"]
  streamNames _ _ := [str "stream"]
  file bucket set stream :=
    if bucket = str "bucket" ∧ set = str "set" ∧ stream = str "stream" then some content else none

/-- A processor over that store whose handlers all answer later. -/
def deferring (content : Bytes) : RequestProcessor where
  store := singleStream content
  impl := {
    handleSubscriptionRequest := fun _ => .ok .makeDeferred
    handleSubscribeKeepalive := fun _ output => (.ok .makeDeferred, output)
    handleWriteEnvelopes := fun _ _ _ => .ok .makeDeferred }
  getStreamMaxBytes := 256 * 1024
  getStreamMaxEnvelopes := 1024
  lua _ _ := .finish fun _ => some .nil
  now := 0

/-- A subscription with Lua code that loads is left unanswered. -/
theorem not_consistent_lua_code :
    ¬ (deferring [1]).Consistent
      (Envelope.ofMessage 0 (.subscribeEnvelopesV1 ⟨[], [], [], [], some []⟩)) := by
  intro h
  exact h.processRequest (by decide +kernel)

/-! ## Frames -/

/-- The payload envelopes `Pump` sends: of several the first goes out twice. -/
def sent : List Envelope → List Envelope
  | e :: e' :: es => e :: e :: e' :: es
  | es => es

theorem sendRest_eq (es : List Envelope) :
    sendRest es = ZeroMQ.multipart (es.map Envelope.toProtocolZmqMessage) := by
  induction es with
  | nil => rfl
  | cons e es ih =>
    cases es with
    | nil => rfl
    | cons => exact congrArg (_ :: ·) ih

/-- The frames of a response are one multipart message. -/
theorem sendResponse_eq (identities : List Bytes) {es : List Envelope} (h : es ≠ []) :
    sendResponse identities es =
      ZeroMQ.multipart (identities ++ [] :: (sent es).map Envelope.toProtocolZmqMessage) := by
  rw [ZeroMQ.multipart_append _ (List.cons_ne_nil _ _)]
  cases es with
  | nil => exact absurd rfl h
  | cons e es =>
    cases es with
    | nil =>
      show identities.map _ ++ [_] ++ [_] ++ [] = _
      rw [List.append_nil, List.append_assoc]
      rfl
    | cons e' es =>
      show identities.map _ ++ [_] ++ [_] ++ sendRest (e :: e' :: es) = _
      rw [sendRest_eq, List.append_assoc, List.append_assoc]
      rfl

theorem length_sent_eq_iff (es : List Envelope) :
    (sent es).length = es.length ↔ es.length ≤ 1 := by
  rcases es with _ | ⟨e, _ | ⟨e', es⟩⟩ <;> simp [sent]

/-- **The frames `Pump` sends** for a request that is answered are the identities, an empty frame
and each response envelope once exactly when there is one envelope in the response. Of two and more
the first is sent a second time in front of the others. -/
theorem pump_frames_iff (p : RequestProcessor) (container : MessageContainer) {t : Trace}
    (h : { p with currentRequestIdentities := container.identities }.processMessages
      container.messages = (.ok (), t)) (hne : t.output ≠ []) :
    p.pump container = .ok (ZeroMQ.multipart
        (container.identities ++ [] :: t.output.map Envelope.toProtocolZmqMessage)) ↔
      t.output.length = 1 := by
  have hpump : p.pump container = .ok (sendResponse container.identities t.output) := by
    unfold pump
    rw [h]
  rw [hpump, sendResponse_eq _ hne]
  constructor
  · intro heq
    have hlength := congrArg List.length (Except.ok.inj heq)
    simp only [ZeroMQ.length_multipart, List.length_append, List.length_cons,
      List.length_map] at hlength
    have hle := (length_sent_eq_iff t.output).mp (by omega)
    have hpos := List.length_pos_iff.mpr hne
    omega
  · intro hone
    obtain ⟨e, he⟩ := List.length_eq_one_iff.mp hone
    rw [he]
    rfl

/-- A ping is answered with one envelope. -/
theorem pump_frames_ping :
    (deferring [1]).pump ⟨[[7]], [(Envelope.ofMessage 0 .pingV1).toProtocolZmqMessage]⟩ =
      .ok (ZeroMQ.multipart ([[7]] ++ [] ::
        [Envelope.ofMessage 0 .pongV1].map Envelope.toProtocolZmqMessage)) :=
  (pump_frames_iff (deferring [1])
    ⟨[[7]], [(Envelope.ofMessage 0 .pingV1).toProtocolZmqMessage]⟩
    (t := { output := [Envelope.ofMessage 0 .pongV1] }) (by rfl) (by decide)).mpr rfl

/-- The stream from its beginning. -/
def wholeStream : GetStreamSegmentV1 := ⟨str "/bucket/set/stream", 0, none, none⟩

def getStream : Envelope := Envelope.ofMessage 0 (.getStreamSegmentV1 wholeStream)

/-- A segment of one envelope is a response of three, sent as four. -/
theorem not_pump_frames_segment :
    ¬ ∀ t : Trace, (deferring [1, 2, 40, 5]).processMessages [getStream.toProtocolZmqMessage] =
        (.ok (), t) →
      (deferring [1, 2, 40, 5]).pump ⟨[], [getStream.toProtocolZmqMessage]⟩ =
        .ok (ZeroMQ.multipart ([] ++ [] :: t.output.map Envelope.toProtocolZmqMessage)) := by
  intro h
  exact absurd (h _ (Prod.ext (by rfl) rfl)) (by decide +kernel)

end RequestProcessor

end Zippylog
