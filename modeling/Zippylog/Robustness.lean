import Zippylog.Responses

/-!
# Robustness of the server

What `ProcessMessages` makes of any frames, from any sender. It is to answer with a response or to
defer, whatever is in them: an exception that leaves it ends the device, and an assertion or a
dereferenced `NULL` ends the process.

- `Returns`: a routine comes back, if with an exception, which `ProcessRequest` catches. There is
  one lemma for each routine whose message decodes.
- `Crashes`: the requests with which it does not: a keepalive without an id, and Lua code that
  breaks the interpreter or the code around it.
- `served_iff`: the frames for which `ProcessMessages` returns a response or defers. What decodes is
  what the parser of the library takes, with all that it skips.
-/

namespace Zippylog

open Wire

namespace RequestProcessor

/-- What a routine returned, or threw. -/
structure Returns (r : Processed) : Prop where
  no_undefinedBehavior : r.1 ≠ .error .undefinedBehavior
  no_noReturn : r.1 ≠ .error .noReturn

theorem returns_ok (status : ResponseStatus) (t : Trace) : Returns (.ok status, t) :=
  ⟨nofun, nofun⟩

theorem returns_exception (e : Exn) (t : Trace) : Returns (.error (.exception e), t) :=
  ⟨by simp, by simp⟩

variable {p : RequestProcessor} {request : Envelope} {t : Trace}

theorem returns_checkPathThen {path : Bytes} {rb rs rn : Bool} {k : Trace → Processed}
    (h : Returns (k t)) : Returns (p.checkPathThen path t rb rs rn k) := by
  rw [checkPathThen]
  rcases p.checkPath_eq_or path t rb rs rn with hc | ⟨code, text, hc⟩
  · rw [hc]
    exact h
  · rw [hc]
    exact returns_ok _ _

/-! ## The routines -/

theorem returns_processBucketInfo {path : Bytes}
    (h : request.getMessage 0 = some (.getBucketInfoV1 path)) :
    Returns (p.processBucketInfo request t) := by
  rw [processBucketInfo, h]
  exact returns_checkPathThen (returns_ok _ _)

theorem returns_processStreamSetInfo {path : Bytes}
    (h : request.getMessage 0 = some (.getStreamSetInfoV1 path)) :
    Returns (p.processStreamSetInfo request t) := by
  rw [processStreamSetInfo, h]
  exact returns_checkPathThen (returns_ok _ _)

theorem returns_processStreamInfo {path : Bytes}
    (h : request.getMessage 0 = some (.getStreamInfoV1 path)) :
    Returns (p.processStreamInfo request t) := by
  rw [processStreamInfo, h]
  exact returns_checkPathThen (returns_ok _ _)

/-- Whatever is in the file, reading it ends with a record, an end or a failure. -/
theorem returns_processGetStream {get : GetStreamSegmentV1}
    (h : request.getMessage 0 = some (.getStreamSegmentV1 get)) :
    Returns (p.processGetStream request t) := by
  unfold processGetStream
  rw [h]
  refine returns_checkPathThen ?_
  split
  · exact returns_ok _ _
  · exact returns_exception _ _
  · split_ifs
    · exact returns_ok _ _
    · split
      · exact returns_exception _ _
      · exact returns_ok _ _

/-- The subscription handler returns or throws, and both are answered. -/
theorem returns_subscribe {subscription : SubscriptionInfo} {paths : List Bytes} :
    Returns (p.subscribe subscription paths t) := by
  unfold subscribe
  split_ifs
  · split
    · rename_i hr
      obtain ⟨e, rfl⟩ := callHandleSubscriptionRequest_error hr
      exact returns_exception _ _
    · exact returns_ok _ _
  · exact returns_ok _ _

theorem returns_handleKeepalive : Returns (p.handleKeepalive request t) := by
  rw [handleKeepalive]
  split
  · exact returns_exception _ _
  · exact returns_ok _ _

/-- An entry that does not parse is skipped or throws what `ProcessMessages` catches. -/
theorem returns_processWriteEnvelope {m : WriteEnvelopeV1}
    (h : request.getMessage 0 = some (.writeEnvelopeV1 m)) :
    Returns (p.processWriteEnvelope request t) := by
  unfold processWriteEnvelope
  split
  · exact returns_ok _ _
  · split
    · exact returns_ok _ _
    · split_ifs
      · exact returns_ok _ _
      · split
        · rename_i hr
          obtain ⟨e, rfl⟩ := writeEnvelopes_error hr
          exact returns_exception _ _
        · exact returns_ok _ _
  · rename_i hne hm
    rw [h] at hm
    cases hm
    exact absurd rfl (hne m)

/-! ## Crashes -/

/-- What `LoadLuaCode` makes the interpreter do with the code. -/
def luaRun (p : RequestProcessor) (code : Bytes) : Except Fault (Except Lua.Value Lua.Globals) :=
  (p.lua p.luaMemoryMax (LuaState.cString code)).exec p.now []

/-- Lua code from which `LoadLuaCode` does not come back. -/
inductive Breaks (p : RequestProcessor) (code : Bytes) : Prop where
  /-- It uses an envelope after its `__gc`, or does not end. -/
  | run (f : Fault) (h : p.luaRun code = .error f)
  /-- It raises a value that is not a string, for which `lua_tostring` is `NULL`. -/
  | error (value : Lua.Value) (h : p.luaRun code = .ok (.error value))
      (hvalue : value.toString? = none)
  /-- It leaves no memory to look up a variable. -/
  | lookup (globals : Lua.Globals) (name : Bytes) (h : p.luaRun code = .ok (.ok globals))
      (hname : name ∈ LuaState.capabilityNames) (hnone : globals name = none)

/-- The ways in which loading code does not come back are those of `Breaks`. -/
theorem loadLuaCode_error_iff {code : Bytes} :
    (∃ f, p.loadLuaCode code = .error f) ↔ p.Breaks code := by
  constructor
  · rintro ⟨f, h⟩
    rw [loadLuaCode, LuaState.loadLuaCode] at h
    split at h
    · rename_i hrun
      exact .run _ hrun
    · rename_i hrun
      split at h
      · rename_i hvalue
        exact .error _ hrun hvalue
      · cases h
    · rename_i hrun
      split at h
      · rename_i hglobals
        obtain ⟨name, hname, hnone⟩ := LuaState.determineCapabilities_eq_none_iff.mp hglobals
        exact .lookup _ name hrun hname hnone
      · cases h
      · cases h
  · rintro (⟨f, h⟩ | ⟨value, h, hvalue⟩ | ⟨globals, name, h, hname, hnone⟩)
    · rw [luaRun] at h
      exact ⟨f, by rw [loadLuaCode, LuaState.loadLuaCode, h]⟩
    · rw [luaRun] at h
      exact ⟨.undefinedBehavior, by simp only [loadLuaCode, LuaState.loadLuaCode, h, hvalue]⟩
    · rw [luaRun] at h
      have hglobals := LuaState.determineCapabilities_eq_none_iff.mpr ⟨name, hname, hnone⟩
      exact ⟨.noReturn, by simp only [loadLuaCode, LuaState.loadLuaCode, h, hglobals]⟩

/-- The requests from which the routine does not return. -/
inductive Crashes (p : RequestProcessor) (request : Envelope) : Prop where
  /-- A keepalive without an id, of which `id(0)` is read. -/
  | keepalive (hm : request.getMessage 0 = some (.subscribeKeepaliveV1 []))
  /-- An envelope subscription with Lua code that breaks. -/
  | luaCode (m : SubscribeEnvelopesV1) (code : Bytes)
      (hm : request.getMessage 0 = some (.subscribeEnvelopesV1 m))
      (hlength : m.filterEnumerationNamespace.length = m.filterEnumerationType.length)
      (hcode : m.luaCode = some code) (h : p.Breaks code)

/-- Where the code comes back, so does the routine. -/
theorem returns_processSubscribeEnvelopes {m : SubscribeEnvelopesV1}
    (h : request.getMessage 0 = some (.subscribeEnvelopesV1 m)) (hcrash : ¬ p.Crashes request) :
    Returns (p.processSubscribeEnvelopes request t) := by
  unfold processSubscribeEnvelopes
  rw [h]
  dsimp only
  split_ifs with hlength
  · exact returns_ok _ _
  · split
    · rename_i code hcode
      split
      · rename_i f hload
        have hbreaks := loadLuaCode_error_iff.mp ⟨f, hload⟩
        exact absurd (.luaCode m code h (not_not.mp hlength) hcode hbreaks) hcrash
      · exact returns_ok _ _
      · exact returns_ok _ _
    · exact returns_subscribe

/-- A message that does not decode is answered. -/
theorem returns_dispatchType_none (type : MessageType) (h : request.getMessage 0 = none) :
    Returns (p.dispatchType type request t) := by
  cases type with
  | getStoreInfoV1 =>
    show Returns (p.processStoreInfo request t)
    rw [processStoreInfo, h]
    exact returns_ok _ _
  | getBucketInfoV1 =>
    show Returns (p.processBucketInfo request t)
    rw [processBucketInfo, h]
    exact returns_ok _ _
  | getStreamSetInfoV1 =>
    show Returns (p.processStreamSetInfo request t)
    rw [processStreamSetInfo, h]
    exact returns_ok _ _
  | getStreamInfoV1 =>
    show Returns (p.processStreamInfo request t)
    rw [processStreamInfo, h]
    exact returns_ok _ _
  | getStreamSegmentV1 =>
    show Returns (p.processGetStream request t)
    unfold processGetStream
    rw [h]
    exact returns_ok _ _
  | subscribeStoreChangesV1 =>
    show Returns (p.processSubscribeStoreChanges request t)
    rw [processSubscribeStoreChanges, h]
    exact returns_ok _ _
  | subscribeEnvelopesV1 =>
    show Returns (p.processSubscribeEnvelopes request t)
    unfold processSubscribeEnvelopes
    rw [h]
    exact returns_ok _ _
  | subscribeKeepaliveV1 =>
    show Returns (p.processSubscribeKeepalive request t)
    rw [processSubscribeKeepalive, h]
    exact returns_handleKeepalive
  | writeEnvelopeV1 =>
    show Returns (p.processWriteEnvelope request t)
    unfold processWriteEnvelope
    rw [h]
    exact returns_ok _ _
  | registerPluginV1 =>
    show Returns (p.processRegisterPlugin request t)
    rw [processRegisterPlugin, h]
    exact returns_ok _ _
  -- these routines are not implemented, and throw
  | subscribeCancelV1 => exact returns_exception _ _
  | unregisterPluginV1 => exact returns_exception _ _
  | getPluginStatusV1 => exact returns_exception _ _
  | _ => exact returns_ok _ _

/-- One routine after the other: only a keepalive without ids and code that does not come back end
the process. -/
theorem returns_dispatchType {m : Message} (h : request.getMessage 0 = some m)
    (hcrash : ¬ p.Crashes request) : Returns (p.dispatchType m.type request t) := by
  cases m with
  | getStoreInfoV1 =>
    show Returns (p.processStoreInfo request t)
    rw [processStoreInfo, h]
    exact returns_ok _ _
  | getBucketInfoV1 path => exact returns_processBucketInfo h
  | getStreamSetInfoV1 path => exact returns_processStreamSetInfo h
  | getStreamInfoV1 path => exact returns_processStreamInfo h
  | getStreamSegmentV1 get => exact returns_processGetStream h
  | subscribeStoreChangesV1 paths =>
    show Returns (p.processSubscribeStoreChanges request t)
    rw [processSubscribeStoreChanges, h]
    exact returns_subscribe
  | subscribeEnvelopesV1 m => exact returns_processSubscribeEnvelopes h hcrash
  | subscribeKeepaliveV1 ids =>
    cases ids with
    | nil => exact absurd (.keepalive h) hcrash
    | cons id ids =>
      show Returns (p.processSubscribeKeepalive request t)
      rw [processSubscribeKeepalive, h]
      exact returns_handleKeepalive
  | writeEnvelopeV1 m => exact returns_processWriteEnvelope h
  | registerPluginV1 name luaCode =>
    show Returns (p.processRegisterPlugin request t)
    rw [processRegisterPlugin, h]
    exact returns_exception _ _
  | subscribeCancelV1 id => exact returns_exception _ _
  | unregisterPluginV1 name => exact returns_exception _ _
  | getPluginStatusV1 name => exact returns_exception _ _
  | _ => exact returns_ok _ _

/-- **The routines return** from all requests but those of `Crashes`. -/
theorem returns_validateAndDispatch_iff :
    Returns (p.validateAndDispatch request t) ↔ ¬ p.Crashes request := by
  constructor
  · intro hreturns hcrash
    rcases hcrash with ⟨hm⟩ | ⟨m, code, hm, hlength, hcode, hbreaks⟩
    · refine hreturns.no_undefinedBehavior ?_
      rw [p.validateAndDispatch_of_getMessage hm]
      show (p.processSubscribeKeepalive request t).1 = _
      rw [processSubscribeKeepalive, hm]
    · obtain ⟨f, hload⟩ := loadLuaCode_error_iff.mpr hbreaks
      have hr : p.validateAndDispatch request t = (.error f, t) := by
        rw [p.validateAndDispatch_of_getMessage hm]
        show p.processSubscribeEnvelopes request t = _
        unfold processSubscribeEnvelopes
        rw [hm]
        dsimp only
        rw [if_neg (not_not.mpr hlength), hcode]
        dsimp only
        rw [hload]
      rcases LuaState.loadLuaCode_error hload with rfl | rfl
      · exact hreturns.no_undefinedBehavior (congrArg Prod.fst hr)
      · exact hreturns.no_noReturn (congrArg Prod.fst hr)
  · intro hcrash
    rcases p.validateAndDispatch_cases request t with ⟨code, message, h⟩ |
      ⟨requestType, hcount, hns, htype⟩
    · rw [h]
      exact returns_ok _ _
    · cases hm : request.getMessage 0 with
      | none =>
        rw [p.validateAndDispatch_eq _ hcount hns htype, dispatch]
        split
        · exact returns_dispatchType_none _ hm
        · exact returns_ok _ _
      | some m =>
        rw [p.validateAndDispatch_of_getMessage hm]
        exact returns_dispatchType hm hcrash

/-! ## Frames -/

/-- The frames hold a request with the result `DEFERRED`. -/
def Deferred (p : RequestProcessor) (messages : List Bytes) : Prop :=
  ∃ frame rest request t, messages = (1 :: frame) :: rest ∧
    Envelope.ofZmqMessage (1 :: frame) 1 = .ok request ∧
    p.processRequest request {} = (.ok .deferred, t)

/-- `ProcessMessages` comes back with a response, or the result is deferred. -/
def Served (p : RequestProcessor) (messages : List Bytes) : Prop :=
  ∃ t, p.processMessages messages = (.ok (), t) ∧ (t.output ≠ [] ∨ p.Deferred messages)

/-- The frames hold a request that is left unanswered, or from which the routine does
not return. -/
def Breaking (p : RequestProcessor) (messages : List Bytes) : Prop :=
  ∃ frame rest request, messages = (1 :: frame) :: rest ∧
    Envelope.ofZmqMessage (1 :: frame) 1 = .ok request ∧
    (p.Unanswered request ∨ p.Crashes request)

section

variable {frame : Bytes} {rest : List Bytes}

/-- What breaks the routine breaks `ProcessMessages`. -/
theorem createOutput_error {f : Fault} (hf : ∀ e, f ≠ .exception e) :
    (p.createOutput request (.error f, t)).1 = .error f := by
  cases f with
  | exception e => exact absurd rfl (hf e)
  | _ => rfl

theorem not_served_of_error {messages : List Bytes} {f : Fault}
    (h : (p.processMessages messages).1 = .error f) : ¬ p.Served messages := by
  rintro ⟨t, hok, -⟩
  rw [hok] at h
  cases h

/-- A request that its routine leaves without an answer meets the assertion behind it. -/
theorem not_served_of_unanswered (h : Envelope.ofZmqMessage (1 :: frame) 1 = .ok request)
    (hun : p.Unanswered request) : ¬ p.Served ((1 :: frame) :: rest) := by
  have hanswers := mt (answers_validateAndDispatch_iff p request).mp (not_not.mpr hun)
  refine not_served_of_error (f := .assertion) ?_
  rw [processMessages_request h]
  by_contra hassertion
  refine hanswers ⟨fun hauthoritative hnil => hassertion ?_, fun herror => hassertion ?_⟩
  · rw [processRequest_unanswered (Prod.ext hauthoritative rfl) hnil]
    rfl
  · rw [processRequest_error (Prod.ext herror rfl)]
    rfl

/-- A request that crashes its routine ends the process, so nothing is sent. -/
theorem not_served_of_crashes (h : Envelope.ofZmqMessage (1 :: frame) 1 = .ok request)
    (hcrash : p.Crashes request) : ¬ p.Served ((1 :: frame) :: rest) := by
  have hreturns := mt (returns_validateAndDispatch_iff (t := {})).mp (not_not.mpr hcrash)
  intro hserved
  refine hreturns ⟨fun herror => ?_, fun herror => ?_⟩
  · refine not_served_of_error (f := .undefinedBehavior) ?_ hserved
    rw [processMessages_request h, processRequest_error (Prod.ext herror rfl)]
    exact createOutput_error (by simp)
  · refine not_served_of_error (f := .noReturn) ?_ hserved
    rw [processMessages_request h, processRequest_error (Prod.ext herror rfl)]
    exact createOutput_error (by simp)

/-- A request that is answered and does not break is served. -/
theorem served_request (h : Envelope.ofZmqMessage (1 :: frame) 1 = .ok request)
    (hun : ¬ p.Unanswered request) (hcrash : ¬ p.Crashes request) :
    p.Served ((1 :: frame) :: rest) := by
  have hanswers := (answers_validateAndDispatch_iff p request).mpr hun
  have hreturns := (returns_validateAndDispatch_iff (t := {})).mpr hcrash
  rw [Served, processMessages_request h]
  cases hv : p.validateAndDispatch request {} with
  | mk r t =>
    rw [hv] at hanswers hreturns
    cases r with
    | error f =>
      rw [processRequest_error hv]
      cases f with
      -- an exception is answered with an error
      | exception e =>
        refine ⟨_, rfl, Or.inl ?_⟩
        exact mt tagFirst_eq_nil_iff.mp (output_populateErrorResponse_ne_nil _ _ _ _)
      | assertion => exact absurd rfl hanswers.no_assertion
      | undefinedBehavior => exact absurd rfl hreturns.no_undefinedBehavior
      | noReturn => exact absurd rfl hreturns.no_noReturn
    | ok status =>
      cases status with
      | authoritative =>
        have hne := hanswers.output_ne_nil rfl
        rw [processRequest_authoritative hv hne]
        refine ⟨_, if_neg ?_, Or.inl (mt tagFirst_eq_nil_iff.mp hne)⟩
        exact mt List.isEmpty_iff.mp (mt tagFirst_eq_nil_iff.mp hne)
      | deferred =>
        have hdeferred := processRequest_deferred hv
        rw [hdeferred]
        exact ⟨t, rfl, Or.inr ⟨frame, rest, request, t, rfl, h, hdeferred⟩⟩

end

/-- Frames without a request are answered with an error. -/
theorem served_of_no_request {initial : Bytes} {rest : List Bytes}
    (h : ∀ frame request, initial = 1 :: frame →
      Envelope.ofZmqMessage (1 :: frame) 1 ≠ .ok request) : p.Served (initial :: rest) := by
  have hserved : ∀ code message,
      p.processMessages (initial :: rest) = (.ok (), p.populateErrorResponse code message {}) →
        p.Served (initial :: rest) := by
    intro code message heq
    exact ⟨_, heq, Or.inl (output_populateErrorResponse_ne_nil _ _ _ _)⟩
  cases initial with
  | nil => exact hserved _ _ rfl
  | cons version frame =>
    by_cases hversion : version ≠ 1
    · exact hserved _ _ (if_pos hversion)
    · obtain rfl := not_not.mp hversion
      by_cases hempty : frame.isEmpty = true
      · refine hserved .protocolNoEnvelope
          (str "protocol version 1 0MQ message received without an envelope") ?_
        simp only [processMessages, ne_eq, not_true_eq_false, if_false, if_pos hempty]
      · cases hframe : Envelope.ofZmqMessage (1 :: frame) 1 with
        | ok request => exact absurd hframe (h frame request rfl)
        | error e =>
          refine hserved .envelopeParseFailure (str "error parsing envelope") ?_
          simp only [processMessages, ne_eq, not_true_eq_false, if_false, if_neg hempty, hframe]

/-- **Robustness**: `ProcessMessages` comes back with a response or a deferred result exactly when
there is a frame and what it holds does not break a routine. The frames are any bytes, so that most
of them hold no request at all, and the store and the handlers are any as well. -/
theorem served_iff (p : RequestProcessor) (messages : List Bytes) :
    p.Served messages ↔ messages ≠ [] ∧ ¬ p.Breaking messages := by
  constructor
  · intro hserved
    refine ⟨?_, ?_⟩
    · rintro rfl
      obtain ⟨t, hok, hne | ⟨frame, rest, request, -, heq, -⟩⟩ := hserved
      · cases hok
        exact hne rfl
      · cases heq
    · rintro ⟨frame, rest, request, rfl, h, hun | hcrash⟩
      · exact not_served_of_unanswered h hun hserved
      · exact not_served_of_crashes h hcrash hserved
  · rintro ⟨hne, hbreaking⟩
    obtain ⟨initial, rest, rfl⟩ := List.exists_cons_of_ne_nil hne
    by_cases h : ∃ frame request, initial = 1 :: frame ∧
        Envelope.ofZmqMessage (1 :: frame) 1 = .ok request
    · obtain ⟨frame, request, rfl, h⟩ := h
      refine served_request h (fun hun => hbreaking ?_) (fun hcrash => hbreaking ?_)
      · exact ⟨frame, rest, request, rfl, h, Or.inl hun⟩
      · exact ⟨frame, rest, request, rfl, h, Or.inr hcrash⟩
    · refine served_of_no_request fun frame request heq hok => h ?_
      exact ⟨frame, request, heq, hok⟩

/-- A keepalive without an id. -/
theorem not_served_keepalive :
    ¬ (deferring [1]).Served
      [(Envelope.ofMessage 0 (.subscribeKeepaliveV1 [])).toProtocolZmqMessage] :=
  not_served_of_error (f := .undefinedBehavior) (by decide +kernel)

end RequestProcessor

end Zippylog
