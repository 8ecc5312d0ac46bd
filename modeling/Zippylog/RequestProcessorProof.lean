import Zippylog.RequestProcessor

/-!
# Answering requests

Every routine that is authoritative has to leave a response in the output. Most of them do so on
all of their paths; some do not, and the paths on which they do not are the same for every caller.

- `Answers`: what `ProcessRequest` and `ProcessMessages` assert, as a property of what a routine
  returned. There is one lemma for each routine, and callers only use these.
- `Unanswered`: the requests for which a routine breaks it, in terms of the request and of what its
  handler returns.
- `answers_validateAndDispatch_iff`: there are no others.
- `output_of_deferred`: a deferred request has output only on purpose.
-/

namespace Zippylog

open Wire

namespace RequestProcessor

/-- An authoritative result comes with output, and no assertion failed. -/
structure Answers (r : Processed) : Prop where
  output_ne_nil : r.1 = .ok .authoritative → r.2.output ≠ []
  no_assertion : r.1 ≠ .error .assertion

@[simp] theorem output_push (t : Trace) (e : Envelope) : (t.push e).output = t.output ++ [e] := rfl

@[simp] theorem output_call (t : Trace) (c : HandlerCall) : (t.call c).output = t.output := rfl

theorem output_push_ne_nil (t : Trace) (e : Envelope) : (t.push e).output ≠ [] :=
  List.append_ne_nil_of_right_ne_nil _ (List.cons_ne_nil _ _)

theorem output_populateErrorResponse_ne_nil (p : RequestProcessor) (code : ErrorCode)
    (message : Bytes) (t : Trace) : (p.populateErrorResponse code message t).output ≠ [] :=
  output_push_ne_nil t _

/-! ## Results that answer -/

theorem answers_of_output {t : Trace} (h : t.output ≠ []) : Answers (.ok .authoritative, t) where
  output_ne_nil _ := h
  no_assertion := nofun

theorem answers_push (t : Trace) (e : Envelope) : Answers (.ok .authoritative, t.push e) :=
  answers_of_output (output_push_ne_nil t e)

theorem answers_populateErrorResponse (p : RequestProcessor) (code : ErrorCode)
    (message : Bytes) (t : Trace) :
    Answers (.ok .authoritative, p.populateErrorResponse code message t) :=
  answers_push t _

theorem answers_error {f : Fault} (h : f ≠ .assertion) (t : Trace) :
    Answers (.error f, t) where
  output_ne_nil := nofun
  no_assertion he := h (Except.error.inj he)

theorem answers_exception (e : Exn) (t : Trace) : Answers (.error (.exception e), t) :=
  answers_error (by simp) t

/-- A message of another type than the switch expects. -/
theorem answers_undefinedBehavior (t : Trace) : Answers (.error .undefinedBehavior, t) :=
  answers_error (by simp) t

theorem answers_deferred (t : Trace) : Answers (.ok .deferred, t) where
  output_ne_nil := nofun
  no_assertion := nofun

/-- `CheckPath` says why it fails. -/
theorem checkPath_eq_or (p : RequestProcessor) (path : Bytes) (t : Trace) (rb rs rn : Bool) :
    p.checkPath path t rb rs rn = (true, t) ∨
      ∃ code message,
        p.checkPath path t rb rs rn = (false, p.populateErrorResponse code message t) := by
  have hcheck : ∀ {fails : Bool} {code : ErrorCode} {message : Bytes} {r : Bool × Trace},
      (r = (true, t) ∨ ∃ code message, r = (false, p.populateErrorResponse code message t)) →
      (if fails then (false, p.populateErrorResponse code message t) else r) = (true, t) ∨
        ∃ code' message', (if fails then (false, p.populateErrorResponse code message t) else r) =
          (false, p.populateErrorResponse code' message' t) := by
    intro fails code message r h
    cases fails with
    | true => exact Or.inr ⟨code, message, if_pos rfl⟩
    | false => simpa using h
  unfold checkPath
  split
  · exact Or.inr ⟨_, _, rfl⟩
  · -- six checks, and success behind them
    exact hcheck (hcheck (hcheck (hcheck (hcheck (hcheck (Or.inl rfl))))))

theorem answers_checkPathThen (p : RequestProcessor) (path : Bytes) (t : Trace) (rb rs rn : Bool)
    {k : Trace → Processed} (h : Answers (k t)) : Answers (p.checkPathThen path t rb rs rn k) := by
  unfold checkPathThen
  rcases p.checkPath_eq_or path t rb rs rn with hc | ⟨code, message, hc⟩
  · rw [hc]
    exact h
  · rw [hc]
    exact answers_populateErrorResponse ..

/-! ## The routines -/

theorem answers_processStoreInfo (p : RequestProcessor) (e : Envelope) (t : Trace) :
    Answers (p.processStoreInfo e t) := by
  unfold processStoreInfo
  split
  · exact answers_populateErrorResponse ..
  · exact answers_push ..

theorem answers_processBucketInfo (p : RequestProcessor) (e : Envelope) (t : Trace) :
    Answers (p.processBucketInfo e t) := by
  unfold processBucketInfo
  split
  · exact answers_populateErrorResponse ..
  · exact answers_checkPathThen _ _ _ _ _ _ (answers_push ..)
  · exact answers_undefinedBehavior _

theorem answers_processStreamSetInfo (p : RequestProcessor) (e : Envelope) (t : Trace) :
    Answers (p.processStreamSetInfo e t) := by
  unfold processStreamSetInfo
  split
  · exact answers_populateErrorResponse ..
  · exact answers_checkPathThen _ _ _ _ _ _ (answers_push ..)
  · exact answers_undefinedBehavior _

theorem answers_processStreamInfo (p : RequestProcessor) (e : Envelope) (t : Trace) :
    Answers (p.processStreamInfo e t) := by
  unfold processStreamInfo
  split
  · exact answers_populateErrorResponse ..
  · exact answers_checkPathThen _ _ _ _ _ _ (answers_push ..)
  · exact answers_undefinedBehavior _

/-- A segment begins with its header, so there is an output. -/
theorem output_sendSegment_ne_nil (p : RequestProcessor) (request : Envelope)
    (get : GetStreamSegmentV1) (stream : InputStream) (t : Trace) :
    (p.sendSegment request get stream t).output ≠ [] := by
  unfold sendSegment
  simp only
  split_ifs
  · exact output_populateErrorResponse_ne_nil _ _ _ _
  · split
    · exact output_populateErrorResponse_ne_nil _ _ _ _
    · exact List.append_ne_nil_of_right_ne_nil _ (List.cons_ne_nil _ _)

/-- A segment is sent, or an error. -/
theorem answers_processGetStream (p : RequestProcessor) (e : Envelope) (t : Trace) :
    Answers (p.processGetStream e t) := by
  unfold processGetStream
  split
  · exact answers_populateErrorResponse ..
  · refine answers_checkPathThen _ _ _ _ _ _ ?_
    split
    · exact answers_populateErrorResponse ..
    · exact answers_exception _ _
    · split_ifs
      · exact answers_of_output (output_sendSegment_ne_nil _ _ _ _ _)
      · split
        · exact answers_exception _ _
        · exact answers_of_output (output_sendSegment_ne_nil _ _ _ _ _)
  · exact answers_undefinedBehavior _

/-- A write request is authoritative only with output. -/
theorem answers_writeStatus (t : Trace) : Answers (.ok (writeStatus t), t) := by
  by_cases hnil : t.output = []
  · have hstatus : writeStatus t = .deferred := if_pos (List.isEmpty_iff.mpr hnil)
    rw [hstatus]
    exact answers_deferred t
  · have hstatus : writeStatus t = .authoritative := if_neg (mt List.isEmpty_iff.mp hnil)
    rw [hstatus]
    exact answers_of_output hnil

/-- The only faults here are exceptions, which `ProcessMessages` catches. -/
theorem acknowledgeWrite_error {p : RequestProcessor} {result : HandlerResult} {sendAck : Bool}
    {t t' : Trace} {f : Fault} (h : p.acknowledgeWrite result sendAck t = (.error f, t')) :
    ∃ e, f = .exception e := by
  unfold acknowledgeWrite at h
  split_ifs at h
  · split at h
    · cases h
      exact ⟨_, rfl⟩
    · cases h
    · cases h
      exact ⟨_, rfl⟩
  · cases h

/-- What goes wrong in a write is an exception. -/
theorem writeEnvelopes_error {p : RequestProcessor} {m : WriteEnvelopeV1} {t t' : Trace} {f : Fault}
    (h : p.writeEnvelopes m t = (.error f, t')) : ∃ e, f = .exception e := by
  unfold writeEnvelopes at h
  simp only at h
  split at h
  · cases h
    exact ⟨_, rfl⟩
  · exact acknowledgeWrite_error h
  · split at h
    · cases h
      exact ⟨_, rfl⟩
    · exact acknowledgeWrite_error h

/-- A write that says it is authoritative has acknowledged or refused. -/
theorem answers_processWriteEnvelope (p : RequestProcessor) (e : Envelope) (t : Trace) :
    Answers (p.processWriteEnvelope e t) := by
  unfold processWriteEnvelope
  split
  · exact answers_writeStatus _
  · split
    · exact answers_writeStatus _
    · split_ifs
      · exact answers_writeStatus _
      · split
        · rename_i hwrite
          obtain ⟨e, rfl⟩ := writeEnvelopes_error hwrite
          exact answers_exception e _
        · exact answers_writeStatus _
  · exact answers_undefinedBehavior _

theorem answers_processRegisterPlugin (p : RequestProcessor) (e : Envelope) (t : Trace) :
    Answers (p.processRegisterPlugin e t) := by
  unfold processRegisterPlugin
  split
  · exact answers_deferred _
  · exact answers_exception _ _

/-! ## Subscriptions -/

/-- The record that the subscription handler receives. -/
def subscriptionRecord (p : RequestProcessor) (subscription : SubscriptionInfo)
    (paths : List Bytes) : SubscriptionInfo :=
  { subscription with
    paths := subscribedPaths paths
    socketIdentifiers := p.currentRequestIdentities.drop 1 }

/-- The handler for the subscription defers. -/
def Defers (p : RequestProcessor) (subscription : SubscriptionInfo) (paths : List Bytes) : Prop :=
  p.impl.handleSubscriptionRequest (p.subscriptionRecord subscription paths) = .ok .makeDeferred

theorem callHandleSubscriptionRequest_of_defers {p : RequestProcessor}
    {subscription : SubscriptionInfo} {paths : List Bytes} (h : p.Defers subscription paths)
    (t : Trace) :
    p.callHandleSubscriptionRequest { subscription with paths := subscribedPaths paths } t =
      (.ok (), t.call (.handleSubscriptionRequest (p.subscriptionRecord subscription paths))) := by
  unfold Defers subscriptionRecord at h
  unfold callHandleSubscriptionRequest subscriptionRecord
  simp only [h]

/-- Unless the handler defers, there is output or an exception. -/
theorem output_callHandleSubscriptionRequest {p : RequestProcessor}
    {subscription : SubscriptionInfo} {paths : List Bytes} (h : ¬ p.Defers subscription paths)
    {t t' : Trace}
    (hr : p.callHandleSubscriptionRequest { subscription with paths := subscribedPaths paths } t =
      (.ok (), t')) : t'.output ≠ [] := by
  unfold Defers subscriptionRecord at h
  unfold callHandleSubscriptionRequest at hr
  simp only at hr
  split at hr
  · cases hr
  · rename_i hdeferred
    exact absurd hdeferred h
  · cases hr
    exact output_populateErrorResponse_ne_nil _ _ _ _
  · split_ifs at hr
    · cases hr
      exact output_populateErrorResponse_ne_nil _ _ _ _
    · cases hr
      exact output_push_ne_nil _ _
  · cases hr
    exact output_populateErrorResponse_ne_nil _ _ _ _
  · cases hr
  · cases hr

/-- What goes wrong in a subscription is an exception. -/
theorem callHandleSubscriptionRequest_error {p : RequestProcessor}
    {subscription : SubscriptionInfo} {t t' : Trace} {f : Fault}
    (h : p.callHandleSubscriptionRequest subscription t = (.error f, t')) :
    ∃ e, f = .exception e := by
  unfold callHandleSubscriptionRequest at h
  simp only at h
  split at h
  · cases h
    exact ⟨_, rfl⟩
  · cases h
  · cases h
  · split_ifs at h <;> cases h
  · cases h
  · cases h
    exact ⟨_, rfl⟩
  · cases h
    exact ⟨_, rfl⟩

/-- A subscription routine leaves the output empty exactly when the paths are
valid and the handler defers. -/
theorem answers_subscribe_iff (p : RequestProcessor) (subscription : SubscriptionInfo)
    (paths : List Bytes) {t : Trace} (ht : t.output = []) :
    Answers (p.subscribe subscription paths t) ↔
      ¬ (paths.all Store.validatePath = true ∧ p.Defers subscription paths) := by
  unfold subscribe
  by_cases hpaths : paths.all Store.validatePath = true
  · rw [if_pos hpaths]
    by_cases hdefers : p.Defers subscription paths
    · rw [callHandleSubscriptionRequest_of_defers hdefers]
      refine iff_of_false (fun h => h.output_ne_nil rfl ht) (fun h => h ⟨hpaths, hdefers⟩)
    · refine iff_of_true ?_ (fun h => hdefers h.2)
      split
      · rename_i hr
        obtain ⟨e, rfl⟩ := callHandleSubscriptionRequest_error hr
        exact answers_exception e _
      · rename_i hr
        exact answers_of_output (output_callHandleSubscriptionRequest hdefers hr)
  · rw [if_neg hpaths]
    exact iff_of_true (answers_populateErrorResponse ..) (fun h => hpaths h.1)

/-- The record of an envelope subscription, without its paths. -/
def envelopeSubscription (m : SubscribeEnvelopesV1) : SubscriptionInfo where
  type := .envelope
  envelopeFilterEnumerations := m.filterEnumerationNamespace.zip m.filterEnumerationType
  envelopeFilterNamespaces := m.filterNamespace

/-- The routine says that it is authoritative also where the handler defers, and then there is no
output. -/
theorem answers_processSubscribeStoreChanges_iff (p : RequestProcessor) (request : Envelope)
    {t : Trace} (ht : t.output = []) :
    Answers (p.processSubscribeStoreChanges request t) ↔
      ¬ ∃ paths, request.getMessage 0 = some (.subscribeStoreChangesV1 paths) ∧
        paths.all Store.validatePath = true ∧ p.Defers { type := .storeChange } paths := by
  unfold processSubscribeStoreChanges
  split
  · rename_i hm
    refine iff_of_true (answers_populateErrorResponse ..) ?_
    rintro ⟨paths, hm', -⟩
    rw [hm] at hm'
    cases hm'
  · rename_i paths hm
    rw [answers_subscribe_iff p _ _ ht, not_iff_not]
    constructor
    · intro h
      exact ⟨paths, hm, h⟩
    · rintro ⟨paths', hm', h⟩
      rw [hm] at hm'
      cases hm'
      exact h
  · rename_i m hne hm
    refine iff_of_true (answers_undefinedBehavior _) ?_
    rintro ⟨paths, hm', -⟩
    rw [hm] at hm'
    cases hm'
    exact hne paths rfl

/-- What makes an envelope subscription go unanswered. -/
def SilentSubscription (p : RequestProcessor) (m : SubscribeEnvelopesV1) : Prop :=
  m.filterEnumerationNamespace.length = m.filterEnumerationType.length ∧
    ((∃ code state, m.luaCode = some code ∧ p.loadLuaCode code = .ok (.loaded state)) ∨
      (m.luaCode = none ∧ m.path.all Store.validatePath = true ∧
        p.Defers (envelopeSubscription m) m.path))

theorem loadLuaCode_ne_assertion {p : RequestProcessor} {code : Bytes} {f : Fault}
    (h : p.loadLuaCode code = .error f) : f ≠ .assertion := by
  rcases LuaState.loadLuaCode_error h with rfl | rfl <;> exact Fault.noConfusion

/-- The same of subscriptions to envelopes, where code that loads keeps the handler from being
called at all. -/
theorem answers_processSubscribeEnvelopes_iff (p : RequestProcessor) (request : Envelope)
    {t : Trace} (ht : t.output = []) :
    Answers (p.processSubscribeEnvelopes request t) ↔
      ¬ ∃ m, request.getMessage 0 = some (.subscribeEnvelopesV1 m) ∧ p.SilentSubscription m := by
  have hiff : ∀ {m : SubscribeEnvelopesV1}, request.getMessage 0 = some (.subscribeEnvelopesV1 m) →
      ((∃ m, request.getMessage 0 = some (.subscribeEnvelopesV1 m) ∧ p.SilentSubscription m) ↔
        p.SilentSubscription m) := by
    intro m hm
    constructor
    · rintro ⟨m', hm', h⟩
      rw [hm] at hm'
      cases hm'
      exact h
    · intro h
      exact ⟨m, hm, h⟩
  unfold processSubscribeEnvelopes
  split
  · rename_i hm
    refine iff_of_true (answers_populateErrorResponse ..) ?_
    rintro ⟨m, hm', -⟩
    rw [hm] at hm'
    cases hm'
  · rename_i m hm
    rw [hiff hm]
    by_cases hlength : m.filterEnumerationNamespace.length ≠ m.filterEnumerationType.length
    · rw [if_pos hlength]
      exact iff_of_true (answers_populateErrorResponse ..) fun h => hlength h.1
    · rw [if_neg hlength]
      have hlength := not_not.mp hlength
      cases hcode : m.luaCode with
      | some code =>
        -- only code that loads gets to the end without output
        have hsilent : ∀ {r}, p.loadLuaCode code = r → (∀ state, r ≠ .ok (.loaded state)) →
            ¬ p.SilentSubscription m := by
          rintro r hload hr ⟨-, ⟨code', state, hcode', hload'⟩ | ⟨hnone, -⟩⟩
          · rw [hcode] at hcode'
            cases hcode'
            exact hr state (hload.symm.trans hload')
          · rw [hcode] at hnone
            cases hnone
        cases hload : p.loadLuaCode code with
        | error f =>
          simp only [hload]
          exact iff_of_true (answers_error (loadLuaCode_ne_assertion hload) _)
            (hsilent hload fun _ heq => by cases heq)
        | ok loaded =>
          cases loaded with
          | failed error =>
            simp only [hload]
            refine iff_of_true (answers_populateErrorResponse ..) (hsilent hload ?_)
            intro state heq
            cases heq
          | loaded state =>
            simp only [hload]
            refine iff_of_false (fun h => h.output_ne_nil rfl ht) fun h => h ?_
            exact ⟨hlength, Or.inl ⟨code, state, hcode, hload⟩⟩
      | none =>
        show Answers (p.subscribe (envelopeSubscription m) m.path t) ↔ _
        rw [answers_subscribe_iff p _ _ ht, not_iff_not]
        constructor
        · rintro ⟨hpaths, hdefers⟩
          exact ⟨hlength, Or.inr ⟨hcode, hpaths, hdefers⟩⟩
        · rintro ⟨-, ⟨code, state, hcode', -⟩ | ⟨-, h⟩⟩
          · rw [hcode] at hcode'
            cases hcode'
          · exact h
  · rename_i m hne hm
    refine iff_of_true (answers_undefinedBehavior _) ?_
    rintro ⟨m', hm', -⟩
    rw [hm] at hm'
    cases hm'
    exact hne m' rfl

/-- The keepalive handler, given some output, does not defer and leaves none. -/
def SilentKeepalive (p : RequestProcessor) (request : Envelope) (output : List Envelope) : Prop :=
  ∃ result : HandlerResult, result.deferred = false ∧
    p.impl.handleSubscribeKeepalive request output = (.ok result, [])

/-- A keepalive goes unanswered where its handler does not defer and leaves the output empty. -/
theorem answers_handleKeepalive_iff (p : RequestProcessor) (request : Envelope) (t : Trace) :
    Answers (p.handleKeepalive request t) ↔ ¬ p.SilentKeepalive request t.output := by
  rw [handleKeepalive]
  simp only [Trace.call]
  cases hh : p.impl.handleSubscribeKeepalive request t.output with
  | mk r output =>
    cases r with
    | error e =>
      refine iff_of_true (answers_exception _ _) ?_
      rintro ⟨result, -, h⟩
      rw [hh] at h
      cases h
    | ok result =>
      cases hdeferred : result.deferred with
      | true =>
        simp only [hdeferred, if_true]
        refine iff_of_true (answers_deferred _) ?_
        rintro ⟨result', hresult', h⟩
        rw [hh] at h
        cases h
        rw [hdeferred] at hresult'
        cases hresult'
      | false =>
        simp only [hdeferred]
        constructor
        · rintro ⟨hne, -⟩ ⟨result', -, h⟩
          rw [hh] at h
          cases h
          exact hne rfl rfl
        · intro h
          refine answers_of_output fun hnil => h ⟨result, hdeferred, ?_⟩
          rw [hh, show output = [] from hnil]

/-- The requests whose routine is authoritative and leaves the output empty. -/
inductive Unanswered (p : RequestProcessor) (request : Envelope) : Prop where
  /-- An envelope subscription with Lua code that loads, where `goto LOG_END` is
  reached too, or one whose handler defers. -/
  | subscribeEnvelopes (m : SubscribeEnvelopesV1)
      (hm : request.getMessage 0 = some (.subscribeEnvelopesV1 m)) (h : p.SilentSubscription m)
  /-- A store change subscription whose handler defers. -/
  | subscribeStoreChanges (paths : List Bytes)
      (hm : request.getMessage 0 = some (.subscribeStoreChangesV1 paths))
      (hpaths : paths.all Store.validatePath = true)
      (hdefers : p.Defers { type := .storeChange } paths)
  /-- A keepalive whose handler leaves no output. -/
  | keepalive (id : Bytes) (ids : List Bytes)
      (hm : request.getMessage 0 = some (.subscribeKeepaliveV1 (id :: ids)))
      (h : p.SilentKeepalive request [])
  /-- A keepalive that does not parse, whose handler takes the error out again. -/
  | keepaliveUnparsed (hm : request.getMessage 0 = none) (hcount : request.message ≠ [])
      (hns : request.messageNamespace.head? = some messageNamespace)
      (htype : request.messageType.head? = some MessageType.subscribeKeepaliveV1.enumeration)
      (h : p.SilentKeepalive request (p.messageFailure {}).output)

/-! ## Dispatch -/

/-- A request with a message and enumerations in the zippylog namespace is
dispatched by its type. -/
theorem validateAndDispatch_eq (p : RequestProcessor) {request : Envelope} (t : Trace)
    {requestType : UInt32} (hcount : request.message ≠ [])
    (hns : request.messageNamespace.head? = some messageNamespace)
    (htype : request.messageType.head? = some requestType) :
    p.validateAndDispatch request t = p.dispatch requestType request t := by
  obtain ⟨nss, hnss⟩ := List.head?_eq_some_iff.mp hns
  obtain ⟨types, htypes⟩ := List.head?_eq_some_iff.mp htype
  have hpos : ¬ request.messageCount < 1 := by
    have := List.length_pos_iff.mpr hcount
    unfold Envelope.messageCount
    omega
  unfold validateAndDispatch
  rw [if_neg hpos, hnss, htypes]
  show (if messageNamespace ≠ messageNamespace then _ else _) = _
  rw [if_neg (not_not.mpr rfl)]

/-- A request whose message decodes is dispatched by the type of the message. -/
theorem validateAndDispatch_of_getMessage (p : RequestProcessor) {request : Envelope} {m : Message}
    (h : request.getMessage 0 = some m) (t : Trace) :
    p.validateAndDispatch request t = p.dispatchType m.type request t := by
  obtain ⟨b, bs, nss, types, hb, hns, htype, -⟩ := Envelope.getMessage_zero_eq_some h
  have hcount : request.message ≠ [] := by
    rw [hb]
    exact List.cons_ne_nil _ _
  have hns' : request.messageNamespace.head? = some messageNamespace := by
    rw [hns]
    rfl
  have htype' : request.messageType.head? = some m.type.enumeration := by
    rw [htype]
    rfl
  rw [p.validateAndDispatch_eq t hcount hns' htype', dispatch,
    MessageType.ofEnumeration?_enumeration]

/-- What a request that is refused before the switch comes to: an error. -/
theorem validateAndDispatch_cases (p : RequestProcessor) (request : Envelope) (t : Trace) :
    (∃ code message, p.validateAndDispatch request t =
      (.ok .authoritative, p.populateErrorResponse code message t)) ∨
    ∃ requestType, request.message ≠ [] ∧
      request.messageNamespace.head? = some messageNamespace ∧
      request.messageType.head? = some requestType := by
  by_cases hcount : request.messageCount < 1
  · left
    unfold validateAndDispatch
    rw [if_pos hcount]
    exact ⟨_, _, rfl⟩
  have hmessage : request.message ≠ [] := by
    rintro hnil
    unfold Envelope.messageCount at hcount
    rw [hnil] at hcount
    exact hcount Nat.one_pos
  cases hns : request.messageNamespace with
  | nil =>
    left
    unfold validateAndDispatch
    rw [if_neg hcount, hns]
    exact ⟨_, _, rfl⟩
  | cons ns nss =>
    cases htype : request.messageType with
    | nil =>
      left
      unfold validateAndDispatch
      rw [if_neg hcount, hns, htype]
      exact ⟨_, _, rfl⟩
    | cons requestType types =>
      by_cases hzippylog : ns = messageNamespace
      · right
        refine ⟨requestType, hmessage, ?_, rfl⟩
        rw [hzippylog]
        rfl
      · left
        unfold validateAndDispatch
        rw [if_neg hcount, hns, htype]
        simp only [if_pos hzippylog]
        exact ⟨_, _, rfl⟩

/-- The routines of all other types always answer. -/
theorem answers_dispatchType (p : RequestProcessor) {type : MessageType} (request : Envelope)
    (t : Trace) (hstore : type ≠ .subscribeStoreChangesV1) (henvelopes : type ≠ .subscribeEnvelopesV1)
    (hkeepalive : type ≠ .subscribeKeepaliveV1) : Answers (p.dispatchType type request t) := by
  cases type with
  | pingV1 => exact answers_push ..
  | getFeaturesV1 => exact answers_push ..
  | getStoreInfoV1 => exact p.answers_processStoreInfo request t
  | getBucketInfoV1 => exact p.answers_processBucketInfo request t
  | getStreamSetInfoV1 => exact p.answers_processStreamSetInfo request t
  | getStreamInfoV1 => exact p.answers_processStreamInfo request t
  | getStreamSegmentV1 => exact p.answers_processGetStream request t
  | subscribeStoreChangesV1 => exact absurd rfl hstore
  | subscribeEnvelopesV1 => exact absurd rfl henvelopes
  | subscribeKeepaliveV1 => exact absurd rfl hkeepalive
  | subscribeCancelV1 => exact answers_exception _ _
  | writeEnvelopeV1 => exact p.answers_processWriteEnvelope request t
  | registerPluginV1 => exact p.answers_processRegisterPlugin request t
  | unregisterPluginV1 => exact answers_exception _ _
  | getPluginStatusV1 => exact answers_exception _ _
  | _ => exact answers_populateErrorResponse ..

/-- **Authoritative means answered**, but for the requests of `Unanswered`. -/
theorem answers_validateAndDispatch_iff (p : RequestProcessor) (request : Envelope) :
    Answers (p.validateAndDispatch request {}) ↔ ¬ p.Unanswered request := by
  constructor
  · rintro hanswers (⟨m, hm, h⟩ | ⟨paths, hm, hpaths, hdefers⟩ | ⟨id, ids, hm, h⟩ |
      ⟨hm, hcount, hns, htype, h⟩)
    · rw [p.validateAndDispatch_of_getMessage hm] at hanswers
      exact (p.answers_processSubscribeEnvelopes_iff request rfl).mp hanswers ⟨m, hm, h⟩
    · rw [p.validateAndDispatch_of_getMessage hm] at hanswers
      exact (p.answers_processSubscribeStoreChanges_iff request rfl).mp hanswers
        ⟨paths, hm, hpaths, hdefers⟩
    · rw [p.validateAndDispatch_of_getMessage hm] at hanswers
      replace hanswers : Answers (p.processSubscribeKeepalive request {}) := hanswers
      rw [processSubscribeKeepalive, hm] at hanswers
      exact (p.answers_handleKeepalive_iff request _).mp hanswers h
    · rw [p.validateAndDispatch_eq _ hcount hns htype, dispatch,
        MessageType.ofEnumeration?_enumeration] at hanswers
      replace hanswers : Answers (p.processSubscribeKeepalive request {}) := hanswers
      rw [processSubscribeKeepalive, hm] at hanswers
      exact (p.answers_handleKeepalive_iff request _).mp hanswers h
  · intro hun
    -- a request that does not come to a routine is answered with an error
    rcases p.validateAndDispatch_cases request {} with ⟨code, message, h⟩ |
      ⟨requestType, hcount, hns, htype⟩
    · rw [h]
      exact answers_populateErrorResponse ..
    rw [p.validateAndDispatch_eq _ hcount hns htype]
    unfold dispatch
    cases ht : MessageType.ofEnumeration? requestType with
    | none => exact answers_populateErrorResponse ..
    | some type =>
      by_cases hstore : type = .subscribeStoreChangesV1
      · subst hstore
        refine (p.answers_processSubscribeStoreChanges_iff request rfl).mpr ?_
        rintro ⟨paths, hm, hpaths, hdefers⟩
        exact hun (.subscribeStoreChanges paths hm hpaths hdefers)
      by_cases henvelopes : type = .subscribeEnvelopesV1
      · subst henvelopes
        refine (p.answers_processSubscribeEnvelopes_iff request rfl).mpr ?_
        rintro ⟨m, hm, h⟩
        exact hun (.subscribeEnvelopes m hm h)
      by_cases hkeepalive : type = .subscribeKeepaliveV1
      · subst hkeepalive
        have hrequest := MessageType.enumeration_of_ofEnumeration? ht
        show Answers (p.processSubscribeKeepalive request {})
        unfold processSubscribeKeepalive
        split
        · rename_i hm
          refine (p.answers_handleKeepalive_iff request _).mpr fun h => hun ?_
          exact .keepaliveUnparsed hm hcount hns (by rw [htype, hrequest]) h
        · rename_i id ids hm
          exact (p.answers_handleKeepalive_iff request _).mpr fun h => hun (.keepalive id ids hm h)
        · exact answers_undefinedBehavior _
      -- all other routines answer every request
      exact p.answers_dispatchType request _ hstore henvelopes hkeepalive

/-! ## Deferred requests -/

/-- A routine that never defers. -/
def Decides (r : Processed) : Prop := r.1 ≠ .ok .deferred

theorem decides_authoritative (t : Trace) : Decides (.ok .authoritative, t) := by
  intro h
  cases h

theorem decides_error (f : Fault) (t : Trace) : Decides (.error f, t) := by
  intro h
  cases h

theorem decides_checkPathThen (p : RequestProcessor) (path : Bytes) (t : Trace) (rb rs rn : Bool)
    {k : Trace → Processed} (h : ∀ t, Decides (k t)) :
    Decides (p.checkPathThen path t rb rs rn k) := by
  unfold checkPathThen
  split
  · exact decides_authoritative _
  · exact h _

/-- The routine never defers. -/
theorem decides_processGetStream (p : RequestProcessor) (e : Envelope) (t : Trace) :
    Decides (p.processGetStream e t) := by
  unfold processGetStream
  split
  · exact decides_authoritative _
  · refine decides_checkPathThen _ _ _ _ _ _ fun t => ?_
    split
    · exact decides_authoritative _
    · exact decides_error _ _
    · split_ifs
      · exact decides_authoritative _
      · split
        · exact decides_error _ _
        · exact decides_authoritative _
  · exact decides_error _ _

theorem decides_subscribe (p : RequestProcessor) (subscription : SubscriptionInfo)
    (paths : List Bytes) (t : Trace) : Decides (p.subscribe subscription paths t) := by
  unfold subscribe
  split_ifs
  · split
    · exact decides_error _ _
    · exact decides_authoritative _
  · exact decides_authoritative _

/-- Nor does this one, whatever becomes of the Lua code. -/
theorem decides_processSubscribeEnvelopes (p : RequestProcessor) (e : Envelope) (t : Trace) :
    Decides (p.processSubscribeEnvelopes e t) := by
  unfold processSubscribeEnvelopes
  split
  · exact decides_authoritative _
  · split_ifs
    · exact decides_authoritative _
    · split
      · split
        · exact decides_error _ _
        · exact decides_authoritative _
        · exact decides_authoritative _
      · exact decides_subscribe _ _ _ _
  · exact decides_error _ _

/-- Only three types of requests are ever deferred. -/
theorem decides_dispatchType (p : RequestProcessor) {type : MessageType} (request : Envelope)
    (t : Trace) (hkeepalive : type ≠ .subscribeKeepaliveV1) (hwrite : type ≠ .writeEnvelopeV1)
    (hplugin : type ≠ .registerPluginV1) : Decides (p.dispatchType type request t) := by
  cases type with
  | getStoreInfoV1 =>
    show Decides (p.processStoreInfo request t)
    unfold processStoreInfo
    split <;> exact decides_authoritative _
  | getBucketInfoV1 =>
    show Decides (p.processBucketInfo request t)
    unfold processBucketInfo
    split
    · exact decides_authoritative _
    · exact decides_checkPathThen _ _ _ _ _ _ fun t => decides_authoritative _
    · exact decides_error _ _
  | getStreamSetInfoV1 =>
    show Decides (p.processStreamSetInfo request t)
    unfold processStreamSetInfo
    split
    · exact decides_authoritative _
    · exact decides_checkPathThen _ _ _ _ _ _ fun t => decides_authoritative _
    · exact decides_error _ _
  | getStreamInfoV1 =>
    show Decides (p.processStreamInfo request t)
    unfold processStreamInfo
    split
    · exact decides_authoritative _
    · exact decides_checkPathThen _ _ _ _ _ _ fun t => decides_authoritative _
    · exact decides_error _ _
  | getStreamSegmentV1 => exact p.decides_processGetStream request t
  | subscribeStoreChangesV1 =>
    show Decides (p.processSubscribeStoreChanges request t)
    unfold processSubscribeStoreChanges
    split
    · exact decides_authoritative _
    · exact decides_subscribe _ _ _ _
    · exact decides_error _ _
  | subscribeEnvelopesV1 => exact p.decides_processSubscribeEnvelopes request t
  | subscribeKeepaliveV1 => exact absurd rfl hkeepalive
  -- these are not implemented, and throw
  | subscribeCancelV1 => exact decides_error _ _
  | writeEnvelopeV1 => exact absurd rfl hwrite
  | registerPluginV1 => exact absurd rfl hplugin
  | unregisterPluginV1 => exact decides_error _ _
  | getPluginStatusV1 => exact decides_error _ _
  | _ => exact decides_authoritative _

/-- The ways the output of a deferred request comes to be filled on purpose. -/
inductive Filled (p : RequestProcessor) (request : Envelope) (t : Trace) : Prop where
  /-- The keepalive handler returned it. -/
  | keepalive (before : List Envelope)
      (h : p.impl.handleSubscribeKeepalive request before = (.ok .makeDeferred, t.output))
  /-- It is the error for a plugin registration that does not parse. -/
  | registerPlugin (hm : request.getMessage 0 = none) (h : t = p.messageFailure {})

/-- A keepalive that is deferred has the output that its handler filled. -/
theorem filled_of_handleKeepalive {p : RequestProcessor} {request : Envelope} {t t' : Trace}
    (h : p.handleKeepalive request t = (.ok .deferred, t')) : p.Filled request t' := by
  unfold handleKeepalive at h
  simp only at h
  split at h
  · cases h
  · rename_i result output hh
    cases result with
    | makeDeferred =>
      cases h
      exact .keepalive _ hh
    | _ => cases h

theorem output_of_writeStatus {t : Trace} (h : writeStatus t = .deferred) : t.output = [] := by
  unfold writeStatus at h
  split at h
  · rename_i hempty
    exact List.isEmpty_iff.mp hempty
  · cases h

/-- A write that is deferred has put nothing in the output. -/
theorem output_of_processWriteEnvelope_deferred {p : RequestProcessor} {e : Envelope} {t t' : Trace}
    (h : p.processWriteEnvelope e t = (.ok .deferred, t')) : t'.output = [] := by
  have hstatus : ∀ {s : Trace}, ((.ok (writeStatus s), s) : Processed) = (.ok .deferred, t') →
      t'.output = [] := by
    intro s hs
    simp only [Prod.mk.injEq, Except.ok.injEq] at hs
    obtain ⟨h1, rfl⟩ := hs
    exact output_of_writeStatus h1
  unfold processWriteEnvelope at h
  split at h
  · exact hstatus h
  · split at h
    · exact hstatus h
    · split_ifs at h
      · exact hstatus h
      · split at h
        · cases h
        · exact hstatus h
  · cases h

/-- A deferred request has no output, unless that was filled on purpose. -/
theorem output_of_deferred {p : RequestProcessor} {request : Envelope} {t : Trace}
    (h : p.validateAndDispatch request {} = (.ok .deferred, t)) :
    t.output = [] ∨ p.Filled request t := by
  rcases p.validateAndDispatch_cases request {} with ⟨code, message, he⟩ |
    ⟨requestType, hcount, hns, htype⟩
  · rw [he] at h
    cases h
  rw [p.validateAndDispatch_eq _ hcount hns htype] at h
  unfold dispatch at h
  split at h
  · rename_i type _
    by_cases hkeepalive : type = .subscribeKeepaliveV1
    · subst hkeepalive
      replace h : p.processSubscribeKeepalive request {} = (.ok .deferred, t) := h
      unfold processSubscribeKeepalive at h
      split at h
      · exact Or.inr (filled_of_handleKeepalive h)
      · exact Or.inr (filled_of_handleKeepalive h)
      · cases h
    by_cases hwrite : type = .writeEnvelopeV1
    · subst hwrite
      exact Or.inl (output_of_processWriteEnvelope_deferred h)
    by_cases hplugin : type = .registerPluginV1
    · subst hplugin
      replace h : p.processRegisterPlugin request {} = (.ok .deferred, t) := h
      unfold processRegisterPlugin at h
      split at h
      · rename_i hm
        cases h
        exact Or.inr (.registerPlugin hm rfl)
      · cases h
    exact absurd (congrArg Prod.fst h) (p.decides_dispatchType request _ hkeepalive hwrite hplugin)
  · cases h

end RequestProcessor

end Zippylog
