import Zippylog.Outcomes

/-!
# Validation of requests

What a request is checked for, and what happens where a check fails. A handler trusts what it is
given: the paths are in the store, the lists of filters have one length, the embedded message
parses.

- `checksPath`: what `CheckPath` answers, for every path and store: whether it is accepted, and
  whether the error says that the path is not valid or that there is no such thing;
- `Invalid`: a request for which some check of its routine fails. Such a request is
  refused (`refused_of_invalid`), but for a keepalive that does not parse;
- `gated_iff`: when handlers are called only for requests that were validated.
-/

namespace Zippylog

open Wire

namespace RequestProcessor

/-! ## `CheckPath` -/

/-- The path parses, and the components that are required are there. -/
structure Required (path : Bytes) (requireBucket requireSet requireStream : Bool)
    (bucket set stream : Bytes) : Prop where
  parsePath_eq : Store.parsePath path = some (bucket, set, stream)
  bucket_ne_nil : requireBucket = true → bucket ≠ []
  set_ne_nil : requireSet = true → set ≠ []
  stream_ne_nil : requireStream = true → stream ≠ []

/-- The bucket, stream set and stream that are required are in the store. -/
structure Present (store : Store) (requireBucket requireSet requireStream : Bool)
    (bucket set stream : Bytes) : Prop where
  bucket_mem : requireBucket = true → bucket ∈ store.bucketNames
  set_mem : requireSet = true → set ∈ store.streamSetNames bucket
  file_ne_none : requireStream = true → store.file bucket set stream ≠ none

/-- What `CheckPath` has to answer. -/
structure ChecksPath (p : RequestProcessor) (path : Bytes) (t : Trace)
    (requireBucket requireSet requireStream : Bool) : Prop where
  accepts_iff : p.checkPath path t requireBucket requireSet requireStream = (true, t) ↔
    ∃ bucket set stream,
      Required path requireBucket requireSet requireStream bucket set stream ∧
      Present p.store requireBucket requireSet requireStream bucket set stream
  /-- one error more, where the path does not parse or lacks a component -/
  invalidPath : (¬ ∃ bucket set stream,
      Required path requireBucket requireSet requireStream bucket set stream) →
    ∃ message, p.checkPath path t requireBucket requireSet requireStream =
      (false, { t with output := t.output ++
        [p.respond (.error (some .invalidPath) (some message))] })
  /-- one error more, where something is missing in the store -/
  pathNotFound (bucket set stream : Bytes)
    (hrequired : Required path requireBucket requireSet requireStream bucket set stream)
    (hmissing : ¬ Present p.store requireBucket requireSet requireStream bucket set stream) :
    ∃ message, p.checkPath path t requireBucket requireSet requireStream =
      (false, { t with output := t.output ++
        [p.respond (.error (some .pathNotFound) (some message))] })

section

variable {p : RequestProcessor} {path bucket set stream : Bytes} {t : Trace} {rb rs rn : Bool}

/-- A path that lacks what is required, or does not parse, is not valid. -/
theorem checkPath_of_not_required
    (h : ¬ ∃ bucket set stream, Required path rb rs rn bucket set stream) :
    ∃ message, p.checkPath path t rb rs rn =
      (false, p.populateErrorResponse .invalidPath message t) := by
  unfold checkPath
  split
  · exact ⟨_, rfl⟩
  · rename_i bucket set stream hparse
    split_ifs with hb hs hn
    · exact ⟨_, rfl⟩
    · exact ⟨_, rfl⟩
    · exact ⟨_, rfl⟩
    all_goals
      refine absurd ⟨bucket, set, stream, hparse, ?_, ?_, ?_⟩ h
      · rintro rfl rfl
        exact hb rfl
      · rintro rfl rfl
        exact hs rfl
      · rintro rfl rfl
        exact hn rfl

/-- Behind the checks of the components are those of the store. -/
theorem checkPath_of_required (h : Required path rb rs rn bucket set stream) :
    p.checkPath path t rb rs rn =
      if rb && !p.store.bucketExists bucket then
        (false, p.populateErrorResponse .pathNotFound (str "bucket does not exist") t)
      else if rs && !p.store.streamSetExists bucket set then
        (false, p.populateErrorResponse .pathNotFound (str "stream set does not exist") t)
      else if rn && !p.store.streamExists bucket set stream then
        (false, p.populateErrorResponse .pathNotFound (str "stream does not exist") t)
      else (true, t) := by
  have hb : ¬ (rb && bucket.isEmpty) = true := by
    simpa using h.bucket_ne_nil
  have hs : ¬ (rs && set.isEmpty) = true := by
    simpa using h.set_ne_nil
  have hn : ¬ (rn && stream.isEmpty) = true := by
    simpa using h.stream_ne_nil
  unfold checkPath
  rw [h.parsePath_eq]
  simp only [if_neg hb, if_neg hs, if_neg hn]

/-- A path to something that is there is accepted, and the trace is left as it is. -/
theorem checkPath_of_present (h : Required path rb rs rn bucket set stream)
    (hpresent : Present p.store rb rs rn bucket set stream) :
    p.checkPath path t rb rs rn = (true, t) := by
  have hb : ¬ (rb && !p.store.bucketExists bucket) = true := by
    simpa [Store.bucketExists] using hpresent.bucket_mem
  have hs : ¬ (rs && !p.store.streamSetExists bucket set) = true := by
    simpa [Store.streamSetExists] using hpresent.set_mem
  have hn : ¬ (rn && !p.store.streamExists bucket set stream) = true := by
    simpa [Store.streamExists] using hpresent.file_ne_none
  rw [checkPath_of_required h, if_neg hb, if_neg hs, if_neg hn]

/-- A path to something that is not there is not found. -/
theorem checkPath_of_not_present (h : Required path rb rs rn bucket set stream)
    (hmissing : ¬ Present p.store rb rs rn bucket set stream) :
    ∃ message, p.checkPath path t rb rs rn =
      (false, p.populateErrorResponse .pathNotFound message t) := by
  rw [checkPath_of_required h]
  split_ifs with hb hs hn
  · exact ⟨_, rfl⟩
  · exact ⟨_, rfl⟩
  · exact ⟨_, rfl⟩
  · refine absurd ⟨?_, ?_, ?_⟩ hmissing
    · simpa [Store.bucketExists] using hb
    · simpa [Store.streamSetExists] using hs
    · simpa [Store.streamExists] using hn

end

/-- **`CheckPath`** accepts the paths to what is in the store, and says of the others whether the
path or the store is to blame, with the error code for it. The path, the store and what is required
of the path are any. -/
theorem checksPath (p : RequestProcessor) (path : Bytes) (t : Trace)
    (requireBucket requireSet requireStream : Bool) :
    p.ChecksPath path t requireBucket requireSet requireStream where
  accepts_iff := by
    constructor
    · intro haccepts
      by_contra hnot
      have hfalse : (p.checkPath path t requireBucket requireSet requireStream).1 = false := by
        by_cases hrequired : ∃ bucket set stream,
            Required path requireBucket requireSet requireStream bucket set stream
        · obtain ⟨bucket, set, stream, hrequired⟩ := hrequired
          obtain ⟨message, hcheck⟩ := checkPath_of_not_present (p := p) (t := t) hrequired
            fun hpresent => hnot ⟨bucket, set, stream, hrequired, hpresent⟩
          rw [hcheck]
        · obtain ⟨message, hcheck⟩ := checkPath_of_not_required (p := p) (t := t) hrequired
          rw [hcheck]
      rw [haccepts] at hfalse
      cases hfalse
    · rintro ⟨bucket, set, stream, hrequired, hpresent⟩
      exact checkPath_of_present hrequired hpresent
  invalidPath := checkPath_of_not_required
  pathNotFound _ _ _ := checkPath_of_not_present

/-! ## Requests that are refused -/

/-- The routine for the type begins with taking the message out of the envelope. -/
def obtainsMessage : MessageType → Bool
  | .getStoreInfoV1 | .getBucketInfoV1 | .getStreamSetInfoV1 | .getStreamInfoV1
  | .getStreamSegmentV1 | .subscribeStoreChangesV1 | .subscribeEnvelopesV1
  | .subscribeKeepaliveV1 | .writeEnvelopeV1 | .registerPluginV1 => true
  | _ => false

/-- The checks of a message, for the requests that have some. -/
def Validated (p : RequestProcessor) : Message → Prop
  | .getBucketInfoV1 path => (p.checkPath path {} true false false).1 = true
  | .getStreamSetInfoV1 path => (p.checkPath path {} true true false).1 = true
  | .getStreamInfoV1 path => (p.checkPath path {} true true true).1 = true
  | .getStreamSegmentV1 get => (p.checkPath get.path {} true true true).1 = true
  | .subscribeStoreChangesV1 paths => paths.all Store.validatePath = true
  | .subscribeEnvelopesV1 m =>
    m.filterEnumerationNamespace.length = m.filterEnumerationType.length ∧
      (∀ code ∈ m.luaCode, ∃ state, p.loadLuaCode code = .ok (.loaded state)) ∧
      m.path.all Store.validatePath = true
  | .writeEnvelopeV1 m => (p.checkWritePath m.path {}).1 = true ∧ m.envelope ≠ []
  | _ => True

/-- Some check fails. -/
inductive Invalid (p : RequestProcessor) (request : Envelope) : Prop where
  /-- there is no message, or no enumeration that has a routine -/
  | request (h : ¬ ∃ type, HasType request type)
  | message (type : MessageType) (htype : HasType request type) (h : obtainsMessage type = true)
      (hm : request.getMessage 0 = none)
  | field (m : Message) (hm : request.getMessage 0 = some m) (h : ¬ p.Validated m)

/-- No handler was called, and there is an error at most. -/
structure Refused (t : Trace) : Prop where
  calls_eq : t.calls = []
  output_or : t.output = [] ∨ ∃ e, t.output = [e] ∧ e.IsError

theorem refused_empty : Refused {} := ⟨rfl, Or.inl rfl⟩

theorem refused_populateErrorResponse (p : RequestProcessor) (code : ErrorCode)
    (message : Bytes) : Refused (p.populateErrorResponse code message {}) :=
  ⟨rfl, Or.inr ⟨_, rfl, p.isError_respond _ _⟩⟩

/-- The result of a routine one of whose checks fails. -/
def Refusal (p : RequestProcessor) (r : Processed) : Prop :=
  ∃ code message, r = (.ok .authoritative, p.populateErrorResponse code message {})

theorem Refusal.refused {p : RequestProcessor} {r : Processed} (h : p.Refusal r) :
    Refused r.2 := by
  obtain ⟨code, message, rfl⟩ := h
  exact p.refused_populateErrorResponse code message

theorem refusal_checkPathThen {p : RequestProcessor} {path : Bytes} {rb rs rn : Bool}
    (h : ¬ (p.checkPath path {} rb rs rn).1 = true) (k : Trace → Processed) :
    p.Refusal (p.checkPathThen path {} rb rs rn k) := by
  unfold checkPathThen
  rcases p.checkPath_eq_or path {} rb rs rn with hcheck | ⟨code, message, hcheck⟩
  · rw [hcheck] at h
    exact absurd rfl h
  · rw [hcheck]
    exact ⟨code, message, rfl⟩

theorem refusal_subscribe {p : RequestProcessor} {subscription : SubscriptionInfo}
    {paths : List Bytes} (h : ¬ paths.all Store.validatePath = true) :
    p.Refusal (p.subscribe subscription paths {}) :=
  ⟨_, _, if_neg h⟩

/-- Where there is Lua code that does not fail, nothing comes of the request. -/
theorem processSubscribeEnvelopes_or {p : RequestProcessor} {request : Envelope}
    {m : SubscribeEnvelopesV1} (hm : request.getMessage 0 = some (.subscribeEnvelopesV1 m))
    (h : ¬ p.Validated (.subscribeEnvelopesV1 m)) :
    p.Refusal (p.processSubscribeEnvelopes request {}) ∨
      (p.processSubscribeEnvelopes request {}).2 = {} ∧ ∃ code,
        m.filterEnumerationNamespace.length = m.filterEnumerationType.length ∧
          m.luaCode = some code ∧ ¬ ∃ error, p.loadLuaCode code = .ok (.failed error) := by
  unfold processSubscribeEnvelopes
  rw [hm]
  dsimp only
  by_cases hlength : m.filterEnumerationNamespace.length = m.filterEnumerationType.length
  swap
  · rw [if_pos hlength]
    exact Or.inl ⟨_, _, rfl⟩
  rw [if_neg (not_not.mpr hlength)]
  cases hcode : m.luaCode with
  | some code =>
    -- whatever comes of the code, the paths are not looked at
    cases hload : p.loadLuaCode code with
    | error f =>
      simp only [hload]
      exact Or.inr ⟨trivial, code, hlength, rfl, fun ⟨_, heq⟩ => nomatch hload.symm.trans heq⟩
    | ok loaded =>
      cases loaded with
      | failed error =>
        simp only [hload]
        exact Or.inl ⟨_, _, rfl⟩
      | loaded state =>
        simp only [hload]
        exact Or.inr ⟨trivial, code, hlength, rfl, fun ⟨_, heq⟩ => nomatch hload.symm.trans heq⟩
  | none =>
    refine Or.inl (refusal_subscribe fun hpaths => h ⟨hlength, ?_, hpaths⟩)
    intro code hmem
    rw [hcode] at hmem
    cases hmem

/-- A write that fails a check is answered with an error in front of its entries. -/
theorem refusal_processWriteEnvelope {p : RequestProcessor} {request : Envelope}
    {m : WriteEnvelopeV1} (hm : request.getMessage 0 = some (.writeEnvelopeV1 m))
    (h : ¬ p.Validated (.writeEnvelopeV1 m)) :
    p.Refusal (p.processWriteEnvelope request {}) := by
  unfold processWriteEnvelope
  rw [hm]
  dsimp only
  rcases p.checkWritePath_eq_or m.path {} with hcheck | ⟨code, message, hcheck⟩
  · rw [hcheck]
    dsimp only
    by_cases hnil : m.envelope.isEmpty = true
    · rw [if_pos hnil]
      exact ⟨_, _, rfl⟩
    · refine absurd ⟨?_, fun heq => hnil (List.isEmpty_iff.mpr heq)⟩ h
      rw [hcheck]
  · rw [hcheck]
    exact ⟨code, message, rfl⟩

/-- A message that does not parse, but for those of keepalives and plugin registrations,
which are not authoritative. -/
theorem refusal_of_getMessage_none {p : RequestProcessor} {request : Envelope}
    {type : MessageType} (h : obtainsMessage type = true) (hm : request.getMessage 0 = none)
    (hkeepalive : type ≠ .subscribeKeepaliveV1) (hplugin : type ≠ .registerPluginV1) :
    p.Refusal (p.dispatchType type request {}) := by
  have hfailure : p.Refusal (.ok .authoritative, p.messageFailure {}) := ⟨_, _, rfl⟩
  cases type with
  | getStoreInfoV1 =>
    show p.Refusal (p.processStoreInfo request {})
    rwa [processStoreInfo, hm]
  | getBucketInfoV1 =>
    show p.Refusal (p.processBucketInfo request {})
    rwa [processBucketInfo, hm]
  | getStreamSetInfoV1 =>
    show p.Refusal (p.processStreamSetInfo request {})
    rwa [processStreamSetInfo, hm]
  | getStreamInfoV1 =>
    show p.Refusal (p.processStreamInfo request {})
    rwa [processStreamInfo, hm]
  | getStreamSegmentV1 =>
    show p.Refusal (p.processGetStream request {})
    rw [processGetStream, hm]
    exact ⟨_, _, rfl⟩
  | subscribeStoreChangesV1 =>
    show p.Refusal (p.processSubscribeStoreChanges request {})
    rwa [processSubscribeStoreChanges, hm]
  | subscribeEnvelopesV1 =>
    show p.Refusal (p.processSubscribeEnvelopes request {})
    rwa [processSubscribeEnvelopes, hm]
  | subscribeKeepaliveV1 => exact absurd rfl hkeepalive
  | writeEnvelopeV1 =>
    show p.Refusal (p.processWriteEnvelope request {})
    rwa [processWriteEnvelope, hm]
  | registerPluginV1 => exact absurd rfl hplugin
  | _ => cases h

/-- A message that does not parse is answered with an error by every routine that looks at it. -/
theorem refused_of_getMessage_none {p : RequestProcessor} {request : Envelope}
    {type : MessageType} (h : obtainsMessage type = true) (hm : request.getMessage 0 = none)
    (hkeepalive : type ≠ .subscribeKeepaliveV1) :
    Refused (p.dispatchType type request {}).2 := by
  by_cases hplugin : type = .registerPluginV1
  · subst hplugin
    show Refused (p.processRegisterPlugin request {}).2
    rw [processRegisterPlugin, hm]
    exact p.refused_populateErrorResponse _ _
  · exact (refusal_of_getMessage_none h hm hkeepalive hplugin).refused

/-- A message of which some check fails. -/
theorem refused_of_not_validated {p : RequestProcessor} {request : Envelope} {m : Message}
    (hm : request.getMessage 0 = some m) (h : ¬ p.Validated m) :
    Refused (p.dispatchType m.type request {}).2 := by
  cases m with
  | getBucketInfoV1 path =>
    show Refused (p.processBucketInfo request {}).2
    rw [processBucketInfo, hm]
    exact (refusal_checkPathThen h _).refused
  | getStreamSetInfoV1 path =>
    show Refused (p.processStreamSetInfo request {}).2
    rw [processStreamSetInfo, hm]
    exact (refusal_checkPathThen h _).refused
  | getStreamInfoV1 path =>
    show Refused (p.processStreamInfo request {}).2
    rw [processStreamInfo, hm]
    exact (refusal_checkPathThen h _).refused
  | getStreamSegmentV1 get =>
    show Refused (p.processGetStream request {}).2
    rw [processGetStream, hm]
    exact (refusal_checkPathThen h _).refused
  | subscribeStoreChangesV1 paths =>
    show Refused (p.processSubscribeStoreChanges request {}).2
    rw [processSubscribeStoreChanges, hm]
    exact (refusal_subscribe h).refused
  | subscribeEnvelopesV1 m =>
    rcases processSubscribeEnvelopes_or hm h with hrefusal | ⟨hempty, -⟩
    · exact hrefusal.refused
    · show Refused (p.processSubscribeEnvelopes request {}).2
      rw [hempty]
      exact refused_empty
  | writeEnvelopeV1 m => exact (refusal_processWriteEnvelope hm h).refused
  | _ => exact absurd trivial h

/-- A keepalive whose message does not parse. -/
def UnparsedKeepalive (request : Envelope) : Prop :=
  HasType request .subscribeKeepaliveV1 ∧ request.getMessage 0 = none

/-- Whatever check fails, there is an error in the output and no handler was called. -/
theorem refused_of_invalid {p : RequestProcessor} {request : Envelope} (h : p.Invalid request)
    (hkeepalive : ¬ UnparsedKeepalive request) :
    Refused (p.validateAndDispatch request {}).2 := by
  rcases h with hnone | ⟨type, htype, h, hm⟩ | ⟨m, hm, h⟩
  · rcases p.validateAndDispatch_or request {} with ⟨code, message, hrefused⟩ | htype
    · rw [hrefused]
      exact p.refused_populateErrorResponse code message
    · exact absurd htype hnone
  · rw [htype.validateAndDispatch]
    refine refused_of_getMessage_none h hm ?_
    rintro rfl
    exact hkeepalive ⟨htype, hm⟩
  · rw [(HasType.of_getMessage hm).validateAndDispatch]
    exact refused_of_not_validated hm h

/-- `ProcessRequest` only adds the tags. -/
theorem Refused.processRequest {p : RequestProcessor} {request : Envelope}
    (h : Refused (p.validateAndDispatch request {}).2) :
    Refused (p.processRequest request {}).2 := by
  cases hv : p.validateAndDispatch request {} with
  | mk r t =>
    rw [hv] at h
    rcases r with f | status
    · rwa [processRequest_error hv]
    · cases status with
      | deferred => rwa [processRequest_deferred hv]
      | authoritative =>
        rcases h.output_or with hnil | ⟨e, he, herror⟩
        · rwa [processRequest_unanswered hv hnil]
        · dsimp only at he
          have hne : t.output ≠ [] := by
            rw [he]
            exact List.cons_ne_nil _ _
          rw [processRequest_authoritative hv hne]
          refine ⟨h.calls_eq, Or.inr ⟨_, ?_, herror.addTags request.tag⟩⟩
          show tagFirst request.tag t.output = _
          rw [he]
          rfl

/-! ## Handlers -/

/-- Handlers are called for requests that were validated, and a request that is answered
because a check fails is answered with one error. -/
structure Gated (p : RequestProcessor) (request : Envelope) : Prop where
  refused (h : p.Invalid request) (houtput : (p.processRequest request {}).2.output ≠ []) :
    (p.processRequest request {}).2.calls = [] ∧
      ∃ e, (p.processRequest request {}).2.output = [e] ∧ e.IsError
  called (h : (p.processRequest request {}).2.calls ≠ []) : ¬ p.Invalid request

theorem calls_handleKeepalive (p : RequestProcessor) (request : Envelope) (t : Trace) :
    (p.handleKeepalive request t).2.calls = t.calls ++ [.handleSubscribeKeepalive request] := by
  rw [handleKeepalive]
  split <;> rfl

/-- **Handlers are behind the checks**: no handler is called for a request that fails one, which is
answered with an error instead, but for keepalives. Where the message of a keepalive does not parse
the error is made, and the handler is called all the same. -/
theorem gated_iff (p : RequestProcessor) (request : Envelope) :
    p.Gated request ↔ ¬ UnparsedKeepalive request := by
  constructor
  · rintro hgated ⟨htype, hm⟩
    refine hgated.called ?_ (.message _ htype rfl hm)
    rw [calls_processRequest, p.validateAndDispatch_keepaliveUnparsed htype hm,
      calls_handleKeepalive]
    exact List.append_ne_nil_of_right_ne_nil _ (List.cons_ne_nil _ _)
  · intro hkeepalive
    refine ⟨fun h houtput => ?_, fun hcalls h => ?_⟩
    · have hrefused := (refused_of_invalid h hkeepalive).processRequest
      exact ⟨hrefused.calls_eq, hrefused.output_or.resolve_left houtput⟩
    · exact hcalls (refused_of_invalid h hkeepalive).processRequest.calls_eq

/-- The handler is called for a keepalive that does not parse. -/
theorem not_gated_keepalive : ¬ (deferring [1]).Gated unparsedKeepalive := by
  intro h
  have htype : HasType unparsedKeepalive .subscribeKeepaliveV1 := ⟨by decide, rfl, rfl⟩
  exact h.called (by decide +kernel) (.message _ htype rfl (by decide +kernel))

end RequestProcessor

end Zippylog
