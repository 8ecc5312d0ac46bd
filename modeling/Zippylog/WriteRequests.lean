import Zippylog.Validation

/-!
# Write requests

What becomes of the entries of a write request, and how it is answered. `request.proto` has the law:
entries that are no envelopes are skipped, the others are handed on in their order, and a client is
told of an error even if it does not want an acknowledgement.

- `parseEnvelopes_of_not_hasEmpty`: the entries that parse, unless one is empty;
- `gives_writeAnswer`: the answer to a request, by what its handler returned;
- `keepsGood_iff`: when entries that do not parse do no harm to the others. An empty entry makes
  the constructor of `Envelope` throw what the loop does not catch;
- `acknowledged_iff`: when a request is answered as its flags say. What the handler returned is
  looked at only where an acknowledgement is wanted.
-/

namespace Zippylog

open Wire

namespace RequestProcessor

/-! ## Entries -/

/-- The entries that parse as envelopes. -/
def parsable (entries : List Bytes) : List Envelope :=
  entries.filterMap fun s => (Envelope.ofBuffer s).toOption

/-- Some entry is empty. -/
def hasEmpty (entries : List Bytes) : Bool := entries.any List.isEmpty

/-- An entry that is not empty and does not parse is the exception that is caught. -/
theorem ofBuffer_cons (b : UInt8) (bs : Bytes) :
    (∃ e, Envelope.ofBuffer (b :: bs) = .ok e) ∨
      Envelope.ofBuffer (b :: bs) = .error .deserialize := by
  have hlength : ¬ (b :: bs).length = 0 := Nat.succ_ne_zero _
  rw [Envelope.ofBuffer, if_neg hlength, Envelope.initializeFromBuffer]
  cases Envelope.parse (b :: bs) with
  | none => exact Or.inr rfl
  | some e => exact Or.inl ⟨e, rfl⟩

theorem parsable_nil : parsable [] = [] := rfl

theorem parsable_cons_ok {s : Bytes} {e : Envelope} (h : Envelope.ofBuffer s = .ok e)
    (ss : List Bytes) : parsable (s :: ss) = e :: parsable ss := by
  have hsome : (Envelope.ofBuffer s).toOption = some e := by
    rw [h]
    rfl
  exact List.filterMap_cons_some hsome

theorem parsable_cons_error {s : Bytes} {exn : Exn} (h : Envelope.ofBuffer s = .error exn)
    (ss : List Bytes) : parsable (s :: ss) = parsable ss := by
  have hnone : (Envelope.ofBuffer s).toOption = none := by
    rw [h]
    rfl
  exact List.filterMap_cons_none hnone

theorem parseEnvelopes_of_not_hasEmpty {entries : List Bytes} (h : hasEmpty entries = false) :
    parseEnvelopes entries = .ok (parsable entries) := by
  induction entries with
  | nil => rfl
  | cons s ss ih =>
    obtain ⟨hs, hss⟩ := Bool.or_eq_false_iff.mp h
    rw [parseEnvelopes]
    obtain ⟨b, bs, rfl⟩ := List.exists_cons_of_ne_nil (List.isEmpty_eq_false_iff.mp hs)
    rcases ofBuffer_cons b bs with ⟨e, he⟩ | he
    · rw [parsable_cons_ok he, he]
      dsimp only
      rw [ih hss]
      rfl
    · rw [parsable_cons_error he, he]
      exact ih hss

/-- An empty entry is another exception, wherever it stands. -/
theorem parseEnvelopes_of_hasEmpty {entries : List Bytes} (h : hasEmpty entries = true) :
    ∃ e, parseEnvelopes entries = .error e := by
  induction entries with
  | nil => cases h
  | cons s ss ih =>
    rw [parseEnvelopes]
    cases s with
    | nil => exact ⟨_, rfl⟩
    | cons b bs =>
      obtain ⟨e, he⟩ := ih h
      rcases ofBuffer_cons b bs with ⟨e', he'⟩ | he'
      · rw [he']
        dsimp only
        rw [he]
        exact ⟨e, rfl⟩
      · rw [he']
        exact ⟨e, he⟩

/-! ## The routine -/

/-- `send_ack`. -/
def wantsAck (m : WriteEnvelopeV1) : Bool :=
  m.acknowledge.getD true || m.synchronous.getD false

/-- What the handler returns for the entries that parse. -/
def handledWrite (p : RequestProcessor) (m : WriteEnvelopeV1) : Except Exn HandlerResult :=
  p.impl.handleWriteEnvelopes m.path (parsable m.envelope) (m.synchronous.getD false)

/-- The call of the handler. -/
def writeCall (m : WriteEnvelopeV1) : HandlerCall :=
  .handleWriteEnvelopes m.path (parsable m.envelope) (m.synchronous.getD false)

/-- The result of the routine, where the rest of it did not throw. -/
def writeResult : Except Fault Unit × Trace → Processed
  | (.error f, t) => (.error f, t)
  | (.ok (), t) => (.ok (writeStatus t), t)

theorem calls_acknowledgeWrite (p : RequestProcessor) (result : HandlerResult) (sendAck : Bool)
    (t : Trace) : (p.acknowledgeWrite result sendAck t).2.calls = t.calls := by
  unfold acknowledgeWrite
  split_ifs
  · split <;> rfl
  · rfl

theorem calls_writeResult (r : Except Fault Unit × Trace) :
    (writeResult r).2.calls = r.2.calls := by
  obtain ⟨f | _, t⟩ := r <;> rfl

section

variable {p : RequestProcessor} {request : Envelope} {m : WriteEnvelopeV1}

theorem checkWritePath_eq_of_fst {path : Bytes} {t : Trace}
    (h : (p.checkWritePath path t).1 = true) : p.checkWritePath path t = (true, t) := by
  rcases p.checkWritePath_eq_or path t with hcheck | ⟨code, message, hcheck⟩
  · exact hcheck
  · rw [hcheck] at h
    cases h

/-- A request that was validated comes to the entries. -/
theorem validateAndDispatch_write (hm : request.getMessage 0 = some (.writeEnvelopeV1 m))
    (h : p.Validated (.writeEnvelopeV1 m)) :
    p.validateAndDispatch request {} = writeResult (p.writeEnvelopes m {}) := by
  obtain ⟨hpath, hne⟩ := h
  rw [(HasType.of_getMessage hm).validateAndDispatch]
  show p.processWriteEnvelope request {} = _
  unfold processWriteEnvelope
  rw [hm]
  simp only [checkWritePath_eq_of_fst hpath, if_neg (mt List.isEmpty_iff.mp hne)]
  rcases p.writeEnvelopes m {} with ⟨f | _, t⟩ <;> rfl

/-- Without entries there is an error, and no exception. -/
theorem validateAndDispatch_write_nil (hm : request.getMessage 0 = some (.writeEnvelopeV1 m))
    (hpath : (p.checkWritePath m.path {}).1 = true) (h : m.envelope = []) :
    ∃ status t, p.validateAndDispatch request {} = (.ok status, t) := by
  rw [(HasType.of_getMessage hm).validateAndDispatch]
  show ∃ status t, p.processWriteEnvelope request {} = _
  unfold processWriteEnvelope
  rw [hm]
  simp only [checkWritePath_eq_of_fst hpath, if_pos (List.isEmpty_iff.mpr h)]
  exact ⟨_, _, rfl⟩

theorem writeEnvelopes_of_hasEmpty (h : hasEmpty m.envelope = true) (t : Trace) :
    ∃ e, p.writeEnvelopes m t = (.error (.exception e), t) := by
  obtain ⟨e, he⟩ := parseEnvelopes_of_hasEmpty h
  rw [writeEnvelopes]
  simp only [he]
  exact ⟨e, rfl⟩

theorem writeEnvelopes_of_parsable_nil (hempty : hasEmpty m.envelope = false)
    (h : parsable m.envelope = []) (t : Trace) :
    p.writeEnvelopes m t = p.acknowledgeWrite .makeSynchronous (wantsAck m) t := by
  rw [writeEnvelopes]
  simp only [parseEnvelopes_of_not_hasEmpty hempty, h]
  rfl

theorem writeEnvelopes_of_parsable (hempty : hasEmpty m.envelope = false)
    (h : parsable m.envelope ≠ []) (t : Trace) :
    p.writeEnvelopes m t = match p.handledWrite m with
      | .error e => (.error (.exception e), t.call (writeCall m))
      | .ok result => p.acknowledgeWrite result (wantsAck m) (t.call (writeCall m)) := by
  obtain ⟨env, envs, henvs⟩ := List.exists_cons_of_ne_nil h
  rw [writeEnvelopes]
  simp only [parseEnvelopes_of_not_hasEmpty hempty, handledWrite, writeCall, henvs]
  rfl

theorem calls_writeEnvelopes (hempty : hasEmpty m.envelope = false)
    (h : parsable m.envelope ≠ []) :
    (p.writeEnvelopes m {}).2.calls = [writeCall m] := by
  rw [writeEnvelopes_of_parsable hempty h]
  split
  · rfl
  · rw [calls_acknowledgeWrite]
    rfl

end

/-! ## Malformed entries -/

/-- The entries that do not parse are skipped, and the others are written. -/
structure KeepsGood (p : RequestProcessor) (request : Envelope) (m : WriteEnvelopeV1) : Prop where
  /-- the handler is given the entries that parse -/
  called (h : parsable m.envelope ≠ []) : (p.processRequest request {}).2.calls = [writeCall m]
  /-- an exception comes from the handler, or from what it returned -/
  escapes (exn : Exn) (t : Trace)
    (h : p.processRequest request {} = (.error (.exception exn), t)) : t.calls ≠ []

/-- Entries that do harm: an empty one, or such that none is left of a request that wants
to be acknowledged. -/
def Spoils (m : WriteEnvelopeV1) : Prop :=
  hasEmpty m.envelope = true ∨
    (m.envelope ≠ [] ∧ parsable m.envelope = [] ∧ wantsAck m = true)

theorem ne_nil_of_hasEmpty {entries : List Bytes} (h : hasEmpty entries = true) : entries ≠ [] := by
  rintro rfl
  cases h

section

variable {p : RequestProcessor} {request : Envelope} {m : WriteEnvelopeV1}

/-- What does harm is an exception in front of the handler. -/
theorem validateAndDispatch_of_spoils (hm : request.getMessage 0 = some (.writeEnvelopeV1 m))
    (hpath : (p.checkWritePath m.path {}).1 = true) (h : Spoils m) :
    ∃ e, p.validateAndDispatch request {} = (.error (.exception e), {}) := by
  have hne : m.envelope ≠ [] := by
    rcases h with hempty | ⟨hne, -⟩
    · exact ne_nil_of_hasEmpty hempty
    · exact hne
  rw [validateAndDispatch_write hm ⟨hpath, hne⟩]
  cases hempty : hasEmpty m.envelope with
  | true =>
    obtain ⟨e, he⟩ := writeEnvelopes_of_hasEmpty (p := p) hempty {}
    rw [he]
    exact ⟨e, rfl⟩
  | false =>
    obtain ⟨-, hnil, hack⟩ := h.resolve_left (Bool.not_eq_true _ ▸ hempty)
    rw [writeEnvelopes_of_parsable_nil hempty hnil, hack]
    exact ⟨_, rfl⟩

/-- Without an entry that parses there is no exception either, but for those. -/
theorem validateAndDispatch_of_parsable_nil
    (hm : request.getMessage 0 = some (.writeEnvelopeV1 m))
    (hpath : (p.checkWritePath m.path {}).1 = true) (h : ¬ Spoils m)
    (hnil : parsable m.envelope = []) :
    ∃ status t, p.validateAndDispatch request {} = (.ok status, t) := by
  by_cases hne : m.envelope = []
  · exact validateAndDispatch_write_nil hm hpath hne
  · obtain ⟨hempty, hack⟩ := not_or.mp h
    have hack : wantsAck m = false := by
      by_contra htrue
      exact hack ⟨hne, hnil, Bool.not_eq_false _ ▸ htrue⟩
    rw [validateAndDispatch_write hm ⟨hpath, hne⟩,
      writeEnvelopes_of_parsable_nil (Bool.not_eq_true _ ▸ hempty) hnil, hack]
    exact ⟨_, _, rfl⟩

/-- With one the handler is called. -/
theorem calls_validateAndDispatch_write (hm : request.getMessage 0 = some (.writeEnvelopeV1 m))
    (hpath : (p.checkWritePath m.path {}).1 = true) (h : ¬ Spoils m)
    (hparsable : parsable m.envelope ≠ []) :
    (p.validateAndDispatch request {}).2.calls = [writeCall m] := by
  have hne : m.envelope ≠ [] := by
    intro hnil
    rw [hnil] at hparsable
    exact hparsable parsable_nil
  have hempty : hasEmpty m.envelope = false := Bool.not_eq_true _ ▸ (not_or.mp h).1
  rw [validateAndDispatch_write hm ⟨hpath, hne⟩, calls_writeResult,
    calls_writeEnvelopes hempty hparsable]

end

/-- **Malformed entries** are skipped and do no harm, whatever the processor, the messages and the
handler are, but for those of `Spoils`: an entry is empty, or none parses and an acknowledgement is
wanted. -/
theorem keepsGood_iff (p : RequestProcessor) {request : Envelope} {m : WriteEnvelopeV1}
    (hm : request.getMessage 0 = some (.writeEnvelopeV1 m))
    (hpath : (p.checkWritePath m.path {}).1 = true) : p.KeepsGood request m ↔ ¬ Spoils m := by
  constructor
  · intro hkeeps hspoils
    obtain ⟨e, hv⟩ := validateAndDispatch_of_spoils hm hpath hspoils
    exact hkeeps.escapes e _ (processRequest_exception_iff.mpr hv) rfl
  · intro hspoils
    refine ⟨fun h => ?_, fun exn t hr => ?_⟩
    · rw [calls_processRequest]
      exact calls_validateAndDispatch_write hm hpath hspoils h
    · rw [processRequest_exception_iff] at hr
      by_cases h : parsable m.envelope = []
      · obtain ⟨status, t', hok⟩ := validateAndDispatch_of_parsable_nil hm hpath hspoils h
        rw [hok] at hr
        cases hr
      · have hone := calls_validateAndDispatch_write hm hpath hspoils h
        rw [hr] at hone
        rw [hone]
        exact List.cons_ne_nil _ _

/-- A processor that writes what it is given at once. -/
def writing : RequestProcessor :=
  { deferring [1] with
    impl := { (deferring [1]).impl with
      handleWriteEnvelopes := fun _ es _ => .ok (.makeWriteResult (UInt32.ofNat es.length)) } }

/-- A request to write entries to a stream. -/
def writeMessage (entries : List Bytes) (acknowledge : Option Bool) : WriteEnvelopeV1 where
  path := str "/bucket/set/stream"
  envelope := entries
  acknowledge := acknowledge
  synchronous := none

def writeRequest (entries : List Bytes) (acknowledge : Option Bool) : Envelope :=
  Envelope.ofMessage 0 (.writeEnvelopeV1 (writeMessage entries acknowledge))

theorem keepsGood_garbage :
    writing.KeepsGood (writeRequest [[255], [8, 1]] none) (writeMessage [[255], [8, 1]] none) := by
  refine (keepsGood_iff writing (Envelope.getMessage_ofMessage 0 _) (by decide +kernel)).mpr ?_
  rintro (hempty | ⟨-, hnil, -⟩)
  · cases hempty
  · exact absurd hnil (by decide +kernel)

/-- An entry that is empty loses the one behind it. -/
theorem not_keepsGood_empty :
    ¬ writing.KeepsGood (writeRequest [[], [8, 1]] none) (writeMessage [[], [8, 1]] none) := by
  intro h
  have hcalls := h.called (by decide +kernel)
  exact absurd hcalls (by decide +kernel)

/-! ## Answers -/

/-- How a write request can be answered. -/
inductive WriteAnswer where
  | error
  | writeAck (written : UInt32)
  | silent
  deriving DecidableEq

/-- The answer is that of `ProcessMessages`. -/
def Gives (p : RequestProcessor) (messages : List Bytes) (request : Envelope) :
    WriteAnswer → Prop
  | .error => ∃ e, (p.processMessages messages).2.output = [e] ∧ e.IsError
  | .writeAck written => ∃ e, (p.processMessages messages).2.output = [e] ∧
      e.getMessage 0 = some (.writeAckV1 written)
  | .silent => (p.processMessages messages).2.output = [] ∧
      (p.processRequest request {}).1 = .ok .deferred

/-- There is one answer. -/
theorem Gives.eq {p : RequestProcessor} {messages : List Bytes} {request : Envelope}
    {a b : WriteAnswer} (h : p.Gives messages request a) (h' : p.Gives messages request b) :
    a = b := by
  have herror : ∀ {written}, ¬ (p.Gives messages request .error ∧
      p.Gives messages request (.writeAck written)) := by
    rintro written ⟨⟨e, he, code, message, herror⟩, ⟨e', he', hack⟩⟩
    rw [he] at he'
    cases he'
    rw [herror] at hack
    cases hack
  have hsilent : ∀ {e : Envelope}, p.Gives messages request .silent →
      (p.processMessages messages).2.output ≠ [e] := by
    rintro e ⟨hnil, -⟩
    rw [hnil]
    exact (List.cons_ne_nil _ _).symm
  -- so two answers that are given are of one kind
  cases a with
  | error =>
    cases b with
    | error => rfl
    | writeAck written => exact absurd ⟨h, h'⟩ herror
    | silent =>
      obtain ⟨e, he, -⟩ := h
      exact absurd he (hsilent h')
  | writeAck written =>
    cases b with
    | error => exact absurd ⟨h', h⟩ herror
    | writeAck written' =>
      obtain ⟨e, he, hack⟩ := h
      obtain ⟨e', he', hack'⟩ := h'
      rw [he] at he'
      cases he'
      rw [hack] at hack'
      cases hack'
      rfl
    | silent =>
      obtain ⟨e, he, -⟩ := h
      exact absurd he (hsilent h')
  | silent =>
    cases b with
    | error =>
      obtain ⟨e, he, -⟩ := h'
      exact absurd he (hsilent h)
    | writeAck written =>
      obtain ⟨e, he, -⟩ := h'
      exact absurd he (hsilent h)
    | silent => rfl

/-- The answer to what the handler returned. -/
def resultAnswer (sendAck : Bool) : HandlerResult → WriteAnswer
  | .makeDeferred => .silent
  | .makeWriteResult written => if sendAck then .writeAck written else .silent
  | _ => if sendAck then .error else .silent

theorem resultAnswer_false (result : HandlerResult) : resultAnswer false result = .silent := by
  cases result <;> rfl

/-- The answer to a request that was validated. -/
def writeAnswer (p : RequestProcessor) (m : WriteEnvelopeV1) : WriteAnswer :=
  if hasEmpty m.envelope then .error
  else if (parsable m.envelope).isEmpty then resultAnswer (wantsAck m) .makeSynchronous
  else match p.handledWrite m with
    | .error _ => .error
    | .ok result => resultAnswer (wantsAck m) result

section

variable {p : RequestProcessor} {messages : List Bytes} {request : Envelope}

theorem gives_error (h : Requests messages request) {exn : Exn} {t : Trace}
    (hv : p.validateAndDispatch request {} = (.error (.exception exn), t))
    (hnil : t.output = []) : p.Gives messages request .error := by
  show ∃ e, (p.processMessages messages).2.output = [e] ∧ e.IsError
  rw [output_processMessages p h, hv]
  exact (p.atomic_finalOutput_iff request exn t).mpr hnil

theorem gives_silent (h : Requests messages request) {t : Trace}
    (hv : p.validateAndDispatch request {} = (.ok .deferred, t)) (hnil : t.output = []) :
    p.Gives messages request .silent := by
  refine ⟨?_, ?_⟩
  · rw [output_processMessages p h, hv]
    exact hnil
  · rw [processRequest_deferred hv]

theorem gives_acknowledgeWrite (h : Requests messages request) {result : HandlerResult}
    {sendAck : Bool} {t : Trace} (hnil : t.output = [])
    (hv : p.validateAndDispatch request {} = writeResult (p.acknowledgeWrite result sendAck t)) :
    p.Gives messages request (resultAnswer sendAck result) := by
  have hstatus : writeStatus t = .deferred := if_pos (List.isEmpty_iff.mpr hnil)
  cases sendAck with
  | false =>
    -- without an acknowledgement the result is not looked at
    rw [resultAnswer_false]
    refine gives_silent h ?_ hnil
    rw [hv, ← hstatus]
    rfl
  | true =>
    cases result with
    | makeDeferred =>
      refine gives_silent h ?_ hnil
      rw [hv, ← hstatus]
      rfl
    | makeWriteResult written =>
      refine ⟨(p.respond (.writeAckV1 written)).addTags request.tag, ?_, ?_⟩
      · have hpush := output_push_of_nil hnil (p.respond (.writeAckV1 written))
        have hwrite : writeStatus (t.push (p.respond (.writeAckV1 written))) = .authoritative := by
          rw [writeStatus, hpush]
          rfl
        rw [output_processMessages p h, hv]
        show p.finalOutput request (.ok (writeStatus _), _) = _
        rw [hwrite]
        show tagFirst request.tag _ = _
        rw [hpush]
        rfl
      · exact (Envelope.getMessage_addTags _ _ _).trans (Envelope.getMessage_ofMessage _ _)
    | _ => exact gives_error h hv hnil

/-- **The answer** to a request that was validated. -/
theorem gives_writeAnswer (h : Requests messages request) {m : WriteEnvelopeV1}
    (hm : request.getMessage 0 = some (.writeEnvelopeV1 m))
    (hvalid : p.Validated (.writeEnvelopeV1 m)) :
    p.Gives messages request (p.writeAnswer m) := by
  have hv := validateAndDispatch_write hm hvalid
  unfold writeAnswer
  cases hempty : hasEmpty m.envelope with
  | true =>
    obtain ⟨e, he⟩ := writeEnvelopes_of_hasEmpty (p := p) hempty {}
    rw [he] at hv
    exact gives_error h hv rfl
  | false =>
    by_cases hnil : parsable m.envelope = []
    · rw [writeEnvelopes_of_parsable_nil hempty hnil] at hv
      rw [hnil]
      exact gives_acknowledgeWrite h rfl hv
    · rw [writeEnvelopes_of_parsable hempty hnil] at hv
      simp only [if_neg (mt List.isEmpty_iff.mp hnil)]
      cases hhandled : p.handledWrite m with
      | error e =>
        rw [hhandled] at hv
        exact gives_error h hv rfl
      | ok result =>
        rw [hhandled] at hv
        exact gives_acknowledgeWrite h rfl hv

/-- A request that fails a check is answered with an error. -/
theorem gives_error_of_not_validated (h : Requests messages request) {m : WriteEnvelopeV1}
    (hm : request.getMessage 0 = some (.writeEnvelopeV1 m))
    (hvalid : ¬ p.Validated (.writeEnvelopeV1 m)) : p.Gives messages request .error := by
  have hv : p.Refusal (p.validateAndDispatch request {}) := by
    rw [(HasType.of_getMessage hm).validateAndDispatch]
    exact refusal_processWriteEnvelope hm hvalid
  obtain ⟨code, message, hv⟩ := hv
  refine ⟨(p.respond (.error (some code) (some message))).addTags request.tag, ?_,
    (p.isError_respond _ _).addTags _⟩
  rw [output_processMessages p h, hv]
  rfl

end

/-- The request is not valid, or none of its entries is. -/
def InvalidWrite (p : RequestProcessor) (m : WriteEnvelopeV1) : Prop :=
  ¬ p.Validated (.writeEnvelopeV1 m) ∨ parsable m.envelope = []

/-- The handler throws, or returns an error. -/
def HandlerFails (p : RequestProcessor) (m : WriteEnvelopeV1) : Prop :=
  (∃ e, p.handledWrite m = .error e) ∨ ∃ code message, p.handledWrite m = .ok (.makeError code message)

/-- The law of acknowledgements, for the answers that are given. -/
structure Acknowledged (p : RequestProcessor) (m : WriteEnvelopeV1)
    (gives : WriteAnswer → Prop) : Prop where
  error (h : p.InvalidWrite m ∨ p.HandlerFails m) : gives .error
  acknowledged (hvalid : ¬ p.InvalidWrite m) (hhandler : ¬ p.HandlerFails m)
    (hack : wantsAck m = true) (hdeferred : p.handledWrite m ≠ .ok .makeDeferred) :
    ∃ written, p.handledWrite m = .ok (.makeWriteResult written) ∧ gives (.writeAck written)
  silent (hvalid : ¬ p.InvalidWrite m) (hhandler : ¬ p.HandlerFails m)
    (h : wantsAck m = false ∨ p.handledWrite m = .ok .makeDeferred) : gives .silent

/-- The handler returns what is no result of a write. -/
def HandlerStrays (p : RequestProcessor) (m : WriteEnvelopeV1) : Prop :=
  ∃ result, p.handledWrite m = .ok result ∧ resultAnswer true result = .error ∧ ¬ p.HandlerFails m

/-- The requests that pass the checks and are not answered by the law. -/
inductive Misanswered (p : RequestProcessor) (m : WriteEnvelopeV1) : Prop where
  /-- an empty entry is answered with an error, whatever else there is to write -/
  | emptyEntry (hempty : hasEmpty m.envelope = true) (hparsable : parsable m.envelope ≠ [])
      (h : ¬ p.HandlerFails m)
  /-- without an acknowledgement nobody is told that no entry parses -/
  | noEntry (hempty : hasEmpty m.envelope = false) (hparsable : parsable m.envelope = [])
      (hack : wantsAck m = false)
  /-- nor that the handler returned an error -/
  | handlerError (hempty : hasEmpty m.envelope = false) (hparsable : parsable m.envelope ≠ [])
      (hack : wantsAck m = false) (code : ErrorCode) (message : Bytes)
      (h : p.handledWrite m = .ok (.makeError code message))
  /-- there is no count to acknowledge -/
  | strays (hempty : hasEmpty m.envelope = false) (hparsable : parsable m.envelope ≠ [])
      (hack : wantsAck m = true) (h : p.HandlerStrays m)

section

variable {p : RequestProcessor} {messages : List Bytes} {request : Envelope} {m : WriteEnvelopeV1}

theorem gives_iff (h : Requests messages request)
    (hm : request.getMessage 0 = some (.writeEnvelopeV1 m))
    (hvalid : p.Validated (.writeEnvelopeV1 m)) {a : WriteAnswer} :
    p.Gives messages request a ↔ p.writeAnswer m = a := by
  have hgives := gives_writeAnswer h hm hvalid
  constructor
  · exact hgives.eq
  · rintro rfl
    exact hgives

theorem writeAnswer_of_hasEmpty (h : hasEmpty m.envelope = true) : p.writeAnswer m = .error :=
  if_pos h

theorem writeAnswer_of_parsable_nil (hempty : hasEmpty m.envelope = false)
    (h : parsable m.envelope = []) : p.writeAnswer m = if wantsAck m then .error else .silent := by
  rw [writeAnswer, hempty, h]
  rfl

theorem writeAnswer_of_parsable (hempty : hasEmpty m.envelope = false)
    (h : parsable m.envelope ≠ []) : p.writeAnswer m = match p.handledWrite m with
      | .error _ => .error
      | .ok result => resultAnswer (wantsAck m) result := by
  rw [writeAnswer, hempty, if_neg Bool.false_ne_true, if_neg (mt List.isEmpty_iff.mp h)]

/-- The answer breaks the law for the requests of `Misanswered`. -/
theorem Misanswered.not_acknowledged (h : p.Misanswered m)
    (hvalid : p.Validated (.writeEnvelopeV1 m)) : ¬ p.Acknowledged m (p.writeAnswer m = ·) := by
  have hentries : parsable m.envelope ≠ [] → ¬ p.InvalidWrite m := by
    rintro hparsable (hnot | hnil)
    · exact hnot hvalid
    · exact hparsable hnil
  intro hlaw
  rcases h with ⟨hempty, hparsable, hhandler⟩ | ⟨hempty, hparsable, hack⟩ |
    ⟨hempty, hparsable, hack, code, message, hhandled⟩ |
    ⟨hempty, hparsable, hack, result, hhandled, hresult, hhandler⟩
  · have hanswer := writeAnswer_of_hasEmpty (p := p) hempty
    by_cases hsilent : wantsAck m = false ∨ p.handledWrite m = .ok .makeDeferred
    · have hgiven := hlaw.silent (hentries hparsable) hhandler hsilent
      rw [hanswer] at hgiven
      cases hgiven
    · obtain ⟨hack, hdeferred⟩ := not_or.mp hsilent
      obtain ⟨written, -, hgiven⟩ := hlaw.acknowledged (hentries hparsable) hhandler
        (Bool.not_eq_false _ ▸ hack) hdeferred
      rw [hanswer] at hgiven
      cases hgiven
  · have hgiven := hlaw.error (Or.inl (Or.inr hparsable))
    rw [writeAnswer_of_parsable_nil hempty hparsable, hack] at hgiven
    cases hgiven
  · have hgiven := hlaw.error (Or.inr (Or.inr ⟨code, message, hhandled⟩))
    rw [writeAnswer_of_parsable hempty hparsable, hhandled, hack] at hgiven
    cases hgiven
  · have hdeferred : p.handledWrite m ≠ .ok .makeDeferred := by
      intro heq
      rw [hhandled] at heq
      cases heq
      cases hresult
    obtain ⟨written, hwritten, -⟩ := hlaw.acknowledged (hentries hparsable) hhandler hack hdeferred
    rw [hhandled] at hwritten
    cases hwritten
    cases hresult

/-- Where no entry parses, the answer is an error. -/
theorem writeAnswer_of_not_misanswered_nil (h : ¬ p.Misanswered m)
    (hparsable : parsable m.envelope = []) : p.writeAnswer m = .error := by
  cases hempty : hasEmpty m.envelope with
  | true => exact writeAnswer_of_hasEmpty hempty
  | false =>
    have hack : wantsAck m = true := by
      by_contra hack
      exact h (.noEntry hempty hparsable (Bool.not_eq_true _ ▸ hack))
    rw [writeAnswer_of_parsable_nil hempty hparsable, hack]
    rfl

/-- Where the handler fails, too. -/
theorem writeAnswer_of_handlerFails (h : ¬ p.Misanswered m) (hhandler : p.HandlerFails m) :
    p.writeAnswer m = .error := by
  by_cases hparsable : parsable m.envelope = []
  · exact writeAnswer_of_not_misanswered_nil h hparsable
  cases hempty : hasEmpty m.envelope with
  | true => exact writeAnswer_of_hasEmpty hempty
  | false =>
    rw [writeAnswer_of_parsable hempty hparsable]
    rcases hhandler with ⟨e, hhandled⟩ | ⟨code, message, hhandled⟩
    · rw [hhandled]
    · have hack : wantsAck m = true := by
        by_contra hack
        exact h (.handlerError hempty hparsable (Bool.not_eq_true _ ▸ hack) code message
          hhandled)
      rw [hhandled, hack]
      rfl

/-- Where there is something to write and the handler does not fail, the answer is its
result. -/
theorem writeAnswer_eq_resultAnswer (h : ¬ p.Misanswered m) (hentries : ¬ p.InvalidWrite m)
    (hhandler : ¬ p.HandlerFails m) :
    ∃ result, p.handledWrite m = .ok result ∧
      p.writeAnswer m = resultAnswer (wantsAck m) result ∧
      (wantsAck m = true → resultAnswer true result ≠ .error) := by
  have hparsable : parsable m.envelope ≠ [] := fun hnil => hentries (Or.inr hnil)
  have hempty : hasEmpty m.envelope = false := by
    by_contra hempty
    exact h (.emptyEntry (Bool.not_eq_false _ ▸ hempty) hparsable hhandler)
  cases hhandled : p.handledWrite m with
  | error e => exact absurd (Or.inl ⟨e, hhandled⟩) hhandler
  | ok result =>
    refine ⟨result, rfl, ?_, fun hack hresult => ?_⟩
    · rw [writeAnswer_of_parsable hempty hparsable, hhandled]
    · exact h (.strays hempty hparsable hack ⟨result, hhandled, hresult, hhandler⟩)

/-- The answer keeps the law for the others. -/
theorem acknowledged_of_not_misanswered (h : ¬ p.Misanswered m)
    (hvalid : p.Validated (.writeEnvelopeV1 m)) : p.Acknowledged m (p.writeAnswer m = ·) := by
  refine ⟨?_, fun hentries hhandler hack hdeferred => ?_, fun hentries hhandler hsilent => ?_⟩
  · rintro ((hnot | hparsable) | hhandler)
    · exact absurd hvalid hnot
    · exact writeAnswer_of_not_misanswered_nil h hparsable
    · exact writeAnswer_of_handlerFails h hhandler
  · obtain ⟨result, hhandled, hanswer, hresult⟩ := writeAnswer_eq_resultAnswer h hentries hhandler
    rw [hack] at hanswer
    cases result with
    | makeWriteResult written => exact ⟨written, hhandled, hanswer⟩
    | makeDeferred => exact absurd hhandled hdeferred
    | _ => exact absurd rfl (hresult hack)
  · obtain ⟨result, hhandled, hanswer, -⟩ := writeAnswer_eq_resultAnswer h hentries hhandler
    rcases hsilent with hack | hdeferred
    · rw [hanswer, hack]
      exact resultAnswer_false result
    · rw [hhandled] at hdeferred
      cases hdeferred
      exact hanswer

end

/-- **Write requests are answered by the law**, with every combination of the flags, of the entries
and of what the handler returns, but for those of `Misanswered` that pass the checks. -/
theorem acknowledged_iff (p : RequestProcessor) {messages : List Bytes} {request : Envelope}
    (h : Requests messages request) {m : WriteEnvelopeV1}
    (hm : request.getMessage 0 = some (.writeEnvelopeV1 m)) :
    p.Acknowledged m (p.Gives messages request) ↔
      ¬ (p.Validated (.writeEnvelopeV1 m) ∧ p.Misanswered m) := by
  by_cases hvalid : p.Validated (.writeEnvelopeV1 m)
  · have hgives : p.Gives messages request = (p.writeAnswer m = ·) :=
      funext fun a => propext (gives_iff h hm hvalid)
    rw [hgives]
    constructor
    · rintro hlaw ⟨-, hmisanswered⟩
      exact hmisanswered.not_acknowledged hvalid hlaw
    · intro hnot
      exact acknowledged_of_not_misanswered (fun hmisanswered => hnot ⟨hvalid, hmisanswered⟩) hvalid
  · refine iff_of_true ⟨?_, ?_, ?_⟩ fun hboth => hvalid hboth.1
    · exact fun _ => gives_error_of_not_validated h hm hvalid
    · exact fun hentries => absurd (Or.inl hvalid) hentries
    · exact fun hentries => absurd (Or.inl hvalid) hentries

/-- Two entries of which one parses are acknowledged as one. -/
theorem acknowledged_garbage : writing.Acknowledged (writeMessage [[255], [8, 1]] none)
    (writing.Gives [(writeRequest [[255], [8, 1]] none).toProtocolZmqMessage]
      (writeRequest [[255], [8, 1]] none)) := by
  refine (acknowledged_iff writing (requests_toProtocolZmqMessage (by decide))
    (Envelope.getMessage_ofMessage 0 _)).mpr ?_
  rintro ⟨-, ⟨hempty, -, -⟩ | ⟨-, hparsable, -⟩ | ⟨-, -, hack, -, -, -⟩ |
    ⟨-, -, -, result, hhandled, hresult, -⟩⟩
  · cases hempty
  · exact absurd hparsable (by decide +kernel)
  · cases hack
  · cases hhandled
    cases hresult

/-- Without an acknowledgement nobody is told that no entry parses. -/
theorem not_acknowledged_garbage : ¬ writing.Acknowledged (writeMessage [[255]] (some false))
    (writing.Gives [(writeRequest [[255]] (some false)).toProtocolZmqMessage]
      (writeRequest [[255]] (some false))) := by
  intro h
  obtain ⟨e, he, -⟩ := h.error (Or.inl (Or.inr (by decide +kernel)))
  have hnil : (writing.processMessages
      [(writeRequest [[255]] (some false)).toProtocolZmqMessage]).2.output = [] := by
    decide +kernel
  rw [hnil] at he
  cases he

end RequestProcessor

end Zippylog
