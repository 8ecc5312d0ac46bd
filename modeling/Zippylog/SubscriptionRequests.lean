import Zippylog.Validation

/-!
# Subscription requests

What the subscription handler is given for a request. A client asks for store changes or for
envelopes below some paths, with filters and perhaps with Lua code. The handler is to be given just
that: each path, each filter pair of an enumeration and a namespace, and the code; a request that
cannot be fulfilled is to be refused with an error.

- `requestedSubscription`: the record that a request asks for;
- `calls_subscribe`: the routines call the handler with what they took from the message;
- `faithful_iff`: a request comes to the handler as it was made, or is refused with an
  error, unless it has Lua code that does not fail to load. The jump to the end stands behind the
  branch for code that does not load, so it is taken for all code.
-/

namespace Zippylog

open Wire

namespace RequestProcessor

/-! ## Records -/

/-- The record that a subscription request asks for. -/
def requestedSubscription (p : RequestProcessor) : Message → SubscriptionInfo
  | .subscribeStoreChangesV1 paths => {
      type := .storeChange
      paths := subscribedPaths paths
      socketIdentifiers := p.currentRequestIdentities.drop 1 }
  | .subscribeEnvelopesV1 m => {
      type := .envelope
      paths := subscribedPaths m.path
      luaCode := m.luaCode.getD []
      socketIdentifiers := p.currentRequestIdentities.drop 1
      envelopeFilterNamespaces := m.filterNamespace
      envelopeFilterEnumerations := m.filterEnumerationNamespace.zip m.filterEnumerationType }
  | _ => {}

/-- The handler is called once, with the addresses of the request behind the first. -/
theorem calls_callHandleSubscriptionRequest (p : RequestProcessor)
    (subscription : SubscriptionInfo) (t : Trace) :
    (p.callHandleSubscriptionRequest subscription t).2.calls = t.calls ++
      [.handleSubscriptionRequest
        { subscription with socketIdentifiers := p.currentRequestIdentities.drop 1 }] := by
  unfold callHandleSubscriptionRequest
  dsimp only
  split
  · rfl
  · rfl
  · rfl
  · split_ifs <;> rfl
  · rfl
  · rfl
  · rfl

/-- The handler is called with the paths and the addresses of the request. -/
theorem calls_subscribe (p : RequestProcessor) (subscription : SubscriptionInfo)
    {paths : List Bytes} (h : paths.all Store.validatePath = true) (t : Trace) :
    (p.subscribe subscription paths t).2.calls =
      t.calls ++ [.handleSubscriptionRequest (p.subscriptionRecord subscription paths)] := by
  have hcalls := p.calls_callHandleSubscriptionRequest
    { subscription with paths := subscribedPaths paths } t
  unfold subscribe
  rw [if_pos h]
  split
  · rename_i heq
    rwa [heq] at hcalls
  · rename_i heq
    rwa [heq] at hcalls

/-! ## Requests -/

/-- A request for a subscription, whatever is in it. -/
def IsSubscription (request : Envelope) : Prop :=
  HasType request .subscribeStoreChangesV1 ∨ HasType request .subscribeEnvelopesV1

/-- What a request for a subscription comes to. -/
structure Faithful (p : RequestProcessor) (messages : List Bytes) (request : Envelope) : Prop where
  /-- the handler is called once, with what was asked for -/
  wellFormed (m : Message) (hm : request.getMessage 0 = some m) (h : p.Validated m) :
    (p.processMessages messages).2.calls =
      [.handleSubscriptionRequest (p.requestedSubscription m)]
  malformed (h : ¬ ∃ m, request.getMessage 0 = some m ∧ p.Validated m) :
    (p.processMessages messages).2.calls = [] ∧
      ∃ e, (p.processMessages messages).2.output = [e] ∧ e.IsError

/-- The Lua code of a request is looked at and does not fail to load: it loads, or the
interpreter does not come back. `goto LOG_END` is reached then, too. -/
def LuaIgnored (p : RequestProcessor) (request : Envelope) : Prop :=
  ∃ m code, request.getMessage 0 = some (.subscribeEnvelopesV1 m) ∧
    m.filterEnumerationNamespace.length = m.filterEnumerationType.length ∧
    m.luaCode = some code ∧ ¬ ∃ error, p.loadLuaCode code = .ok (.failed error)

section

variable {p : RequestProcessor} {request : Envelope}

theorem IsSubscription.message {m : Message} (h : IsSubscription request)
    (hm : request.getMessage 0 = some m) :
    (∃ paths, m = .subscribeStoreChangesV1 paths) ∨ ∃ s, m = .subscribeEnvelopesV1 s := by
  have htype : m.type = .subscribeStoreChangesV1 ∨ m.type = .subscribeEnvelopesV1 :=
    h.imp (HasType.of_getMessage hm).eq (HasType.of_getMessage hm).eq
  cases m with
  | subscribeStoreChangesV1 paths => exact Or.inl ⟨paths, rfl⟩
  | subscribeEnvelopesV1 s => exact Or.inr ⟨s, rfl⟩
  | _ => rcases htype with htype | htype <;> cases htype

/-- With Lua code that does not fail nothing is called and nothing is answered. -/
theorem LuaIgnored.validateAndDispatch (h : p.LuaIgnored request) :
    ∃ r, p.validateAndDispatch request {} = (r, {}) ∧ ∀ e, r ≠ .error (.exception e) := by
  obtain ⟨m, code, hm, hlength, hcode, hload⟩ := h
  rw [(HasType.of_getMessage hm).validateAndDispatch]
  show ∃ r, p.processSubscribeEnvelopes request {} = (r, {}) ∧ _
  unfold processSubscribeEnvelopes
  rw [hm]
  simp only [if_neg (not_not.mpr hlength), hcode]
  cases hl : p.loadLuaCode code with
  | error f =>
    refine ⟨_, rfl, ?_⟩
    rintro e heq
    cases heq
    rcases LuaState.loadLuaCode_error hl with hf | hf <;> cases hf
  | ok loaded =>
    cases loaded with
    | failed error => exact absurd ⟨error, hl⟩ hload
    | loaded state => exact ⟨_, rfl, fun e heq => by cases heq⟩

/-- A request that passes its checks comes to the handler as it was made. -/
theorem calls_of_wellFormed {m : Message} (hsubscription : IsSubscription request)
    (hm : request.getMessage 0 = some m) (h : p.Validated m) (hlua : ¬ p.LuaIgnored request) :
    (p.validateAndDispatch request {}).2.calls =
      [.handleSubscriptionRequest (p.requestedSubscription m)] := by
  rw [(HasType.of_getMessage hm).validateAndDispatch]
  rcases hsubscription.message hm with ⟨paths, rfl⟩ | ⟨s, rfl⟩
  · show (p.processSubscribeStoreChanges request {}).2.calls = _
    unfold processSubscribeStoreChanges
    rw [hm]
    exact p.calls_subscribe { type := .storeChange } h {}
  · obtain ⟨hlength, hload, hpaths⟩ := h
    -- there is no code, or it would load
    have hcode : s.luaCode = none := by
      cases hcode : s.luaCode with
      | none => rfl
      | some code =>
        obtain ⟨state, hloaded⟩ := hload code hcode
        refine absurd ⟨s, code, hm, hlength, hcode, ?_⟩ hlua
        rintro ⟨error, hfailed⟩
        rw [hloaded] at hfailed
        cases hfailed
    show (p.processSubscribeEnvelopes request {}).2.calls = _
    unfold processSubscribeEnvelopes
    rw [hm]
    simp only [if_neg (not_not.mpr hlength), hcode]
    rw [p.calls_subscribe _ hpaths {}]
    simp only [requestedSubscription, hcode]
    rfl

/-- A request that does not is refused. -/
theorem refusal_of_malformed (hsubscription : IsSubscription request)
    (h : ¬ ∃ m, request.getMessage 0 = some m ∧ p.Validated m) (hlua : ¬ p.LuaIgnored request) :
    p.Refusal (p.validateAndDispatch request {}) := by
  cases hm : request.getMessage 0 with
  | none =>
    rcases hsubscription with htype | htype
    · rw [htype.validateAndDispatch]
      exact refusal_of_getMessage_none rfl hm (by decide) (by decide)
    · rw [htype.validateAndDispatch]
      exact refusal_of_getMessage_none rfl hm (by decide) (by decide)
  | some m =>
    have hnot : ¬ p.Validated m := fun hvalid => h ⟨m, hm, hvalid⟩
    rw [(HasType.of_getMessage hm).validateAndDispatch]
    rcases hsubscription.message hm with ⟨paths, rfl⟩ | ⟨s, rfl⟩
    · show p.Refusal (p.processSubscribeStoreChanges request {})
      rw [processSubscribeStoreChanges, hm]
      exact refusal_subscribe hnot
    · rcases processSubscribeEnvelopes_or hm hnot with hrefusal | ⟨-, code, hlength, hcode, hload⟩
      · exact hrefusal
      · exact absurd ⟨s, code, hm, hlength, hcode, hload⟩ hlua

end

/-- **Subscription requests** come to the handler as they were made, or are refused, but for those
with Lua code that does not fail to load: these are neither handed on nor answered. This is for
every processor, list of messages, handler and outcome of the code. -/
theorem faithful_iff (p : RequestProcessor) {messages : List Bytes} {request : Envelope}
    (h : Requests messages request) (hsubscription : IsSubscription request) :
    p.Faithful messages request ↔ ¬ p.LuaIgnored request := by
  constructor
  · intro hfaithful hlua
    obtain ⟨r, hv, hr⟩ := hlua.validateAndDispatch
    have hcalls := calls_processMessages p h
    have houtput := output_processMessages p h
    rw [hv] at hcalls houtput
    by_cases hvalid : ∃ m, request.getMessage 0 = some m ∧ p.Validated m
    · obtain ⟨m, hm, hvalid⟩ := hvalid
      rw [hfaithful.wellFormed m hm hvalid] at hcalls
      cases hcalls
    · obtain ⟨-, e, he, -⟩ := hfaithful.malformed hvalid
      rw [he] at houtput
      rcases r with f | status
      · cases f with
        | exception e => exact hr e rfl
        | _ => cases houtput
      · cases status <;> cases houtput
  · intro hlua
    refine ⟨fun m hm hvalid => ?_, fun hmalformed => ?_⟩
    · rw [calls_processMessages p h]
      exact calls_of_wellFormed hsubscription hm hvalid hlua
    · obtain ⟨code, message, hv⟩ := refusal_of_malformed hsubscription hmalformed hlua
      rw [calls_processMessages p h, output_processMessages p h, hv]
      exact ⟨rfl, _, rfl, (p.isError_respond _ _).addTags _⟩

/-- A subscription to the changes of the whole store. -/
def wholeStore : Envelope := Envelope.ofMessage 0 (.subscribeStoreChangesV1 [])

theorem faithful_wholeStore :
    (deferring [1]).Faithful [wholeStore.toProtocolZmqMessage] wholeStore := by
  refine (faithful_iff (deferring [1]) (requests_toProtocolZmqMessage (by decide))
    (Or.inl (HasType.of_getMessage (Envelope.getMessage_ofMessage 0 _)))).mpr ?_
  rintro ⟨m, code, hm, -⟩
  cases hm

/-- Lua code that loads keeps the handler from being called. -/
theorem not_faithful_lua : ¬ (deferring [1]).Faithful
    [(Envelope.ofMessage 0 (.subscribeEnvelopesV1 ⟨[], [], [], [], some []⟩)).toProtocolZmqMessage]
    (Envelope.ofMessage 0 (.subscribeEnvelopesV1 ⟨[], [], [], [], some []⟩)) := by
  intro h
  have hcalls := h.wellFormed _ (Envelope.getMessage_ofMessage 0 _) ⟨rfl, ?_, rfl⟩
  · exact absurd hcalls (by decide +kernel)
  · rintro code hcode
    cases hcode
    exact ⟨_, rfl⟩

end RequestProcessor

end Zippylog
