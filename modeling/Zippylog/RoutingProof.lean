import Zippylog.Machine
import Zippylog.PostOffice
import Zippylog.Responses
import Zippylog.ResponseStateProof
import Zippylog.Routing

/-!
# Routing

What a client has received at any time of a run are messages that were sent for it, whole and
unmixed: responses of a worker go back along the envelopes' addresses through the broker, and
subscription messages go from the reactor through the streaming socket to the same broker.

- `RequestProcessor.Addressed.processMessages`: the records that handlers are given have the
  addresses of the request behind the first;
- `Routing.receiveMessage_workerFrames` and `Routing.head?_messages_workerFrames`: what a worker
  receives and answers is the first request that waits;
- `Routing.routed_iff`: every message reaches its client if and only if no call of
  `SendSubscriptionEnvelopeResponse` has something to send.

The invariant of the runs says of each queue between the parties that its frames are those of
messages that were sent, one behind the other. The last frame of an envelope response has
`ZMQ_SNDMORE`, so behind it the queue is not of that form again: the next message of the reactor
is taken for a part of it and goes to the wrong client.
-/

namespace Zippylog

open Wire

namespace RequestProcessor

/-! ## The addresses of subscriptions -/

/-- The records that handlers were given have the addresses of the request behind the
first. -/
def Addressed (p : RequestProcessor) (t : Trace) : Prop :=
  ∀ subscription, .handleSubscriptionRequest subscription ∈ t.calls →
    subscription.socketIdentifiers = p.currentRequestIdentities.drop 1

variable {p : RequestProcessor} {t : Trace}

theorem addressed_empty (p : RequestProcessor) : p.Addressed {} :=
  fun _ h => absurd h List.not_mem_nil

/-- The output does not matter. -/
theorem Addressed.of_calls_eq {t' : Trace} (h : p.Addressed t) (hcalls : t'.calls = t.calls) :
    p.Addressed t' := by
  intro subscription hmem
  rw [hcalls] at hmem
  exact h subscription hmem

theorem Addressed.push (h : p.Addressed t) (e : Envelope) : p.Addressed (t.push e) :=
  h.of_calls_eq rfl

theorem Addressed.populateErrorResponse (h : p.Addressed t) (code : ErrorCode) (message : Bytes) :
    p.Addressed (p.populateErrorResponse code message t) :=
  h.push _

theorem Addressed.messageFailure (h : p.Addressed t) : p.Addressed (p.messageFailure t) :=
  h.populateErrorResponse _ _

theorem Addressed.call (h : p.Addressed t) {c : HandlerCall}
    (hc : ∀ subscription, c = .handleSubscriptionRequest subscription →
      subscription.socketIdentifiers = p.currentRequestIdentities.drop 1) :
    p.Addressed (t.call c) := by
  intro subscription hmem
  rcases List.mem_append.mp hmem with hmem | hmem
  · exact h subscription hmem
  · exact hc subscription (List.mem_singleton.mp hmem).symm

theorem Addressed.checkPath (h : p.Addressed t) (path : Bytes) (rb rs rn : Bool) :
    p.Addressed (p.checkPath path t rb rs rn).2 := by
  rcases checkPath_eq_or p path t rb rs rn with hcheck | ⟨code, message, hcheck⟩
  · rw [hcheck]
    exact h
  · rw [hcheck]
    exact h.populateErrorResponse code message

/-- A check of a path calls no handler, so it is enough to look at what comes behind it. -/
theorem Addressed.checkPathThen (h : p.Addressed t) (path : Bytes) (rb rs rn : Bool)
    {k : Trace → Processed} (hk : ∀ {t}, p.Addressed t → p.Addressed (k t).2) :
    p.Addressed (p.checkPathThen path t rb rs rn k).2 := by
  unfold RequestProcessor.checkPathThen
  have hcheck := h.checkPath path rb rs rn
  split
  · rename_i heq
    rwa [heq] at hcheck
  · rename_i heq
    rw [heq] at hcheck
    exact hk hcheck

theorem Addressed.processStoreInfo (h : p.Addressed t) (e : Envelope) :
    p.Addressed (p.processStoreInfo e t).2 := by
  unfold RequestProcessor.processStoreInfo
  split
  · exact h.messageFailure
  · exact h.push _

theorem Addressed.processBucketInfo (h : p.Addressed t) (e : Envelope) :
    p.Addressed (p.processBucketInfo e t).2 := by
  unfold RequestProcessor.processBucketInfo
  split
  · exact h.messageFailure
  · exact h.checkPathThen _ _ _ _ fun h => h.push _
  · exact h

theorem Addressed.processStreamSetInfo (h : p.Addressed t) (e : Envelope) :
    p.Addressed (p.processStreamSetInfo e t).2 := by
  unfold RequestProcessor.processStreamSetInfo
  split
  · exact h.messageFailure
  · exact h.checkPathThen _ _ _ _ fun h => h.push _
  · exact h

theorem Addressed.processStreamInfo (h : p.Addressed t) (e : Envelope) :
    p.Addressed (p.processStreamInfo e t).2 := by
  unfold RequestProcessor.processStreamInfo
  split
  · exact h.messageFailure
  · exact h.checkPathThen _ _ _ _ fun h => h.push _
  · exact h

/-- A segment is sent without a handler. -/
theorem Addressed.sendSegment (h : p.Addressed t) (request : Envelope)
    (get : GetStreamSegmentV1) (stream : InputStream) :
    p.Addressed (p.sendSegment request get stream t) := by
  unfold RequestProcessor.sendSegment
  dsimp only
  split
  · exact h.populateErrorResponse _ _
  · split
    · exact h.populateErrorResponse _ _
    · exact h.of_calls_eq rfl

/-- Neither is one called for a stream that does not open. -/
theorem Addressed.processGetStream (h : p.Addressed t) (request : Envelope) :
    p.Addressed (p.processGetStream request t).2 := by
  unfold RequestProcessor.processGetStream
  split
  · exact h.populateErrorResponse _ _
  · refine h.checkPathThen _ _ _ _ fun h => ?_
    split
    · exact h.populateErrorResponse _ _
    · exact h
    · split
      · exact h.sendSegment _ _ _
      · split
        · exact h
        · exact h.sendSegment _ _ _
  · exact h

/-- Where the handler is called. -/
theorem Addressed.callHandleSubscriptionRequest (h : p.Addressed t)
    (subscription : SubscriptionInfo) :
    p.Addressed (p.callHandleSubscriptionRequest subscription t).2 := by
  unfold RequestProcessor.callHandleSubscriptionRequest
  have hcall : p.Addressed (t.call (.handleSubscriptionRequest
      { subscription with socketIdentifiers := p.currentRequestIdentities.drop 1 })) := by
    refine h.call fun subscription' heq => ?_
    rw [← HandlerCall.handleSubscriptionRequest.inj heq]
  dsimp only
  split
  · exact hcall
  · exact hcall
  · exact hcall.populateErrorResponse _ _
  · split
    · exact hcall.populateErrorResponse _ _
    · exact hcall.push _
  · exact hcall.populateErrorResponse _ _
  · exact hcall
  · exact hcall

/-- The subscription handler is given the addresses with the record. -/
theorem Addressed.subscribe (h : p.Addressed t) (subscription : SubscriptionInfo)
    (paths : List Bytes) : p.Addressed (p.subscribe subscription paths t).2 := by
  unfold RequestProcessor.subscribe
  split
  · have hcall := h.callHandleSubscriptionRequest
      { subscription with paths := subscribedPaths paths }
    split
    · rename_i heq
      rwa [heq] at hcall
    · rename_i heq
      rwa [heq] at hcall
  · exact h.populateErrorResponse _ _

theorem Addressed.processSubscribeStoreChanges (h : p.Addressed t) (request : Envelope) :
    p.Addressed (p.processSubscribeStoreChanges request t).2 := by
  unfold RequestProcessor.processSubscribeStoreChanges
  split
  · exact h.messageFailure
  · exact h.subscribe _ _
  · exact h

/-- Code that does not load is answered in front of the handler. -/
theorem Addressed.processSubscribeEnvelopes (h : p.Addressed t) (request : Envelope) :
    p.Addressed (p.processSubscribeEnvelopes request t).2 := by
  unfold RequestProcessor.processSubscribeEnvelopes
  split
  · exact h.messageFailure
  · dsimp only
    split
    · exact h.populateErrorResponse _ _
    · split
      · split
        · exact h
        · exact h.populateErrorResponse _ _
        · exact h
      · exact h.subscribe _ _
  · exact h

theorem Addressed.handleKeepalive (h : p.Addressed t) (request : Envelope) :
    p.Addressed (p.handleKeepalive request t).2 := by
  unfold RequestProcessor.handleKeepalive
  have hcall : p.Addressed (t.call (.handleSubscribeKeepalive request)) := h.call nofun
  dsimp only
  split
  · exact hcall.of_calls_eq rfl
  · exact hcall.of_calls_eq rfl

theorem Addressed.processSubscribeKeepalive (h : p.Addressed t) (request : Envelope) :
    p.Addressed (p.processSubscribeKeepalive request t).2 := by
  unfold RequestProcessor.processSubscribeKeepalive
  split
  · exact h.messageFailure.handleKeepalive _
  · exact h.handleKeepalive _
  · exact h

theorem Addressed.acknowledgeWrite (h : p.Addressed t) (result : HandlerResult) (sendAck : Bool) :
    p.Addressed (p.acknowledgeWrite result sendAck t).2 := by
  unfold RequestProcessor.acknowledgeWrite
  split
  · split
    · exact h
    · exact h.push _
    · exact h
  · exact h

/-- The write handler is given envelopes and no addresses. -/
theorem Addressed.writeEnvelopes (h : p.Addressed t) (m : WriteEnvelopeV1) :
    p.Addressed (p.writeEnvelopes m t).2 := by
  unfold RequestProcessor.writeEnvelopes
  dsimp only
  split
  · exact h
  · exact h.acknowledgeWrite _ _
  · rename_i env envs _
    have hcall : p.Addressed
        (t.call (.handleWriteEnvelopes m.path (env :: envs) (m.synchronous.getD false))) :=
      h.call nofun
    split
    · exact hcall
    · exact hcall.acknowledgeWrite _ _

/-- The check of the path of a write adds an error at most. -/
theorem Addressed.checkWritePath (h : p.Addressed t) (path : Bytes) :
    p.Addressed (p.checkWritePath path t).2 := by
  unfold RequestProcessor.checkWritePath
  split
  · exact h.populateErrorResponse _ _
  · split
    · split
      · exact h.populateErrorResponse _ _
      · exact h.checkPath _ _ _ _
    · exact h

/-- A write calls its handler at most once, behind the checks. -/
theorem Addressed.processWriteEnvelope (h : p.Addressed t) (request : Envelope) :
    p.Addressed (p.processWriteEnvelope request t).2 := by
  unfold RequestProcessor.processWriteEnvelope
  split
  · exact h.messageFailure
  · rename_i m _
    have hpath := h.checkWritePath m.path
    split
    · rename_i heq
      rwa [heq] at hpath
    · rename_i heq
      rw [heq] at hpath
      split
      · exact hpath.populateErrorResponse _ _
      · have hwrite := hpath.writeEnvelopes m
        split
        · rename_i heq
          rwa [heq] at hwrite
        · rename_i heq
          rwa [heq] at hwrite
  · exact h

theorem Addressed.processRegisterPlugin (h : p.Addressed t) (request : Envelope) :
    p.Addressed (p.processRegisterPlugin request t).2 := by
  unfold RequestProcessor.processRegisterPlugin
  split
  · exact h.messageFailure
  · exact h

/-- One routine after the other. -/
theorem Addressed.dispatch (h : p.Addressed t) (requestType : UInt32) (request : Envelope) :
    p.Addressed (p.dispatch requestType request t).2 := by
  have hunknown : p.Addressed (p.unknownRequest t).2 := h.populateErrorResponse _ _
  unfold RequestProcessor.dispatch
  split
  · unfold dispatchType
    split
    · exact h.push _
    · exact h.push _
    · exact h.processStoreInfo _
    · exact h.processBucketInfo _
    · exact h.processStreamSetInfo _
    · exact h.processStreamInfo _
    · exact h.processGetStream _
    · exact h.processSubscribeStoreChanges _
    · exact h.processSubscribeEnvelopes _
    · exact h.processSubscribeKeepalive _
    · exact h
    · exact h.processWriteEnvelope _
    · exact h.processRegisterPlugin _
    · exact h
    · exact h
    · exact hunknown
  · exact hunknown

/-- The validation in front of the routine calls no handler. -/
theorem Addressed.processRequest (h : p.Addressed t) (request : Envelope) :
    p.Addressed (p.processRequest request t).2 := by
  have hdispatch : p.Addressed (p.validateAndDispatch request t).2 := by
    unfold validateAndDispatch
    split
    · exact h.populateErrorResponse _ _
    · split
      · exact h.populateErrorResponse _ _
      · exact h.populateErrorResponse _ _
      · split
        · exact h.populateErrorResponse _ _
        · exact h.dispatch _ _
  unfold RequestProcessor.processRequest
  split
  · rename_i heq
    rw [heq] at hdispatch
    split
    · exact hdispatch
    · exact hdispatch.of_calls_eq rfl
  · exact hdispatch

/-- What is done with the output calls no handler. -/
theorem Addressed.createOutput {r : Processed} (h : p.Addressed r.2) (request : Envelope) :
    p.Addressed (p.createOutput request r).2 := by
  unfold RequestProcessor.createOutput
  split
  · have herror := h.populateErrorResponse .generalErrorProcessing
      (str "exception when processing request")
    exact herror.of_calls_eq rfl
  · exact h
  · split
    · exact h
    · exact h
  · exact h

/-- **The records that handlers are given** lead to the peer that the request came from. -/
theorem Addressed.processMessages (p : RequestProcessor) (messages : List Bytes) :
    p.Addressed (p.processMessages messages).2 := by
  have h := addressed_empty p
  unfold RequestProcessor.processMessages
  split
  · exact h
  · split
    · exact h.populateErrorResponse _ _
    · split
      · exact h.populateErrorResponse _ _
      · split
        · exact h.populateErrorResponse _ _
        · split
          · exact h.populateErrorResponse _ _
          · exact (h.processRequest _).createOutput _

end RequestProcessor

namespace Routing

variable {κ ω ρ : Type}

/-! ## Messages that reach their clients -/

/-- No message can be forwarded to a client. -/
def Idle (s : Routing κ ω ρ) : Prop :=
  ∀ source, ZeroMQ.transferMessage (s.responseSock source) = none

section

variable [DecidableEq ω] [DecidableEq ρ]

/-- Messages from some workers and reactors are forwarded. -/
def transferResponses (peers : Peers κ ω) (s : Routing κ ω ρ) (sources : List (ω ⊕ ρ)) :
    Routing κ ω ρ :=
  sources.foldl (transferResponse peers) s

/-- Every message reaches the client it was sent for, and no other. -/
structure Routed (peers : Peers κ ω) (s : Routing κ ω ρ) : Prop where
  /-- a client has nothing but what was sent for it -/
  only : ∀ c, (s.inbox c).Subperm (s.sent c)
  /-- what waits can be forwarded -/
  ends : ∃ sources, (s.transferResponses peers sources).Idle
  /-- and then a client has all that was sent for it -/
  all : ∀ sources, (s.transferResponses peers sources).Idle →
    ∀ c, ((s.transferResponses peers sources).inbox c).Perm (s.sent c)

end

/-- The condition on a step: `SendSubscriptionEnvelopeResponse` has nothing to send. -/
def Meets (s : Routing κ ω ρ) : Action κ ω ρ → Prop
  | .envelopes _ i _ _ state =>
    i < s.subscriptions.length → state.finalized = true ∨ state.full = true → state.messages = []
  | _ => True

/-! ## Letters -/

/-- Letters as they wait at the server: each message has its client in front. -/
def letterFrames (peers : Peers κ ω) (letters : List (κ × List Bytes)) : List Frame :=
  letters.flatMap fun letter => ZeroMQ.multipart ((peers.client letter.1).val :: letter.2)

/-- A post office as it appears on the sockets. `tail` is what has no end yet. -/
structure Carries (peers : Peers κ ω) (tail : ω ⊕ ρ → List Frame) (s : Routing κ ω ρ)
    (o : PostOffice (ω ⊕ ρ) κ (List Bytes)) : Prop where
  sock : ∀ source, s.responseSock source = letterFrames peers (o.waiting source) ++ tail source
  inbox : s.inbox = o.inbox
  ne_nil : ∀ source, ∀ letter ∈ o.waiting source, letter.2 ≠ []
  unterminated : ∀ source, ∀ f ∈ tail source, f.more = true

section

variable {peers : Peers κ ω} {tail : ω ⊕ ρ → List Frame} {s : Routing κ ω ρ}
  {o : PostOffice (ω ⊕ ρ) κ (List Bytes)}

/-- The peer that is named in front, and only it, gets the parts. -/
theorem xrepSend_multipart (peer peer' : Identity) {parts : List Bytes} (h : parts ≠ []) :
    ZeroMQ.xrepSend peer' (ZeroMQ.multipart (peer.val :: parts)) =
      if peer = peer' then ZeroMQ.multipart parts else [] := by
  rw [ZeroMQ.multipart_cons _ h, ZeroMQ.xrepSend]
  simp only [Subtype.ext_iff]

/-- A transfer from a queue that carries whole messages takes the first of them, and sends it to the
client that is named in front. -/
theorem Carries.transferMessage (h : Carries peers tail s o) (source : ω ⊕ ρ) :
    ZeroMQ.transferMessage (s.responseSock source) =
      match o.waiting source with
      | [] => none
      | letter :: letters =>
        some (ZeroMQ.multipart ((peers.client letter.1).val :: letter.2),
          letterFrames peers letters ++ tail source) := by
  rw [h.sock]
  split
  · rename_i hwaiting
    rw [hwaiting]
    exact ZeroMQ.transferMessage_of_more (h.unterminated source)
  · rename_i letter letters hwaiting
    rw [hwaiting, letterFrames, List.flatMap_cons, List.append_assoc]
    exact ZeroMQ.transferMessage_multipart_append (List.cons_ne_nil _ _) _

theorem Carries.idle_iff (h : Carries peers tail s o) :
    s.Idle ↔ ∀ source, o.waiting source = [] := by
  refine forall_congr' fun source => ?_
  rw [h.transferMessage]
  cases o.waiting source with
  | nil => exact iff_of_true rfl rfl
  | cons letter letters => exact iff_of_false nofun nofun

variable [DecidableEq κ] [DecidableEq ω] [DecidableEq ρ]

/-- **Forwarding delivers a letter.** -/
theorem Carries.transferResponse (h : Carries peers tail s o) (source : ω ⊕ ρ) :
    Carries peers tail (s.transferResponse peers source) (o.deliver source) := by
  have htransfer := h.transferMessage source
  unfold Routing.transferResponse PostOffice.deliver
  cases hwaiting : o.waiting source with
  | nil =>
    rw [hwaiting] at htransfer
    rw [htransfer]
    exact h
  | cons letter letters =>
    rw [hwaiting] at htransfer
    rw [htransfer]
    have hletters := h.ne_nil source
    rw [hwaiting, List.forall_mem_cons] at hletters
    obtain ⟨hletter, hletters⟩ := hletters
    constructor
    · intro source'
      dsimp only
      by_cases hsource : source' = source
      · subst hsource
        rw [Function.update_self, Function.update_self]
      · rw [Function.update_of_ne hsource, Function.update_of_ne hsource]
        exact h.sock source'
    · funext c
      dsimp only
      rw [xrepSend_multipart _ _ hletter, h.inbox]
      by_cases hc : c = letter.1
      · subst hc
        rw [if_pos rfl, Function.update_self, ZeroMQ.map_data_multipart, if_neg]
        rw [List.isEmpty_iff, ← List.length_eq_zero_iff, ZeroMQ.length_multipart,
          List.length_eq_zero_iff]
        exact hletter
      · rw [if_neg fun heq => hc (peers.unique heq).symm, Function.update_of_ne hc]
        rfl
    · exact (Function.forall_update_iff o.waiting fun _ letters =>
        ∀ letter ∈ letters, letter.2 ≠ []).mpr ⟨hletters, fun source' _ => h.ne_nil source'⟩
    · exact h.unterminated

theorem Carries.transferResponses (sources : List (ω ⊕ ρ)) :
    ∀ {s : Routing κ ω ρ} {o : PostOffice (ω ⊕ ρ) κ (List Bytes)}, Carries peers tail s o →
      Carries peers tail (s.transferResponses peers sources)
        (sources.foldl PostOffice.deliver o) := by
  induction sources with
  | nil => exact fun h => h
  | cons source sources ih => exact fun h => ih (h.transferResponse source)

/-- What the clients have in the end, where all that waits is complete or has no end. -/
theorem Carries.perm [Fintype ω] [Fintype ρ] (h : Carries peers tail s o) (ho : o.Balanced)
    {sources : List (ω ⊕ ρ)} (hidle : (s.transferResponses peers sources).Idle) (c : κ) :
    ((s.transferResponses peers sources).inbox c).Perm (o.sent c) := by
  have hsources := h.transferResponses sources
  have hperm := (ho.deliverAll sources).perm (hsources.idle_iff.mp hidle) c
  rwa [PostOffice.sent_deliverAll, ← hsources.inbox] at hperm

end

/-! ## Requests -/

/-- Requests as they wait at the server. -/
def clientFrames (peers : Peers κ ω) (c : κ) (requests : List (List Bytes)) : List Frame :=
  requests.flatMap fun parts => ZeroMQ.multipart ((peers.client c).val :: parts)

/-- A request as it waits at a worker, with the server in front of its client. -/
def requestFrames (peers : Peers κ ω) (worker : ω) (request : κ × List Bytes) :
    List (κ × Frame) :=
  (ZeroMQ.multipart ((peers.server worker).val :: (peers.client request.1).val :: request.2)).map
    (request.1, ·)

def workerFrames (peers : Peers κ ω) (worker : ω) (requests : List (κ × List Bytes)) :
    List (κ × Frame) :=
  requests.flatMap (requestFrames peers worker)

/-- What is behind the end of a piece is pieces again. -/
theorem exists_flatMap_eq_of_last {α β : Type} {P : β → Prop} {pieces : α → List β}
    (hpieces : ∀ a, ∀ b ∈ (pieces a).dropLast, P b) {b : β} (hb : ¬ P b) {rest : List β}
    {as : List α} {front : List β} (h : as.flatMap pieces = front ++ b :: rest) :
    ∃ as' : List α, rest = as'.flatMap pieces := by
  induction as generalizing front with
  | nil =>
    exact absurd h.symm (List.append_ne_nil_of_right_ne_nil _ (List.cons_ne_nil _ _))
  | cons a as ih =>
    rw [List.flatMap_cons] at h
    rcases List.append_eq_append_iff.mp h with ⟨front', -, has⟩ | ⟨last, ha, hlast⟩
    · exact ih has
    · cases last with
      | nil =>
        have hnil : as.flatMap pieces = [] ++ b :: rest := hlast.symm
        exact ih hnil
      | cons b' last =>
        obtain ⟨rfl, hrest⟩ := List.cons.inj hlast
        cases last with
        | nil => exact ⟨as, hrest⟩
        | cons b' last =>
          -- the last of a piece is the only one that is not in `dropLast`
          refine absurd (hpieces a b ?_) hb
          rw [ha, List.dropLast_append_of_ne_nil (List.cons_ne_nil _ _)]
          simp

section

variable {peers : Peers κ ω} {worker : ω}

theorem more_of_mem_dropLast_requestFrames (request : κ × List Bytes) :
    ∀ x ∈ (requestFrames peers worker request).dropLast, x.2.more = true := by
  intro x hx
  rw [requestFrames, ← List.map_dropLast] at hx
  obtain ⟨f, hf, rfl⟩ := List.mem_map.mp hx
  exact ZeroMQ.more_of_mem_dropLast_multipart hf

/-- **What a worker receives** has the addresses of the first request in front, and it
leaves requests on the socket. -/
theorem receiveMessage_workerFrames {requests : List (κ × List Bytes)} {client : κ} {f : Frame}
    {queue : List (κ × Frame)} (hqueue : workerFrames peers worker requests = (client, f) :: queue)
    {container : MessageContainer} {rest : List Frame}
    (h : ZeroMQ.receiveMessage ((workerFrames peers worker requests).map Prod.snd) =
      some (container, rest)) :
    [(peers.server worker).val, (peers.client client).val] <+: container.identities ∧
      ∃ requests', (workerFrames peers worker requests).drop
        ((workerFrames peers worker requests).length - rest.length) =
          workerFrames peers worker requests' := by
  constructor
  · cases requests with
    | nil => exact absurd hqueue.symm (List.cons_ne_nil _ _)
    | cons request requests =>
      have hfirst : workerFrames peers worker (request :: requests) =
          (request.1, ⟨(peers.server worker).val, true⟩) ::
            ((ZeroMQ.multipart ((peers.client request.1).val :: request.2)).map (request.1, ·) ++
              workerFrames peers worker requests) := by
        rw [workerFrames, List.flatMap_cons, requestFrames,
          ZeroMQ.multipart_cons _ (List.cons_ne_nil _ _)]
        rfl
      obtain ⟨rfl, -⟩ := Prod.mk.inj (List.cons.inj (hfirst.symm.trans hqueue)).1
      rw [hfirst, List.map_cons, List.map_append, List.map_map] at h
      cases hparts : request.2 with
      | nil =>
        rw [hparts] at h
        exact ZeroMQ.identities_receiveMessage (peers.server worker).property
          (peers.client request.1).property h
      | cons part parts =>
        rw [hparts, ZeroMQ.multipart_cons _ (List.cons_ne_nil _ _)] at h
        exact ZeroMQ.identities_receiveMessage (peers.server worker).property
          (peers.client request.1).property h
  · obtain ⟨front, f, hframes, hf⟩ := ZeroMQ.receiveFrom_rest _ h
    obtain ⟨front', back, hsplit, -, hback⟩ := List.map_eq_append_iff.mp hframes
    obtain ⟨x, rest', rfl, hx, hrest⟩ := List.map_eq_cons_iff.mp hback
    obtain ⟨requests', hrequests'⟩ := exists_flatMap_eq_of_last
      (P := fun x : κ × Frame => x.2.more = true) more_of_mem_dropLast_requestFrames
      (by rw [hx, hf]; exact Bool.false_ne_true) hsplit
    refine ⟨requests', ?_⟩
    rw [hsplit, ← hrest, List.length_map, List.append_cons, List.length_append,
      Nat.add_sub_cancel, List.drop_left]
    exact hrequests'

/-- **What a worker answers** is a part of the first request or an address in front of it,
whatever it takes along from the requests behind. -/
theorem head?_messages_workerFrames {request : κ × List Bytes} {requests : List (κ × List Bytes)}
    {container : MessageContainer} {rest : List Frame}
    (h : ZeroMQ.receiveMessage ((workerFrames peers worker (request :: requests)).map Prod.snd) =
      some (container, rest)) :
    ∀ m ∈ container.messages.head?,
      m ∈ (peers.server worker).val :: (peers.client request.1).val :: request.2 := by
  have hnext : ∀ f ∈ ((workerFrames peers worker requests).map Prod.snd).head?,
      f.data = (peers.server worker).val := by
    cases requests with
    | nil => exact nofun
    | cons request' requests =>
      intro f hf
      rw [workerFrames, List.flatMap_cons, requestFrames,
        ZeroMQ.multipart_cons _ (List.cons_ne_nil _ _)] at hf
      rw [← Option.some.inj hf]
  have hsnd : ∀ frames : List Frame, frames.map (Prod.snd ∘ (request.1, ·)) = frames :=
    List.map_id
  rw [workerFrames, List.flatMap_cons, List.map_append, requestFrames, List.map_map, hsnd] at h
  intro m hm
  rcases ZeroMQ.head?_messages_receiveFrom hnext (peers.server worker).property
    (List.cons_ne_nil _ _) rfl h m hm with hm | rfl
  · exact hm
  · exact List.mem_cons_self

/-- What a worker sends is nothing, or one message behind the identities it received. -/
theorem pump_frames {p : RequestProcessor} {container : MessageContainer} {frames : List Frame}
    (h : p.pump container = .ok frames) :
    frames = [] ∨ ∃ parts, frames = ZeroMQ.multipart (container.identities ++ [] :: parts) := by
  unfold RequestProcessor.pump at h
  split at h
  · cases h
  · rename_i t _
    obtain rfl := Except.ok.inj h
    by_cases hnil : t.output = []
    · rw [hnil]
      exact .inl rfl
    · exact .inr ⟨_, RequestProcessor.sendResponse_eq _ hnil⟩

/-- The records for a received message lead to its client. -/
theorem socketIdentifiers_subscriptionsOf {p : RequestProcessor} {container : MessageContainer}
    {client : κ}
    (h : [(peers.server worker).val, (peers.client client).val] <+: container.identities)
    {subscription : SubscriptionInfo} (hmem : subscription ∈ subscriptionsOf p container) :
    ∃ identities, subscription.socketIdentifiers = (peers.client client).val :: identities := by
  obtain ⟨call, hcall, hsubscription⟩ := List.mem_filterMap.mp hmem
  obtain ⟨identities, hidentities⟩ := h
  cases call with
  | handleSubscriptionRequest subscription' =>
    obtain rfl := Option.some.inj hsubscription
    refine ⟨identities, ?_⟩
    rw [RequestProcessor.Addressed.processMessages _ _ _ hcall]
    show container.identities.drop 1 = _
    rw [← hidentities]
    rfl
  | handleSubscribeKeepalive => cases hsubscription
  | handleWriteEnvelopes => cases hsubscription

end

/-! ## What is sent -/

section

variable [DecidableEq κ] [DecidableEq ω] [DecidableEq ρ] {peers : Peers κ ω} {s : Routing κ ω ρ}

/-- A message for a client is sent, and waits at the server. -/
def post (peers : Peers κ ω) (s : Routing κ ω ρ) (source : ω ⊕ ρ) (client : κ)
    (parts : List Bytes) : Routing κ ω ρ :=
  { s with
    responseSock := Function.update s.responseSock source (s.responseSock source ++
      ZeroMQ.multipart ((peers.client client).val :: parts))
    sent := Function.update s.sent client (s.sent client ++ [parts]) }

/-- The first address of a response leads to the server, and is gone there. -/
theorem reply_eq_post {worker : ω} {client : κ} {parts : List Bytes} (hparts : parts ≠ []) :
    s.reply peers worker client (ZeroMQ.multipart
        ((peers.server worker).val :: (peers.client client).val :: parts)) =
      s.post peers (.inl worker) client parts := by
  have hsend := xrepSend_multipart (peers.server worker) (peers.server worker)
    (List.cons_ne_nil (peers.client client).val parts)
  rw [if_pos rfl] at hsend
  rw [reply, Routing.post, hsend, ZeroMQ.multipart_cons _ (List.cons_ne_nil _ _),
    ZeroMQ.multipart_cons _ hparts, if_neg (by simp)]
  show Routing.mk _ _ _ _ _ (Function.update _ _ (_ ++ [(ZeroMQ.multipart parts).map _])) = _
  rw [ZeroMQ.map_data_multipart]

theorem stream_eq_post {reactor : ρ} {client : κ} {parts : List Bytes} (hparts : parts ≠ []) :
    s.stream reactor client (ZeroMQ.multipart ((peers.client client).val :: parts)) =
      s.post peers (.inr reactor) client parts := by
  rw [stream, Routing.post, ZeroMQ.multipart_cons _ hparts, if_neg (by simp)]
  show Routing.mk _ _ _ _ _ (Function.update _ _ (_ ++ [(ZeroMQ.multipart parts).map _])) = _
  rw [ZeroMQ.map_data_multipart]

omit [DecidableEq κ] in
theorem sent_transferResponse (s : Routing κ ω ρ) (source : ω ⊕ ρ) :
    (s.transferResponse peers source).sent = s.sent := by
  unfold Routing.transferResponse
  split <;> rfl

end

/-! ## The invariant -/

/-- Every message is a whole one and has its addresses in front, and the letters balance. -/
structure Inv [Fintype ω] [Fintype ρ] [DecidableEq κ] (peers : Peers κ ω) (s : Routing κ ω ρ) :
    Prop where
  clients : ∀ c, ∃ requests, s.clientsSock c = clientFrames peers c requests
  workers : ∀ worker, ∃ requests, s.workerSock worker = workerFrames peers worker requests
  subscriptions : ∀ x ∈ s.subscriptions, ∃ identities,
    x.2.socketIdentifiers = (peers.client x.1).val :: identities
  mail : ∃ o : PostOffice (ω ⊕ ρ) κ (List Bytes),
    o.Balanced ∧ o.sent = s.sent ∧ Carries peers (fun _ => []) s o

section

variable [Fintype ω] [Fintype ρ] [DecidableEq κ] [DecidableEq ω] [DecidableEq ρ]
  {peers : Peers κ ω} {s : Routing κ ω ρ}

omit [DecidableEq ω] [DecidableEq ρ] in
theorem inv_initial : (initial : Routing κ ω ρ).Inv peers where
  clients _ := ⟨[], rfl⟩
  workers _ := ⟨[], rfl⟩
  subscriptions := nofun
  mail := ⟨.empty, PostOffice.balanced_empty, rfl, fun _ => rfl, rfl, nofun, nofun⟩

/-- The invariant says more than is asked: also what waits is as it was sent. -/
theorem Inv.routed (h : s.Inv peers) : s.Routed peers := by
  obtain ⟨o, hbalanced, hsent, hcarries⟩ := h.mail
  constructor
  · intro c
    rw [hcarries.inbox, ← hsent]
    exact hbalanced.subperm c
  · obtain ⟨sources, hsources⟩ := o.exists_drained
    exact ⟨sources, (hcarries.transferResponses sources).idle_iff.mpr hsources⟩
  · intro sources hidle c
    rw [← hsent]
    exact hcarries.perm hbalanced hidle c

/-- A message that goes onto a queue with its last frame marked as such is behind whole messages
again. -/
theorem Inv.post (h : s.Inv peers) (source : ω ⊕ ρ) (client : κ) {parts : List Bytes}
    (hparts : parts ≠ []) : (s.post peers source client parts).Inv peers where
  clients := h.clients
  workers := h.workers
  subscriptions := h.subscriptions
  mail := by
    obtain ⟨o, hbalanced, hsent, hcarries⟩ := h.mail
    refine ⟨o.post source (client, parts), hbalanced.post source (client, parts), ?_, ?_⟩
    · rw [PostOffice.post, hsent]
      rfl
    · constructor
      · intro source'
        rw [PostOffice.post, Routing.post]
        dsimp only
        by_cases hsource : source' = source
        · subst hsource
          rw [Function.update_self, Function.update_self, hcarries.sock, letterFrames,
            letterFrames, List.flatMap_append, List.flatMap_singleton, List.append_nil,
            List.append_nil]
        · rw [Function.update_of_ne hsource, Function.update_of_ne hsource]
          exact hcarries.sock source'
      · exact hcarries.inbox
      · refine (Function.forall_update_iff o.waiting fun _ letters =>
          ∀ letter ∈ letters, letter.2 ≠ []).mpr ⟨?_, fun source' _ => hcarries.ne_nil source'⟩
        exact List.forall_mem_append.mpr
          ⟨hcarries.ne_nil source, List.forall_mem_singleton.mpr hparts⟩
      · exact hcarries.unterminated

/-! ## The steps -/

omit [DecidableEq ω] [DecidableEq ρ] in
/-- A client sends a request of its own, which waits with its identity in front. -/
theorem Inv.send (h : s.Inv peers) (client : κ) (part : Bytes) (parts : List Bytes) :
    (s.send peers client part parts).Inv peers where
  clients := by
    refine (Function.forall_update_iff s.clientsSock fun c frames =>
      ∃ requests, frames = clientFrames peers c requests).mpr ⟨?_, fun c _ => h.clients c⟩
    obtain ⟨requests, hrequests⟩ := h.clients client
    refine ⟨requests ++ [part :: parts], ?_⟩
    rw [hrequests, clientFrames, clientFrames, List.flatMap_append, List.flatMap_singleton,
      ZeroMQ.multipart_cons _ (List.cons_ne_nil _ _)]
    rfl
  workers := h.workers
  subscriptions := h.subscriptions
  mail := by
    obtain ⟨o, hbalanced, hsent, hcarries⟩ := h.mail
    exact ⟨o, hbalanced, hsent, hcarries.sock, hcarries.inbox, hcarries.ne_nil, nofun⟩

omit [DecidableEq ρ] in
/-- The broker takes a request of a client to a worker. -/
theorem Inv.transferRequest (h : s.Inv peers) (client : κ) (worker : ω) :
    (s.transferRequest peers client worker).Inv peers := by
  obtain ⟨requests, hrequests⟩ := h.clients client
  unfold Routing.transferRequest
  cases requests with
  | nil =>
    rw [hrequests]
    exact h
  | cons parts requests =>
    have htransfer : ZeroMQ.transferMessage (s.clientsSock client) =
        some (ZeroMQ.multipart ((peers.client client).val :: parts),
          clientFrames peers client requests) := by
      rw [hrequests, clientFrames, List.flatMap_cons]
      exact ZeroMQ.transferMessage_multipart_append (List.cons_ne_nil _ _) _
    rw [htransfer]
    constructor
    · exact (Function.forall_update_iff s.clientsSock fun c frames =>
        ∃ requests, frames = clientFrames peers c requests).mpr
          ⟨⟨requests, rfl⟩, fun c _ => h.clients c⟩
    · refine (Function.forall_update_iff s.workerSock fun worker frames =>
        ∃ requests, frames = workerFrames peers worker requests).mpr
          ⟨?_, fun worker _ => h.workers worker⟩
      obtain ⟨waiting, hwaiting⟩ := h.workers worker
      refine ⟨waiting ++ [(client, parts)], ?_⟩
      rw [hwaiting, workerFrames, workerFrames, List.flatMap_append, List.flatMap_singleton,
        requestFrames, ZeroMQ.multipart_cons _ (List.cons_ne_nil _ _)]
      rfl
    · exact h.subscriptions
    · obtain ⟨o, hbalanced, hsent, hcarries⟩ := h.mail
      exact ⟨o, hbalanced, hsent, hcarries.sock, hcarries.inbox, hcarries.ne_nil, nofun⟩

/-- The broker takes a message back. It is for the client that it was posted for, as the queues
carry whole messages. -/
theorem Inv.transferResponse (h : s.Inv peers) (source : ω ⊕ ρ) :
    (s.transferResponse peers source).Inv peers := by
  obtain ⟨o, hbalanced, hsent, hcarries⟩ := h.mail
  have hmail : ∃ o : PostOffice (ω ⊕ ρ) κ (List Bytes), o.Balanced ∧
      o.sent = (s.transferResponse peers source).sent ∧
        Carries peers (fun _ => []) (s.transferResponse peers source) o := by
    refine ⟨_, hbalanced.deliver source, ?_, hcarries.transferResponse source⟩
    rw [PostOffice.sent_deliver, sent_transferResponse, hsent]
  unfold Routing.transferResponse at hmail ⊢
  cases htransfer : ZeroMQ.transferMessage (s.responseSock source) with
  | none => exact h
  | some transferred =>
    rw [htransfer] at hmail
    exact ⟨h.clients, h.workers, h.subscriptions, hmail⟩

/-- A worker takes one request and posts one message, if any, to the client it is from. -/
theorem Inv.work (h : s.Inv peers) (worker : ω) (p : RequestProcessor) :
    (s.work peers worker p).Inv peers := by
  unfold Routing.work
  split
  · rename_i client f queue container rest hqueue hreceive
    obtain ⟨requests, hrequests⟩ := h.workers worker
    rw [hrequests] at hqueue hreceive ⊢
    obtain ⟨hidentities, requests', hrest⟩ := receiveMessage_workerFrames hqueue hreceive
    have hreceived : Inv peers { s with
        workerSock := Function.update s.workerSock worker ((workerFrames peers worker requests).drop
          ((workerFrames peers worker requests).length - rest.length))
        subscriptions := s.subscriptions ++ (subscriptionsOf p container).map (client, ·) } := by
      constructor
      · exact h.clients
      · exact (Function.forall_update_iff s.workerSock fun worker frames =>
          ∃ requests, frames = workerFrames peers worker requests).mpr
            ⟨⟨requests', hrest⟩, fun worker _ => h.workers worker⟩
      · refine List.forall_mem_append.mpr ⟨h.subscriptions, ?_⟩
        intro x hx
        obtain ⟨subscription, hmem, rfl⟩ := List.mem_map.mp hx
        exact socketIdentifiers_subscriptionsOf hidentities hmem
      · obtain ⟨o, hbalanced, hsent, hcarries⟩ := h.mail
        exact ⟨o, hbalanced, hsent, hcarries.sock, hcarries.inbox, hcarries.ne_nil, nofun⟩
    dsimp only
    split
    · exact hreceived
    · rename_i frames hpump
      rcases pump_frames hpump with rfl | ⟨parts, rfl⟩
      · exact hreceived
      · obtain ⟨identities, hidentities⟩ := hidentities
        rw [← hidentities]
        have hne : identities ++ [] :: parts ≠ [] :=
          List.append_ne_nil_of_right_ne_nil _ (List.cons_ne_nil _ _)
        show Inv peers (reply peers _ worker client (ZeroMQ.multipart
          ((peers.server worker).val :: (peers.client client).val :: (identities ++ [] :: parts))))
        rw [reply_eq_post hne]
        exact hreceived.post _ _ hne
  · exact h

/-- What is sent for a subscription is one message behind the identities of the record, or
nothing. -/
theorem Inv.streamFor (h : s.Inv peers) (reactor : ρ) (i : Nat) (id : Bytes)
    {frames : SubscriptionInfo → Option (List Frame)}
    (hframes : ∀ subscription : SubscriptionInfo, ∀ fs ∈ frames subscription, fs = [] ∨
      ∃ parts, fs = ZeroMQ.multipart (subscription.socketIdentifiers ++ [] :: parts)) :
    (s.streamFor reactor i id frames).Inv peers := by
  unfold Routing.streamFor
  split
  · exact h
  · rename_i client subscription hsubscription
    split
    · exact h
    · rename_i fs hfs
      rcases hframes _ fs hfs with rfl | ⟨parts, rfl⟩
      · exact h
      · obtain ⟨identities, hidentities⟩ :=
          h.subscriptions _ (List.mem_of_getElem? hsubscription)
        dsimp only at hidentities ⊢
        have hne : identities ++ [] :: parts ≠ [] :=
          List.append_ne_nil_of_right_ne_nil _ (List.cons_ne_nil _ _)
        rw [hidentities, List.cons_append, stream_eq_post hne]
        exact h.post _ _ hne

/-- Both responses for a store change are sent as one message. -/
theorem frames_storeChange {message : Bytes × Bytes × Bytes → Message} {now : UInt64}
    {subscription : SubscriptionInfo} {path : Bytes} {fs : List Frame}
    (h : fs ∈ (RequestProcessor.sendSubscriptionStoreChange message now subscription path).toOption) :
    ∃ parts, fs = ZeroMQ.multipart (subscription.socketIdentifiers ++ [] :: parts) := by
  unfold RequestProcessor.sendSubscriptionStoreChange at h
  dsimp only at h
  split at h
  · cases h
  · obtain rfl := Option.some.inj h
    exact ⟨_, ZeroMQ.sendEnvelopeTo_eq_multipart _ _ _⟩

/-- `SendSubscriptionEnvelopeResponse` sends nothing, unless the state has messages and is
finalized or over a limit. -/
theorem frames_envelopes_eq_nil_iff (now : UInt64) (subscription : SubscriptionInfo)
    (state : EnvelopeSubscriptionResponseState) :
    (RequestProcessor.sendSubscriptionEnvelopeResponse now
        (responseState subscription state)).1 = [] ↔
      (state.finalized = true ∨ state.full = true → state.messages = []) := by
  have hfull : (responseState subscription state).full = state.full := rfl
  have hfinalized : (responseState subscription state).finalized = state.finalized := rfl
  have hmessages : (responseState subscription state).messages = state.messages := rfl
  rw [← hfull, ← hfinalized, ← hmessages]
  unfold RequestProcessor.sendSubscriptionEnvelopeResponse
  split
  · rename_i hready
    rw [Bool.and_eq_true, Bool.not_eq_true', Bool.not_eq_true'] at hready
    exact iff_of_true rfl (by simp [hready.1, hready.2])
  · rename_i hready
    rw [Bool.and_eq_true, Bool.not_eq_true', Bool.not_eq_true', not_and_or,
      Bool.not_eq_false, Bool.not_eq_false] at hready
    split
    · rename_i hlength
      exact iff_of_true rfl fun _ => List.length_eq_zero_iff.mp hlength
    · rename_i hlength
      refine iff_of_false ?_ fun h => hlength (List.length_eq_zero_iff.mpr (h hready))
      simp [ZeroMQ.sendEnvelopeTo]

/-- **The step lemma**: every step that meets the condition keeps the invariant. -/
theorem Inv.step (h : s.Inv peers) {a : Action κ ω ρ} (ha : s.Meets a) :
    (s.step peers a).Inv peers := by
  cases a with
  | send client part parts => exact h.send client part parts
  | transferRequest client worker => exact h.transferRequest client worker
  | work worker p => exact h.work worker p
  | transferResponse source => exact h.transferResponse source
  | pathAdded reactor i id now path =>
    exact h.streamFor reactor i id fun _ _ hfs => .inr (frames_storeChange hfs)
  | pathDeleted reactor i id now path =>
    exact h.streamFor reactor i id fun _ _ hfs => .inr (frames_storeChange hfs)
  | envelopes reactor i id now state =>
    -- a call for no subscription changes nothing
    rw [Routing.step, Routing.streamFor]
    cases hsubscription : s.subscriptions[i]? with
    | none => exact h
    | some x =>
      have hi := (List.getElem?_eq_some_iff.mp hsubscription).1
      have hnil := (frames_envelopes_eq_nil_iff now { x.2 with id := id } state).mpr (ha hi)
      dsimp only
      rw [hnil]
      exact h

omit [Fintype ω] [Fintype ρ] in
/-- Frames without an end are behind everything else on their socket. -/
theorem Carries.stream {o : PostOffice (ω ⊕ ρ) κ (List Bytes)}
    (h : Carries peers (fun _ => []) s o) (reactor : ρ) (client : κ) {fs : List Frame}
    (hne : fs ≠ []) (hfs : ∀ f ∈ fs, f.more = true) :
    Carries peers (Function.update (fun _ => []) (.inr reactor) fs)
      (s.stream reactor client fs) o := by
  rw [Routing.stream, if_neg (by rwa [List.isEmpty_iff])]
  constructor
  · intro source
    dsimp only
    by_cases hsource : source = .inr reactor
    · subst hsource
      rw [Function.update_self, Function.update_self, h.sock, List.append_nil]
    · rw [Function.update_of_ne hsource, Function.update_of_ne hsource]
      exact h.sock source
  · exact h.inbox
  · exact h.ne_nil
  · exact (Function.forall_update_iff (fun _ => []) fun _ (frames : List Frame) =>
      ∀ f ∈ frames, f.more = true).mpr ⟨hfs, fun _ _ _ hf => absurd hf List.not_mem_nil⟩

/-- Such frames are never delivered, though they count as a message. -/
theorem Inv.not_routed (h : s.Inv peers) (reactor : ρ) (client : κ) {fs : List Frame}
    (hne : fs ≠ []) (hfs : ∀ f ∈ fs, f.more = true) :
    ¬ (s.stream reactor client fs).Routed peers := by
  intro hrouted
  obtain ⟨o, hbalanced, hsent, hcarries⟩ := h.mail
  obtain ⟨sources, hidle⟩ := hrouted.ends
  have hall := hrouted.all sources hidle client
  have hcomplete := (hcarries.stream reactor client hne hfs).perm hbalanced hidle client
  have hlength := (hall.symm.trans hcomplete).length_eq
  rw [hsent, Routing.stream, if_neg (by rwa [List.isEmpty_iff])] at hlength
  dsimp only at hlength
  rw [Function.update_self, List.length_append, List.length_singleton] at hlength
  exact absurd hlength (Nat.succ_ne_self _)

/-- A step that does not meet the condition puts a message without an end onto a queue, and the
state behind it is not routed. -/
theorem Inv.meets (h : s.Inv peers) {a : Action κ ω ρ}
    (hrouted : (s.step peers a).Routed peers) : s.Meets a := by
  cases a with
  | envelopes reactor i id now state =>
    intro hi
    have hsubscription := List.getElem?_eq_getElem hi
    rw [Routing.step, Routing.streamFor, hsubscription] at hrouted
    by_contra hdue
    refine h.not_routed reactor (s.subscriptions[i]).1 ?_ ?_ hrouted
    · exact fun hnil => hdue ((frames_envelopes_eq_nil_iff now _ state).mp hnil)
    · exact fun f hf => EnvelopeSubscriptionResponseState.more_of_mem_send hf
  | _ => trivial

/-- **Every message reaches the client it was sent for, and no other**, in every state of a run if
and only if no step of the run is a call of `SendSubscriptionEnvelopeResponse` with messages in a
state that is finalized or over a limit. The other calls of it send nothing. Clients, handlers and
store changes are any. -/
theorem routed_iff (peers : Peers κ ω) (actions : List (Action κ ω ρ)) :
    (∀ k, (run peers (actions.take k)).Routed peers) ↔
      ∀ k a, actions[k]? = some a → (run peers (actions.take k)).Meets a :=
  Machine.forall_run_iff inv_initial Inv.routed (fun h ha => h.step ha)
    fun h hrouted => h.meets hrouted

end

/-- Two clients and one worker. -/
def twoClients : Peers Bool Unit where
  client c := ⟨[if c then 2 else 1], List.cons_ne_nil _ _⟩
  server _ := ⟨[3], List.cons_ne_nil _ _⟩
  unique := by decide

/-- Both clients subscribe. A reactor sends an envelope to one of them and a store change to
the other. -/
def mixedRun : List (Action Bool Unit Unit) :=
  let subscribe := (Envelope.ofMessage 0 (.subscribeStoreChangesV1 [])).toProtocolZmqMessage
  let state := (EnvelopeSubscriptionResponseState.ofSubscription {}).addEnvelope (Envelope.new 0)
  let p := RequestProcessor.deferring []
  [.send false [] [subscribe], .transferRequest false (), .work () p,
    .send true [] [subscribe], .transferRequest true (), .work () p,
    .envelopes () 0 [5] 0 state.finalize, .pathAdded () 1 [6] 0 (str "/b"),
    .transferResponse (.inr ())]

/-- The first client gets both, in one message. -/
theorem not_routed_mixed : ¬ ∀ (actions : List (Action Bool Unit Unit)) k,
    (run twoClients (actions.take k)).Routed twoClients := by
  intro h
  have honly := (h mixedRun 9).only false
  have hmixed : ∃ m ∈ (run twoClients (mixedRun.take 9)).inbox false,
      m ∉ (run twoClients (mixedRun.take 9)).sent false := by
    decide +kernel
  obtain ⟨m, hinbox, hsent⟩ := hmixed
  exact hsent (honly.subset hinbox)

end Routing

end Zippylog
