import Zippylog.ZeroMQ
import Mathlib.Data.List.TakeWhile

/-!
# Framing

What the two ends of a socket make of each other's frames. A message on a socket is a sequence of
frames, of which all but the last have `ZMQ_SNDMORE`; what this code puts into one is the identities
of peers, an empty frame and the frames of a payload.

- `receiveMessage_received_iff`: `ReceiveMessage` takes the message in front off a queue
  of messages exactly when its empty frame is the only one and has a frame behind it. At an empty
  frame the loop goes on without a look at whether there is more;
- `sendEnvelopes_sentAsOne_iff`: `SendEnvelopes` sends one message exactly when it is
  given one envelope, as each envelope is sent without `ZMQ_SNDMORE`.
-/

namespace Zippylog

open Wire

namespace ZeroMQ

/-! ## Receiving -/

/-- The frames in front of the first empty one. -/
def identityFrames (parts : List Bytes) : List Bytes := parts.takeWhile (· ≠ [])

/-- The frames behind the first empty one. -/
def messageFrames (parts : List Bytes) : List Bytes := (parts.dropWhile (· ≠ [])).tail

/-- No frame behind the first empty one is empty, and the last frame is not empty. -/
def Framed (parts : List Bytes) : Prop :=
  [] ∉ messageFrames parts ∧ parts.getLast? ≠ some []

instance (parts : List Bytes) : Decidable (Framed parts) :=
  inferInstanceAs (Decidable (_ ∧ _))

/-- The message in front of a queue is received, and nothing of the queue. -/
def Received (parts : List Bytes) (queue : List (List Bytes)) : Prop :=
  receiveMessage ((parts :: queue).flatMap multipart) =
    some (⟨identityFrames parts, messageFrames parts⟩, queue.flatMap multipart)

end ZeroMQ

/-- The frames of a message or of its addresses, one `AddIdentity` or `AddMessage` each. -/
def MessageContainer.add (container : MessageContainer) (inIdentity : Bool)
    (parts : List Bytes) : MessageContainer :=
  if inIdentity then { container with identities := container.identities ++ parts }
  else { container with messages := container.messages ++ parts }

theorem MessageContainer.add_add (container : MessageContainer) (inIdentity : Bool)
    (parts parts' : List Bytes) :
    (container.add inIdentity parts).add inIdentity parts' =
      container.add inIdentity (parts ++ parts') := by
  cases inIdentity <;> simp [add]

namespace ZeroMQ

/-- A frame that is not empty is kept. -/
theorem receiveFrom_cons {part : Bytes} (hpart : part ≠ []) (inIdentity more : Bool)
    (container : MessageContainer) (frames : List Frame) :
    receiveFrom inIdentity container (⟨part, more⟩ :: frames) =
      if more then receiveFrom inIdentity (container.add inIdentity [part]) frames
      else some (container.add inIdentity [part], frames) := by
  rw [receiveFrom]
  exact if_neg hpart

/-- The loop takes the frames of one message off the queue when none of them is empty. -/
theorem receiveFrom_multipart_append (inIdentity : Bool) (rest : List Frame)
    {parts : List Bytes} :
    ∀ container : MessageContainer, parts ≠ [] → (∀ part ∈ parts, part ≠ []) →
      receiveFrom inIdentity container (multipart parts ++ rest) =
        some (container.add inIdentity parts, rest) := by
  induction parts with
  | nil => exact fun _ h => absurd rfl h
  | cons part parts ih =>
    intro container _ h
    obtain ⟨hpart, hparts⟩ := List.forall_mem_cons.mp h
    cases parts with
    | nil =>
      rw [multipart, List.singleton_append, receiveFrom_cons hpart]
      rfl
    | cons part' parts =>
      rw [multipart_cons _ (List.cons_ne_nil _ _), List.cons_append, receiveFrom_cons hpart,
        if_pos rfl, ih _ (List.cons_ne_nil _ _) hparts, MessageContainer.add_add]
      rfl

/-- **A message behind its addresses** is taken off the queue. -/
theorem receiveMessage_multipart_append {identities parts : List Bytes}
    (hidentities : ∀ i ∈ identities, i ≠ []) (hne : parts ≠ []) (hparts : ∀ p ∈ parts, p ≠ [])
    (rest : List Frame) :
    receiveMessage (multipart (identities ++ [] :: parts) ++ rest) =
      some (⟨identities, parts⟩, rest) := by
  rw [multipart_append _ (List.cons_ne_nil _ _), List.append_assoc, receiveMessage,
    receiveFrom_identities _ _ hidentities, multipart_cons _ hne, List.cons_append, receiveFrom,
    if_pos rfl, receiveFrom_multipart_append _ _ _ hne hparts]
  rfl

/-- An empty frame is not received. -/
theorem ne_nil_of_mem_messages {frames : List Frame} :
    ∀ {inIdentity : Bool} {container container' : MessageContainer} {rest : List Frame},
      [] ∉ container.messages →
      receiveFrom inIdentity container frames = some (container', rest) →
      [] ∉ container'.messages := by
  induction frames with
  | nil => exact fun _ h => absurd h.symm (Option.some_ne_none _)
  | cons f fs ih =>
    intro inIdentity container container' rest hcontainer h
    by_cases hf : f.data = []
    · rw [receiveFrom, if_pos hf] at h
      exact ih hcontainer h
    · have hadded : [] ∉ (container.add inIdentity [f.data]).messages := by
        cases inIdentity with
        | false => simpa [MessageContainer.add, eq_comm] using ⟨hcontainer, hf⟩
        | true => exact hcontainer
      rw [receiveFrom_cons hf] at h
      by_cases hmore : f.more = true
      · rw [if_pos hmore] at h
        exact ih hadded h
      · rw [if_neg hmore] at h
        obtain rfl := congrArg Prod.fst (Option.some.inj h)
        exact hadded

/-- Frames at none of which the loop ends leave it to take one of the next message. -/
theorem length_rest_lt {front : List Frame} (hfront : ∀ f ∈ front, f.more = true ∨ f.data = []) :
    ∀ {inIdentity : Bool} {container container' : MessageContainer} {next rest : List Frame},
      receiveFrom inIdentity container (front ++ next) = some (container', rest) →
      rest.length < next.length := by
  induction front with
  | nil =>
    intro inIdentity container container' next rest h
    obtain ⟨front, f, hnext, -⟩ := receiveFrom_rest next h
    rw [hnext, List.length_append, List.length_cons]
    omega
  | cons f fs ih =>
    intro inIdentity container container' next rest h
    obtain ⟨hf, hfs⟩ := List.forall_mem_cons.mp hfront
    rw [List.cons_append] at h
    by_cases hempty : f.data = []
    · rw [receiveFrom, if_pos hempty] at h
      exact ih hfs h
    · rw [receiveFrom_cons hempty, if_pos (hf.resolve_right hempty)] at h
      exact ih hfs h

/-- The loop does not end at a message whose last frame is empty. -/
theorem more_or_empty_of_getLast? {parts : List Bytes} (h : parts.getLast? = some []) :
    ∀ f ∈ multipart parts, f.more = true ∨ f.data = [] := by
  induction parts with
  | nil => exact fun _ hf => absurd hf List.not_mem_nil
  | cons part parts ih =>
    cases parts with
    | nil =>
      intro f hf
      obtain rfl := List.mem_singleton.mp hf
      exact .inr (Option.some.inj h)
    | cons part' parts =>
      rw [multipart_cons _ (List.cons_ne_nil _ _), List.forall_mem_cons]
      rw [List.getLast?_cons_cons] at h
      exact ⟨.inl rfl, ih h⟩

/-- A message without an empty frame, or what is on the two sides of its first one. -/
theorem split_parts (parts : List Bytes) :
    (parts = identityFrames parts ∧ messageFrames parts = []) ∨
      parts = identityFrames parts ++ [] :: messageFrames parts := by
  have hsplit := List.takeWhile_append_dropWhile (p := fun part : Bytes => part ≠ []) (l := parts)
  rw [identityFrames, messageFrames]
  cases hdrop : parts.dropWhile (· ≠ []) with
  | nil =>
    rw [hdrop, List.append_nil] at hsplit
    exact .inl ⟨hsplit.symm, rfl⟩
  | cons part behind =>
    have hpart : part = [] := by
      have := List.head?_dropWhile_not (fun part : Bytes => part ≠ []) parts
      rw [hdrop] at this
      simpa using this
    rw [hdrop, hpart] at hsplit
    exact .inr hsplit.symm

theorem ne_nil_of_mem_identityFrames (parts : List Bytes) :
    ∀ i ∈ identityFrames parts, i ≠ [] :=
  fun i hi => of_decide_eq_true
    (List.mem_takeWhile_imp (p := fun part : Bytes => part ≠ []) (x := i) hi)

/-- **`ReceiveMessage`** consumes and returns the message in front of the queue, identities and
payload apart, exactly when the message is framed: none of its frames behind the first empty one is
empty, and its last frame is not. What waits behind it in the queue is any list of messages. -/
theorem receiveMessage_received_iff {parts : List Bytes} (h : parts ≠ [])
    (queue : List (List Bytes)) : Received parts queue ↔ Framed parts := by
  rw [Received, List.flatMap_cons]
  constructor
  · intro hreceived
    refine ⟨ne_nil_of_mem_messages List.not_mem_nil hreceived, fun hlast => ?_⟩
    -- the loop runs past the message, and takes a frame of the queue
    exact lt_irrefl _ (length_rest_lt (more_or_empty_of_getLast? hlast) hreceived)
  · rintro ⟨hinner, hlast⟩
    rcases split_parts parts with ⟨hall, hnone⟩ | hsplit
    · have hparts := ne_nil_of_mem_identityFrames parts
      rw [← hall] at hparts
      rw [hnone, ← hall, receiveMessage, receiveFrom_multipart_append _ _ _ h hparts]
      rfl
    · have hne : messageFrames parts ≠ [] := by
        intro hnil
        rw [hsplit, hnil, List.getLast?_append] at hlast
        exact hlast rfl
      conv_lhs => rw [hsplit]
      exact receiveMessage_multipart_append (ne_nil_of_mem_identityFrames parts) hne
        (fun p hp hnil => hinner (hnil ▸ hp)) _

theorem receiveMessage_received_request :
    Received [[7], [], [1, 2], [3]] [[[8], [], [4]], [[]]] :=
  (receiveMessage_received_iff (List.cons_ne_nil _ _) _).mpr (by decide)

/-- Behind a message that ends with an empty frame, the next is taken for its rest. -/
theorem not_received_of_trailing_empty : ¬ Received [[7], []] [[[8], [4]]] := by
  rw [Received]
  decide

/-! ## Sending -/

/-- The loop over the identities of `SendEnvelopes`, and whether it gets to their end: a
send of no bytes returns `0`. -/
def sendIdentities : List Bytes → Bool × List Frame
  | [] => (true, [])
  | identity :: identities =>
    if identity.length = 0 then (false, [⟨identity, true⟩])
    else
      let (sent, frames) := sendIdentities identities
      (sent, ⟨identity, true⟩ :: frames)

/-- `SendEnvelopes`: the result, and the frames. Every envelope has the flags of the call. -/
def sendEnvelopes (identities : List Bytes) (envelopes : List Envelope)
    (isProtocol sndmore : Bool) : Int × List Frame :=
  match sendIdentities identities with
  | (false, frames) => (0, frames)
  | (true, frames) =>
    (1, frames ++ [⟨[], true⟩] ++ envelopes.map fun e => ⟨encode e isProtocol, sndmore⟩)

/-- Where the envelope starts in its frame. -/
def envelopeOffset (isProtocol : Bool) : Nat := if isProtocol then 1 else 0

/-- The frames are one message, and at the other end, whatever is queued behind it, it is
received with the identities and a frame for each envelope that decodes to it. -/
def SentAsOne (identities : List Bytes) (envelopes : List Envelope) (isProtocol : Bool) : Prop :=
  ∃ parts, (sendEnvelopes identities envelopes isProtocol false).2 = multipart parts ∧
    ∀ rest, ∃ messages,
      receiveMessage ((sendEnvelopes identities envelopes isProtocol false).2 ++ rest) =
        some (⟨identities, messages⟩, rest) ∧
      List.Forall₂ (fun frame e => Envelope.ofZmqMessage frame (envelopeOffset isProtocol) = .ok e)
        messages envelopes

theorem sendIdentities_eq {identities : List Bytes} (h : ∀ i ∈ identities, i ≠ []) :
    sendIdentities identities = (true, identities.map (⟨·, true⟩)) := by
  induction identities with
  | nil => rfl
  | cons identity identities ih =>
    obtain ⟨hidentity, hidentities⟩ := List.forall_mem_cons.mp h
    rw [sendIdentities, if_neg (mt List.length_eq_zero_iff.mp hidentity), ih hidentities]
    rfl

theorem sendEnvelopes_eq {identities : List Bytes} (h : ∀ i ∈ identities, i ≠ [])
    (envelopes : List Envelope) (isProtocol : Bool) :
    (sendEnvelopes identities envelopes isProtocol false).2 =
      (identities ++ [[]]).map (⟨·, true⟩) ++
        envelopes.map fun e => ⟨encode e isProtocol, false⟩ := by
  rw [sendEnvelopes, sendIdentities_eq h, List.map_append]
  rfl

/-- For one envelope the two functions agree. -/
theorem sendEnvelopes_singleton {identities : List Bytes} (h : ∀ i ∈ identities, i ≠ [])
    (e : Envelope) (isProtocol : Bool) :
    (sendEnvelopes identities [e] isProtocol false).2 =
      multipart (identities ++ [[], encode e isProtocol]) := by
  rw [← sendEnvelopeTo_eq_multipart, sendEnvelopes_eq h, List.map_append]
  rfl

theorem encode_true (e : Envelope) : encode e true = e.toProtocolZmqMessage := by
  rw [encode, if_pos rfl]

theorem encode_false (e : Envelope) : encode e false = e.serialize := by
  rw [encode, if_neg Bool.false_ne_true, Envelope.toZmqMessage]

/-- The frame of an envelope decodes to it. -/
theorem ofZmqMessage_encode {e : Envelope} (h : e.serialize ≠ []) (isProtocol : Bool) :
    Envelope.ofZmqMessage (encode e isProtocol) (envelopeOffset isProtocol) = .ok e := by
  cases isProtocol with
  | true =>
    rw [encode_true]
    exact Envelope.ofZmqMessage_toProtocolZmqMessage h
  | false =>
    have hlength := Envelope.two_le_length_serialize h
    rw [encode_false, envelopeOffset, Envelope.ofZmqMessage, if_neg (by omega),
      if_neg (by simp; omega)]
    exact Envelope.initializeFromBuffer_serialize e

theorem encode_ne_nil {e : Envelope} (h : e.serialize ≠ []) (isProtocol : Bool) :
    encode e isProtocol ≠ [] := by
  cases isProtocol with
  | true =>
    rw [encode_true]
    exact List.cons_ne_nil _ _
  | false =>
    rw [encode_false]
    exact h

/-- An envelope that serialises to nothing is not received: as a protocol message no
constructor takes its frame, and otherwise the frame is empty. -/
theorem not_received_of_serialize_eq_nil {identities : List Bytes} (h : ∀ i ∈ identities, i ≠ [])
    {e : Envelope} (he : e.serialize = []) (isProtocol : Bool) {messages : List Bytes}
    (hreceived : receiveMessage (multipart (identities ++ [[], encode e isProtocol])) =
      some (⟨identities, messages⟩, [])) :
    ¬ List.Forall₂
      (fun frame e => Envelope.ofZmqMessage frame (envelopeOffset isProtocol) = .ok e)
      messages [e] := by
  cases isProtocol with
  | true =>
    rw [encode_true] at hreceived
    have hframe := receiveMessage_multipart_append h (List.cons_ne_nil e.toProtocolZmqMessage [])
      (List.forall_mem_singleton.mpr (List.cons_ne_nil _ _)) []
    rw [List.append_nil, hreceived] at hframe
    obtain rfl : messages = [e.toProtocolZmqMessage] :=
      congrArg (fun r : MessageContainer × List Frame => r.1.messages) (Option.some.inj hframe)
    rintro (_ | ⟨hok, -⟩)
    rw [envelopeOffset, if_pos rfl, Envelope.ofZmqMessage_of_serialize_eq_nil he] at hok
    cases hok
  | false =>
    have hlast : (identities ++ [[], encode e false]).getLast? = some [] := by
      rw [List.getLast?_append, encode_false, he]
      rfl
    rw [← List.append_nil (multipart _)] at hreceived
    exact absurd (length_rest_lt (more_or_empty_of_getLast? hlast) hreceived) (lt_irrefl _)

/-- Only the last of the envelopes can end the message. -/
theorem length_le_one_of_eq_multipart {front : List Frame} {envelopes : List Envelope}
    {isProtocol : Bool} {parts : List Bytes}
    (h : front ++ envelopes.map (fun e => ⟨encode e isProtocol, false⟩) = multipart parts) :
    envelopes.length ≤ 1 := by
  match envelopes with
  | [] => exact Nat.zero_le _
  | [_] => exact Nat.le_refl _
  | e :: e' :: es =>
    have hmem : ⟨encode e isProtocol, false⟩ ∈ (multipart parts).dropLast := by
      rw [← h, List.map_cons, List.dropLast_append_of_ne_nil (List.cons_ne_nil _ _),
        List.map_cons, List.dropLast_cons_of_ne_nil (List.cons_ne_nil _ _)]
      exact List.mem_append_right _ List.mem_cons_self
    exact absurd (more_of_mem_dropLast_multipart hmem) Bool.false_ne_true

/-- **`SendEnvelopes`** sends one message, which `ReceiveMessage` takes apart as it was meant,
exactly when there is one envelope and it does not serialise to nothing. The identities are not
empty, as 0MQ has them, and what waits behind the message is any list of messages. -/
theorem sendEnvelopes_sentAsOne_iff {identities : List Bytes} (h : ∀ i ∈ identities, i ≠ [])
    (envelopes : List Envelope) (isProtocol : Bool) :
    SentAsOne identities envelopes isProtocol ↔
      ∃ e, envelopes = [e] ∧ e.serialize ≠ [] := by
  constructor
  · rintro ⟨parts, hparts, hreceived⟩
    obtain ⟨messages, hmessages, hdecode⟩ := hreceived []
    have hlength : envelopes.length ≤ 1 := by
      rw [sendEnvelopes_eq h] at hparts
      exact length_le_one_of_eq_multipart hparts
    match envelopes, hlength with
    | [], _ =>
      -- without an envelope the last frame has another behind it
      rw [sendEnvelopes_eq h, List.map_nil, List.append_nil] at hmessages
      exact absurd (length_rest_lt (fun f hf => .inl (by
        obtain ⟨_, -, rfl⟩ := List.mem_map.mp hf
        rfl)) hmessages) (lt_irrefl _)
    | [e], _ =>
      rw [List.append_nil, sendEnvelopes_singleton h] at hmessages
      exact ⟨e, rfl, fun hnil =>
        not_received_of_serialize_eq_nil h hnil isProtocol hmessages hdecode⟩
  · rintro ⟨e, rfl, he⟩
    refine ⟨_, sendEnvelopes_singleton h e isProtocol, fun rest => ⟨[encode e isProtocol], ?_, ?_⟩⟩
    · rw [sendEnvelopes_singleton h]
      exact receiveMessage_multipart_append h (List.cons_ne_nil _ _)
        (List.forall_mem_singleton.mpr (encode_ne_nil he isProtocol)) rest
    · exact .cons (ofZmqMessage_encode he isProtocol) .nil

theorem sendEnvelopes_sentAsOne_request :
    SentAsOne [[7]] [Envelope.new 1] true :=
  (sendEnvelopes_sentAsOne_iff (by decide) _ _).mpr ⟨Envelope.new 1, rfl, by decide +kernel⟩

/-- Of two envelopes the first ends the message. -/
theorem not_sentAsOne_of_two : ¬ SentAsOne [[7]] [Envelope.new 1, Envelope.new 2] true := by
  rintro ⟨parts, hparts, -⟩
  rw [sendEnvelopes_eq (by decide)] at hparts
  exact absurd (length_le_one_of_eq_multipart hparts) (by decide)

end ZeroMQ

end Zippylog
