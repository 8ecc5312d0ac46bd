import Zippylog.Envelope

/-!
# 0MQ messages

`zeromq.cpp`: envelopes as frames, and frames as identities and payload. A socket is what waits on
it, frame by frame, each with the flag that says whether its message goes on.

- `ReceiveMessage` takes frames in front of the first empty one for identities. It takes them one by
  one, so it can leave a message in the middle, or go on into the next one.
- `SendMessage`, `SendEnvelope` and `SendEnvelopes` put frames behind each other.
- A send and a serialisation succeed: where a socket has no peer and the send waits is said by the
  parties that own the sockets.
-/

namespace Zippylog

open Wire

/-- A message part, with `ZMQ_SNDMORE` where it was sent and `ZMQ_RCVMORE` where
it was received. -/
structure Frame where
  data : Bytes
  more : Bool
  deriving DecidableEq

namespace ZeroMQ

/-- The bytes of an envelope on a socket. -/
def encode (e : Envelope) (isProtocol : Bool) : Bytes :=
  if isProtocol then e.toProtocolZmqMessage else e.toZmqMessage

/-- `SendEnvelope(socket, e, is_protocol, flags)`. -/
def sendEnvelope (e : Envelope) (isProtocol sndmore : Bool) : List Frame :=
  [⟨encode e isProtocol, sndmore⟩]

/-- `SendEnvelope(socket, identities, e, is_protocol, flags)`. -/
def sendEnvelopeTo (identities : List Bytes) (e : Envelope) (isProtocol sndmore : Bool) :
    List Frame :=
  identities.map (fun identity => ⟨identity, true⟩) ++ [⟨[], true⟩] ++
    [⟨encode e isProtocol, sndmore⟩]

/-- The overload of `SendEnvelope` for a pointer to a socket: no identities, but the
empty frame behind them. -/
def sendEnvelopePtr (e : Envelope) (isProtocol : Bool) : List Frame :=
  sendEnvelopeTo [] e isProtocol false

/-- One multipart message with the given parts: `ZMQ_SNDMORE` on every frame but
the last. -/
def multipart : List Bytes → List Frame
  | [] => []
  | [part] => [⟨part, false⟩]
  | part :: parts => ⟨part, true⟩ :: multipart parts

@[simp] theorem multipart_cons (part : Bytes) {parts : List Bytes} (h : parts ≠ []) :
    multipart (part :: parts) = ⟨part, true⟩ :: multipart parts := by
  cases parts with
  | nil => exact absurd rfl h
  | cons => rfl

theorem multipart_append (parts : List Bytes) {parts' : List Bytes} (h : parts' ≠ []) :
    multipart (parts ++ parts') = parts.map (⟨·, true⟩) ++ multipart parts' := by
  induction parts with
  | nil => rfl
  | cons part parts ih =>
    rw [List.cons_append, multipart_cons _ (List.append_ne_nil_of_right_ne_nil _ h), ih]
    rfl

@[simp] theorem length_multipart (parts : List Bytes) :
    (multipart parts).length = parts.length := by
  induction parts with
  | nil => rfl
  | cons part parts ih =>
    cases parts with
    | nil => rfl
    | cons => exact congrArg (· + 1) ih

@[simp] theorem map_data_multipart (parts : List Bytes) :
    (multipart parts).map Frame.data = parts := by
  induction parts with
  | nil => rfl
  | cons part parts ih =>
    cases parts with
    | nil => rfl
    | cons => exact congrArg (part :: ·) ih

/-- Only the last frame of a message has no other behind it. -/
theorem more_of_mem_dropLast_multipart {parts : List Bytes} {f : Frame}
    (hf : f ∈ (multipart parts).dropLast) : f.more = true := by
  induction parts with
  | nil => exact absurd hf List.not_mem_nil
  | cons part parts ih =>
    cases parts with
    | nil => exact absurd hf List.not_mem_nil
    | cons part' parts =>
      have hne : multipart (part' :: parts) ≠ [] := by
        rw [← List.length_pos_iff, length_multipart]
        exact Nat.succ_pos _
      rw [multipart_cons _ (List.cons_ne_nil _ _), List.dropLast_cons_of_ne_nil hne] at hf
      rcases List.mem_cons.mp hf with rfl | hf
      · rfl
      · exact ih hf

/-- An envelope behind its addresses is one message. -/
theorem sendEnvelopeTo_eq_multipart (identities : List Bytes) (e : Envelope) (isProtocol : Bool) :
    sendEnvelopeTo identities e isProtocol false =
      multipart (identities ++ [[], encode e isProtocol]) := by
  rw [multipart_append _ (List.cons_ne_nil _ _), sendEnvelopeTo, List.append_assoc]
  rfl

end ZeroMQ

/-- `MessageContainer`. -/
structure MessageContainer where
  identities : List Bytes := []
  messages : List Bytes := []
  deriving DecidableEq

namespace ZeroMQ

/-- The loop of `ReceiveMessage`. An empty frame ends the identities and is not
looked at for `ZMQ_RCVMORE`; `none` is a `recv` that finds no frame. -/
def receiveFrom (inIdentity : Bool) (container : MessageContainer) :
    List Frame → Option (MessageContainer × List Frame)
  | [] => none
  | f :: fs =>
    if f.data = [] then receiveFrom false container fs
    else
      let container := if inIdentity then
          { container with identities := container.identities ++ [f.data] }
        else { container with messages := container.messages ++ [f.data] }
      if f.more then receiveFrom inIdentity container fs else some (container, fs)

/-- `ReceiveMessage`. -/
def receiveMessage (frames : List Frame) : Option (MessageContainer × List Frame) :=
  receiveFrom true {} frames

/-- `TransferMessage`: the frames that are sent, and those that are left. -/
def transferMessage : List Frame → Option (List Frame × List Frame)
  | [] => none
  | f :: fs =>
    if f.more then (transferMessage fs).map fun (sent, rest) => (f :: sent, rest)
    else some ([f], fs)

theorem transferMessage_multipart_append {parts : List Bytes} (h : parts ≠ [])
    (rest : List Frame) :
    transferMessage (multipart parts ++ rest) = some (multipart parts, rest) := by
  induction parts with
  | nil => exact absurd rfl h
  | cons part parts ih =>
    cases parts with
    | nil => rfl
    | cons part' parts =>
      rw [multipart_cons _ (List.cons_ne_nil _ _), List.cons_append, transferMessage,
        ih (List.cons_ne_nil _ _)]
      rfl

/-- A message that is not complete stays on its socket. -/
theorem transferMessage_of_more {frames : List Frame} (h : ∀ f ∈ frames, f.more = true) :
    transferMessage frames = none := by
  induction frames with
  | nil => rfl
  | cons f fs ih =>
    rw [List.forall_mem_cons] at h
    rw [transferMessage, if_pos h.1, ih h.2]
    rfl

/-- What is received ends with the last frame of a message. -/
theorem receiveFrom_rest (frames : List Frame) :
    ∀ {inIdentity : Bool} {container container' : MessageContainer} {rest : List Frame},
      receiveFrom inIdentity container frames = some (container', rest) →
      ∃ front f, frames = front ++ f :: rest ∧ f.more = false := by
  induction frames with
  | nil => exact fun h => absurd h.symm (Option.some_ne_none _)
  | cons f fs ih =>
    intro inIdentity container container' rest h
    have hmore : ∀ {inIdentity : Bool} {container : MessageContainer},
        receiveFrom inIdentity container fs = some (container', rest) →
        ∃ front f', f :: fs = front ++ f' :: rest ∧ f'.more = false := by
      intro _ _ h
      obtain ⟨front, f', hfs, hf'⟩ := ih h
      exact ⟨f :: front, f', congrArg (f :: ·) hfs, hf'⟩
    rw [receiveFrom] at h
    split at h
    · exact hmore h
    · dsimp only at h
      by_cases hlast : f.more = true
      · rw [if_pos hlast] at h
        exact hmore h
      · rw [if_neg hlast] at h
        obtain rfl := congrArg Prod.snd (Option.some.inj h)
        exact ⟨[], f, rfl, Bool.eq_false_of_not_eq_true hlast⟩

/-- What was received stays in front. -/
theorem prefix_receiveFrom (frames : List Frame) :
    ∀ {inIdentity : Bool} {container container' : MessageContainer} {rest : List Frame},
      receiveFrom inIdentity container frames = some (container', rest) →
      container.identities <+: container'.identities ∧
        container.messages <+: container'.messages := by
  induction frames with
  | nil => exact fun h => absurd h.symm (Option.some_ne_none _)
  | cons f fs ih =>
    intro inIdentity container container' rest h
    rw [receiveFrom] at h
    split at h
    · exact ih h
    · have hadded : ∀ {received : MessageContainer}, (if inIdentity then
          { container with identities := container.identities ++ [f.data] }
        else { container with messages := container.messages ++ [f.data] }) = received →
          container.identities <+: received.identities ∧
            container.messages <+: received.messages := by
        rintro received rfl
        split
        · exact ⟨List.prefix_append _ _, List.prefix_rfl⟩
        · exact ⟨List.prefix_rfl, List.prefix_append _ _⟩
      dsimp only at h
      by_cases hmore : f.more = true
      · rw [if_pos hmore] at h
        have hfirst := hadded rfl
        have hothers := ih h
        exact ⟨hfirst.1.trans hothers.1, hfirst.2.trans hothers.2⟩
      · rw [if_neg hmore] at h
        exact hadded (congrArg Prod.fst (Option.some.inj h))

/-- The addresses in front of a message are the first identities, whatever is behind. -/
theorem identities_receiveMessage {a b : Bytes} (ha : a ≠ []) (hb : b ≠ []) {more : Bool}
    {frames rest : List Frame} {container : MessageContainer}
    (h : receiveMessage (⟨a, true⟩ :: ⟨b, more⟩ :: frames) = some (container, rest)) :
    [a, b] <+: container.identities := by
  rw [receiveMessage, receiveFrom] at h
  simp only [if_neg ha, if_true] at h
  rw [receiveFrom] at h
  simp only [if_neg hb, if_true] at h
  split at h
  · exact (prefix_receiveFrom _ h).1
  · obtain rfl := congrArg Prod.fst (Option.some.inj h)
    exact List.prefix_rfl

/-- Behind the delimiter a part is received as it comes. -/
theorem head?_messages_receiveFrom_cons {f : Frame} (hf : f.data ≠ []) {fs rest : List Frame}
    {container container' : MessageContainer} (hcontainer : container.messages = [])
    (h : receiveFrom false container (f :: fs) = some (container', rest)) :
    container'.messages.head? = some f.data := by
  rw [receiveFrom] at h
  simp only [if_neg hf, Bool.false_eq_true, if_false, hcontainer, List.nil_append] at h
  split at h
  · obtain ⟨messages, hmessages⟩ := (prefix_receiveFrom fs h).2
    rw [← hmessages]
    rfl
  · obtain rfl := congrArg Prod.fst (Option.some.inj h)
    rfl

/-- The first part that is received is of the message in front. If that has none behind its
delimiter, it is the first of the message behind it. -/
theorem head?_messages_receiveFrom {next : List Frame} {address : Bytes}
    (hnext : ∀ f ∈ next.head?, f.data = address) (haddress : address ≠ []) {parts : List Bytes} :
    ∀ {inIdentity : Bool} {container container' : MessageContainer} {rest : List Frame},
      parts ≠ [] → container.messages = [] →
      receiveFrom inIdentity container (multipart parts ++ next) = some (container', rest) →
      ∀ m ∈ container'.messages.head?, m ∈ parts ∨ m = address := by
  induction parts with
  | nil => exact fun h => absurd rfl h
  | cons part parts ih =>
    intro inIdentity container container' rest _ hcontainer h m hm
    cases parts with
    | nil =>
      by_cases hpart : part = []
      -- an empty frame at the end: the next message is taken for more of this one
      · subst hpart
        rw [multipart, List.singleton_append, receiveFrom] at h
        simp only [if_true] at h
        cases next with
        | nil => exact absurd h.symm (Option.some_ne_none _)
        | cons f next =>
          have hf := hnext f rfl
          rw [head?_messages_receiveFrom_cons (by rwa [hf]) hcontainer h, hf] at hm
          exact .inr (Option.some.inj hm).symm
      · cases inIdentity with
        | false =>
          rw [multipart, List.singleton_append] at h
          rw [head?_messages_receiveFrom_cons hpart hcontainer h] at hm
          exact .inl (List.mem_singleton.mpr (Option.some.inj hm).symm)
        | true =>
          rw [multipart, List.singleton_append, receiveFrom] at h
          simp only [if_neg hpart, if_true, Bool.false_eq_true, if_false] at h
          obtain rfl := congrArg Prod.fst (Option.some.inj h)
          rw [hcontainer] at hm
          cases hm
    | cons part' parts =>
      rw [multipart_cons _ (List.cons_ne_nil _ _), List.cons_append] at h
      have hothers : ∀ {inIdentity : Bool} {container : MessageContainer},
          container.messages = [] →
          receiveFrom inIdentity container (multipart (part' :: parts) ++ next) =
            some (container', rest) → m ∈ part :: part' :: parts ∨ m = address := by
        intro _ _ hcontainer h
        exact (ih (List.cons_ne_nil _ _) hcontainer h m hm).imp_left (List.mem_cons_of_mem _)
      by_cases hpart : part = []
      · subst hpart
        rw [receiveFrom] at h
        exact hothers hcontainer h
      · cases inIdentity with
        | false =>
          rw [head?_messages_receiveFrom_cons hpart hcontainer h] at hm
          exact .inl (List.mem_cons.mpr (.inl (Option.some.inj hm).symm))
        | true =>
          rw [receiveFrom] at h
          simp only [if_neg hpart, if_true] at h
          refine hothers ?_ h
          exact hcontainer
/-- A message that is received is taken off the socket. -/
theorem length_receiveMessage_lt {frames rest : List Frame} {container : MessageContainer}
    (h : receiveMessage frames = some (container, rest)) : rest.length < frames.length := by
  obtain ⟨front, f, rfl, -⟩ := receiveFrom_rest frames h
  rw [List.length_append, List.length_cons]
  omega

/-- Identity frames are taken up to the delimiter. -/
theorem receiveFrom_identities (rest : List Frame) :
    ∀ {identities : List Bytes} (container : MessageContainer), (∀ i ∈ identities, i ≠ []) →
      receiveFrom true container (identities.map (⟨·, true⟩) ++ rest) =
        receiveFrom true
          { container with identities := container.identities ++ identities } rest := by
  intro identities
  induction identities with
  | nil =>
    intro container _
    rw [List.append_nil]
    rfl
  | cons identity identities ih =>
    intro container h
    obtain ⟨hidentity, hidentities⟩ := List.forall_mem_cons.mp h
    rw [List.map_cons, List.cons_append, receiveFrom]
    simp only [if_neg hidentity, if_true]
    rw [ih _ hidentities, List.append_assoc]
    rfl

/-- The parts behind the delimiter are taken up to the last frame. -/
theorem receiveFrom_multipart :
    ∀ {parts : List Bytes} (container : MessageContainer), parts ≠ [] → (∀ p ∈ parts, p ≠ []) →
      receiveFrom false container (multipart parts) =
        some ({ container with messages := container.messages ++ parts }, []) := by
  intro parts
  induction parts with
  | nil => exact fun _ h => absurd rfl h
  | cons part parts ih =>
    intro container _ h
    obtain ⟨hpart, hparts⟩ := List.forall_mem_cons.mp h
    cases parts with
    | nil =>
      rw [multipart, receiveFrom]
      simp only [if_neg hpart]
      rfl
    | cons part' parts =>
      rw [multipart_cons _ (List.cons_ne_nil _ _), receiveFrom]
      simp only [if_neg hpart, if_true]
      rw [ih _ (List.cons_ne_nil _ _) hparts]
      simp

/-- **A multipart message is received** as it was sent. -/
theorem receiveMessage_multipart {identities parts : List Bytes}
    (hidentities : ∀ i ∈ identities, i ≠ []) (hne : parts ≠ []) (hparts : ∀ p ∈ parts, p ≠ []) :
    receiveMessage (identities.map (⟨·, true⟩) ++ multipart ([] :: parts)) =
      some (⟨identities, parts⟩, []) := by
  rw [receiveMessage, receiveFrom_identities _ _ hidentities, multipart_cons _ hne, receiveFrom]
  simp only [if_true]
  rw [receiveFrom_multipart _ hne hparts]
  rfl

end ZeroMQ

end Zippylog
