import Mathlib.Algebra.Order.BigOperators.Group.List
import Zippylog.ClientProof
import Zippylog.EnvelopeReencoding
import Zippylog.ResponseState

/-!
# Envelope subscription responses: what is sent, and what the client reads

Envelopes for a subscriber are collected in a response state and sent in batches: each batch is to
be one message, a `SubscriptionStartV1` in front and the envelopes behind it. A run adds envelopes
one by one and sends after each (`respond`).

- `respond_batched`: every envelope is sent once and in order, the limits are exceeded by at most
  one envelope and a flush leaves nothing behind, with the frames of a flush as they are.
- `respond_batched_iff`: but a flush is not a complete message, as its last frame announces another.
- `Client.envelopes_received_iff`: and what is in the frames is not what the client reads. An
  envelope is put in with the version byte of the protocol in front, and the client takes this byte
  for a part of the envelope. It throws, or gives its callback another envelope.
-/

namespace Zippylog

open Wire

namespace EnvelopeSubscriptionResponseState

/-- The sizes of messages, added. -/
def totalSize (messages : List Bytes) : Nat := (messages.map List.length).sum

/-- The parts of the message that carries a batch. -/
def parts (state : EnvelopeSubscriptionResponseState) (now : UInt64) (batch : List Envelope) :
    List Bytes :=
  state.identities ++
    [] :: (state.subscriptionStart now).toProtocolZmqMessage ::
      batch.map Envelope.toProtocolZmqMessage

/-- A call of `SendSubscriptionEnvelopeResponse` sends a batch: its parts become
frames by `framing`. Without envelopes nothing is sent. -/
def Sends (framing : List Bytes → List Frame) (state : EnvelopeSubscriptionResponseState)
    (batch : List Envelope) (sent : Sent) : Prop :=
  (batch = [] ∧ sent.frames = []) ∨
    (batch ≠ [] ∧ ∃ now, sent.frames = framing (state.parts now batch))

/-- Envelopes are sent in batches from `state` on. -/
structure Batched (framing : List Bytes → List Frame) (state : EnvelopeSubscriptionResponseState)
    (es : List Envelope) (sents : List Sent) : Prop where
  /-- every envelope once and in order -/
  delivered : ∃ batches : List (List Envelope), batches.flatten = es ∧
    List.Forall₂ (Sends framing state) batches sents
  /-- without its last message a state is within the limits -/
  bounded : ∀ sent ∈ sents,
    totalSize sent.before.messages.dropLast ≤ maxSize.toNat ∧
      sent.before.messages.dropLast.length ≤ maxEnvelopes.toNat
  /-- a flush leaves nothing behind -/
  emptied : ∀ sent ∈ sents, sent.frames ≠ [] →
    sent.after.messages = [] ∧ sent.after.currentSize = 0

/-- `ZMQ_SNDMORE` on every frame. -/
def unterminated (parts : List Bytes) : List Frame := parts.map (⟨·, true⟩)

/-! ## One call -/

theorem totalSize_concat (msgs : List Bytes) (msg : Bytes) :
    totalSize (msgs ++ [msg]) = totalSize msgs + msg.length := by
  unfold totalSize
  rw [List.map_append, List.sum_append, List.map_singleton, List.sum_singleton]

/-- The loop does not reach the end with a message in hand. -/
theorem sendMessages_eq {stop : Nat} (msgs : List Bytes) :
    ∀ {i : Nat}, i + msgs.length ≤ stop →
      RequestProcessor.sendMessages stop i msgs = unterminated msgs := by
  induction msgs with
  | nil => exact fun _ => rfl
  | cons msg msgs ih =>
    intro i h
    rw [List.length_cons] at h
    -- the loop compares before it steps on, and the end has no message
    have hi : (i != stop) = true := bne_iff_ne.mpr (by omega)
    rw [RequestProcessor.sendMessages, ih (by omega), hi]
    rfl

/-- No frame is the last of its message. -/
theorem more_of_mem_send {state : EnvelopeSubscriptionResponseState} {now : UInt64} {f : Frame}
    (hf : f ∈ (send now state).frames) : f.more = true := by
  rw [send, RequestProcessor.sendSubscriptionEnvelopeResponse] at hf
  split at hf
  · cases hf
  · split at hf
    · cases hf
    · rw [sendMessages_eq _ (by omega)] at hf
      simp only [ZeroMQ.sendEnvelopeTo, unterminated, List.mem_append, List.mem_map,
        List.mem_singleton] at hf
      rcases hf with ((⟨identity, -, rfl⟩ | rfl) | rfl) | ⟨msg, -, rfl⟩ <;> rfl

/-- A state of the response to `origin` that carries `pending`. -/
structure Carries (origin : EnvelopeSubscriptionResponseState) (pending : List Envelope)
    (state : EnvelopeSubscriptionResponseState) : Prop where
  id : state.id = origin.id
  identities : state.identities = origin.identities
  messages : state.messages = pending.map Envelope.toProtocolZmqMessage

/-- What is left of a state that was flushed. -/
def flushed (state : EnvelopeSubscriptionResponseState) : EnvelopeSubscriptionResponseState :=
  { state with messages := [], currentSize := 0 }

section Carries

variable {origin state : EnvelopeSubscriptionResponseState} {pending : List Envelope}

theorem Carries.addEnvelope (h : Carries origin pending state) (e : Envelope) :
    Carries origin (pending ++ [e]) (state.addEnvelope e) where
  id := (id_addEnvelope state e).trans h.id
  identities := (identities_addEnvelope state e).trans h.identities
  messages := by
    rw [messages_addEnvelope, List.map_append, h.messages]
    rfl

theorem Carries.flushed (h : Carries origin pending state) : Carries origin [] state.flushed :=
  ⟨h.id, h.identities, rfl⟩

/-- **A call** keeps the state when it is neither finalized nor full, or has no
messages. Else it sends them all, and every frame announces another. -/
theorem Carries.send_cases (h : Carries origin pending state) (now : UInt64) :
    (send now state = ⟨state, [], state⟩ ∧
      ((state.finalized = false ∧ state.full = false) ∨ pending = [])) ∨
    (send now state = ⟨state, unterminated (origin.parts now pending), state.flushed⟩ ∧
      pending ≠ []) := by
  have hlength : state.messages.length = pending.length := by
    rw [h.messages, List.length_map]
  unfold send RequestProcessor.sendSubscriptionEnvelopeResponse
  split
  -- too early for a flush
  · rename_i hready
    rw [Bool.and_eq_true, Bool.not_eq_true', Bool.not_eq_true'] at hready
    exact .inl ⟨rfl, .inl hready⟩
  · split
    -- nothing to send
    · rename_i hnil
      exact .inl ⟨rfl, .inr (List.length_eq_zero_iff.mp (hlength.symm.trans hnil))⟩
    · rename_i hne
      refine .inr ⟨?_, fun hnil => hne (hlength.trans (congrArg List.length hnil))⟩
      have hframes : ZeroMQ.sendEnvelopeTo state.identities (state.subscriptionStart now) true true ++
          unterminated state.messages = unterminated (origin.parts now pending) := by
        rw [h.messages, h.identities, subscriptionStart, h.id]
        simp [unterminated, parts, ZeroMQ.sendEnvelopeTo, ZeroMQ.encode, subscriptionStart]
      rw [sendMessages_eq _ (by omega), hframes]
      rfl

/-- A batch without envelopes is no call at all, any other is a flush. -/
theorem Carries.sends (h : Carries origin pending state) (now : UInt64) :
    ∃ batch pending', batch ++ pending' = pending ∧
      Sends unterminated origin batch (send now state) ∧
      Carries origin pending' (send now state).after := by
  rcases h.send_cases now with ⟨hsend, -⟩ | ⟨hsend, hne⟩
  · rw [hsend]
    exact ⟨[], pending, rfl, .inl ⟨rfl, rfl⟩, h⟩
  · rw [hsend]
    exact ⟨pending, [], List.append_nil _, .inr ⟨hne, now, rfl⟩, h.flushed⟩

end Carries

/-! ## A run -/

/-- An envelope has a size of at most `INT_MAX`. -/
def Sized (e : Envelope) : Prop := e.serialize.length < 2 ^ 31

/-- What the state of a response is between two calls. -/
structure Holds (origin : EnvelopeSubscriptionResponseState) (pending : List Envelope)
    (state : EnvelopeSubscriptionResponseState) : Prop
    extends Carries origin pending state where
  size : state.currentSize.toNat = totalSize state.messages
  full : state.full = false
  finalized : state.finalized = false

theorem holds_ofSubscription (subscription : SubscriptionInfo) :
    Holds (ofSubscription subscription) [] (ofSubscription subscription) :=
  ⟨⟨rfl, rfl, rfl⟩, rfl, rfl, rfl⟩

theorem Carries.holds_flushed {origin state : EnvelopeSubscriptionResponseState}
    {pending : List Envelope} (h : Carries origin pending state)
    (hfinalized : state.finalized = false) : Holds origin [] state.flushed :=
  ⟨h.flushed, rfl, rfl, hfinalized⟩

section Run

variable {origin state : EnvelopeSubscriptionResponseState} {pending : List Envelope}

/-- What is held is within the limits. -/
theorem Holds.within (h : Holds origin pending state) :
    totalSize state.messages ≤ maxSize.toNat ∧ state.messages.length ≤ maxEnvelopes.toNat := by
  have hfull := h.full
  rw [EnvelopeSubscriptionResponseState.full, Bool.or_eq_false_iff, decide_eq_false_iff_not,
    decide_eq_false_iff_not] at hfull
  obtain ⟨hsize, hcount⟩ := hfull
  rw [gt_iff_lt, UInt32.lt_iff_toNat_lt, h.size] at hsize
  exact ⟨Nat.le_of_not_lt hsize, Nat.le_of_not_lt hcount⟩

/-- The sizes are added without wrapping around. -/
theorem Holds.size_addEnvelope (h : Holds origin pending state) {e : Envelope} (he : Sized e) :
    (state.addEnvelope e).currentSize.toNat = totalSize (state.addEnvelope e).messages := by
  have hmax : maxSize.toNat = 1048576 := rfl
  have hlength : e.toProtocolZmqMessage.length = e.serialize.length + 1 := List.length_cons
  have hle := h.within.1
  have hsize := h.size
  unfold Sized at he
  -- at most a mebibyte is held, and less than two gibibytes come to it
  rw [addEnvelope, totalSize_concat, UInt32.toNat_add, UInt32.toNat_ofNat', hsize]
  omega

/-- **One envelope**: it is kept with those that are held, or all are sent. -/
theorem Holds.send_addEnvelope (h : Holds origin pending state) {e : Envelope} (he : Sized e)
    (now : UInt64) :
    ∃ batch pending', batch ++ pending' = pending ++ [e] ∧
      Sends unterminated origin batch (send now (state.addEnvelope e)) ∧
      Holds origin pending' (send now (state.addEnvelope e)).after := by
  have hcarries := h.toCarries.addEnvelope e
  have hfinalized := (finalized_addEnvelope state e).trans h.finalized
  have hne : pending ++ [e] ≠ [] := List.append_ne_nil_of_right_ne_nil _ (List.cons_ne_nil _ _)
  rcases hcarries.send_cases now with ⟨hsend, hkept⟩ | ⟨hsend, -⟩
  · rw [hsend]
    refine ⟨[], pending ++ [e], rfl, .inl ⟨rfl, rfl⟩, ?_⟩
    rcases hkept with ⟨-, hfull⟩ | hnil
    · exact ⟨hcarries, h.size_addEnvelope he, hfull, hfinalized⟩
    · exact absurd hnil hne
  · rw [hsend]
    refine ⟨pending ++ [e], [], List.append_nil _, .inr ⟨hne, now, rfl⟩, ?_⟩
    exact hcarries.holds_flushed hfinalized

/-- **The last call**: all that is held is sent. -/
theorem Holds.send_finalize (h : Holds origin pending state) (now : UInt64) :
    Sends unterminated origin pending (send now state.finalize) := by
  have hcarries : Carries origin pending state.finalize := ⟨h.id, h.identities, h.messages⟩
  rcases hcarries.send_cases now with ⟨hsend, hkept⟩ | ⟨hsend, hne⟩
  · rw [hsend]
    rcases hkept with ⟨hfinalized, -⟩ | rfl
    · exact absurd hfinalized.symm Bool.false_ne_true
    · exact .inl ⟨rfl, rfl⟩
  · rw [hsend]
    exact .inr ⟨hne, now, rfl⟩

/-- A call that sends something leaves nothing behind. -/
theorem send_emptied (now : UInt64) (state : EnvelopeSubscriptionResponseState)
    (hsent : (send now state).frames ≠ []) :
    (send now state).after.messages = [] ∧ (send now state).after.currentSize = 0 := by
  rw [send, RequestProcessor.sendSubscriptionEnvelopeResponse] at hsent ⊢
  split at hsent
  · exact absurd rfl hsent
  · split at hsent
    · exact absurd rfl hsent
    · rename_i hready hlength
      rw [if_neg hready, if_neg hlength]
      exact ⟨rfl, rfl⟩

end Run

/-- A batch that is sent in front of others. -/
theorem Batched.cons {framing : List Bytes → List Frame}
    {origin : EnvelopeSubscriptionResponseState} {es batch : List Envelope} {sents : List Sent}
    (h : Batched framing origin es sents) {sent : Sent} (hsent : Sends framing origin batch sent)
    (hbounded : totalSize sent.before.messages.dropLast ≤ maxSize.toNat ∧
      sent.before.messages.dropLast.length ≤ maxEnvelopes.toNat)
    (hemptied : sent.frames ≠ [] → sent.after.messages = [] ∧ sent.after.currentSize = 0) :
    Batched framing origin (batch ++ es) (sent :: sents) := by
  obtain ⟨batches, rfl, hbatches⟩ := h.delivered
  constructor
  · exact ⟨batch :: batches, rfl, .cons hsent hbatches⟩
  · exact List.forall_mem_cons.mpr ⟨hbounded, h.bounded⟩
  · exact List.forall_mem_cons.mpr ⟨hemptied, h.emptied⟩

/-- **A run**: every envelope is sent once and in order, no limit is exceeded by
more than one envelope, and a flush leaves nothing behind. -/
theorem Holds.batched {origin : EnvelopeSubscriptionResponseState} (now : UInt64)
    (es : List (UInt64 × Envelope)) :
    ∀ {pending : List Envelope} {state : EnvelopeSubscriptionResponseState},
      Holds origin pending state → (∀ e ∈ es, Sized e.2) →
      Batched unterminated origin (pending ++ es.map Prod.snd) (respond now es state) := by
  induction es with
  | nil =>
    intro pending state h _
    have hwithin := h.within
    have hsum : totalSize state.messages.dropLast ≤ totalSize state.messages :=
      ((List.dropLast_sublist _).map _).sum_le_sum fun _ _ => Nat.zero_le _
    have hlength : state.messages.dropLast.length ≤ state.messages.length :=
      (List.dropLast_sublist _).length_le
    have hnil : Batched unterminated origin [] [] := by
      constructor
      · exact ⟨[], rfl, .nil⟩
      · exact List.forall_mem_nil _
      · exact List.forall_mem_nil _
    -- the call behind `Finalize`
    rw [respond]
    refine hnil.cons (h.send_finalize now) ?_ (send_emptied now state.finalize)
    exact ⟨Nat.le_trans hsum hwithin.1, Nat.le_trans hlength hwithin.2⟩
  | cons e es ih =>
    intro pending state h hsized
    obtain ⟨t, e⟩ := e
    obtain ⟨hsizedE, hsizedEs⟩ := List.forall_mem_cons.mp hsized
    obtain ⟨batch, pending', hsplit, hsends, hholds⟩ := h.send_addEnvelope hsizedE t
    have hes : pending ++ ((t, e) :: es).map Prod.snd = batch ++ (pending' ++ es.map Prod.snd) := by
      rw [← List.append_assoc, hsplit, List.append_assoc]
      rfl
    rw [hes, respond]
    refine (ih hholds hsizedEs).cons hsends ?_ (send_emptied t (state.addEnvelope e))
    -- only the message that was just added can exceed a limit
    have hdrop : (state.addEnvelope e).messages.dropLast = state.messages := by
      rw [messages_addEnvelope, List.dropLast_concat]
    show totalSize (state.addEnvelope e).messages.dropLast ≤ _ ∧
      (state.addEnvelope e).messages.dropLast.length ≤ _
    rw [hdrop]
    exact h.within

theorem respond_batched (subscription : SubscriptionInfo) (now : UInt64)
    {es : List (UInt64 × Envelope)} (h : ∀ e ∈ es, Sized e.2) :
    Batched unterminated (ofSubscription subscription) (es.map Prod.snd)
      (respond now es (ofSubscription subscription)) :=
  (holds_ofSubscription subscription).batched now es h

/-! ## Complete messages -/

/-- A message has a last frame. -/
theorem exists_not_more {parts : List Bytes} (h : parts ≠ []) :
    ∃ f ∈ ZeroMQ.multipart parts, f.more = false := by
  induction parts with
  | nil => exact absurd rfl h
  | cons part parts ih =>
    cases parts with
    | nil => exact ⟨⟨part, false⟩, List.mem_singleton_self _, rfl⟩
    | cons part' parts =>
      obtain ⟨f, hf, hmore⟩ := ih (List.cons_ne_nil _ _)
      exact ⟨f, List.mem_cons_of_mem _ hf, hmore⟩

/-- Every frame of a flush has `ZMQ_SNDMORE`, the last one too. -/
theorem more_of_mem_respond (now : UInt64) (es : List (UInt64 × Envelope)) :
    ∀ (state : EnvelopeSubscriptionResponseState),
      ∀ sent ∈ respond now es state, ∀ f ∈ sent.frames, f.more = true := by
  induction es with
  | nil =>
    intro state sent hsent f hf
    rw [List.mem_singleton.mp hsent] at hf
    exact more_of_mem_send hf
  | cons e es ih =>
    intro state sent hsent f hf
    rcases List.mem_cons.mp hsent with rfl | hsent
    · exact more_of_mem_send hf
    · exact ih _ sent hsent f hf

/-- Complete messages that announce another frame to the end carry nothing. -/
theorem flatten_eq_nil_of_more {origin : EnvelopeSubscriptionResponseState}
    {batches : List (List Envelope)} {sents : List Sent}
    (h : List.Forall₂ (Sends ZeroMQ.multipart origin) batches sents)
    (hmore : ∀ sent ∈ sents, ∀ f ∈ sent.frames, f.more = true) : batches.flatten = [] := by
  induction h with
  | nil => rfl
  | @cons batch sent _ _ hsends _ ih =>
    obtain ⟨hsent, hsents⟩ := List.forall_mem_cons.mp hmore
    rcases hsends with ⟨rfl, -⟩ | ⟨-, now, hframes⟩
    · exact ih hsents
    · have hparts : origin.parts now batch ≠ [] :=
        List.append_ne_nil_of_right_ne_nil _ (List.cons_ne_nil _ _)
      obtain ⟨f, hf, hlast⟩ := exists_not_more hparts
      rw [← hframes] at hf
      exact absurd (hlast.symm.trans (hsent f hf)) Bool.false_ne_true

theorem eq_nil_of_batched {origin state : EnvelopeSubscriptionResponseState} {now : UInt64}
    {es : List (UInt64 × Envelope)}
    (h : Batched ZeroMQ.multipart origin (es.map Prod.snd) (respond now es state)) : es = [] := by
  obtain ⟨batches, hflatten, hbatches⟩ := h.delivered
  rw [flatten_eq_nil_of_more hbatches (more_of_mem_respond now es state)] at hflatten
  exact List.map_eq_nil_iff.mp hflatten.symm

/-- Without envelopes nothing is sent. -/
theorem batched_nil (subscription : SubscriptionInfo) (now : UInt64) :
    Batched ZeroMQ.multipart (ofSubscription subscription) []
      (respond now [] (ofSubscription subscription)) := by
  constructor
  · exact ⟨[[]], rfl, .cons (.inl ⟨rfl, rfl⟩) .nil⟩
  · intro sent hsent
    rw [List.mem_singleton.mp hsent]
    exact ⟨Nat.zero_le _, Nat.zero_le _⟩
  · intro sent hsent hframes
    rw [List.mem_singleton.mp hsent] at hframes
    exact absurd rfl hframes

/-- **Complete batches**: no flush is a complete message, whatever the limits and the envelopes, as
also its last frame says that there is more. So the envelopes are sent in complete messages exactly
when there are none to send. How they are cut into batches is right: see `respond_batched`. -/
theorem respond_batched_iff (subscription : SubscriptionInfo) (now : UInt64)
    (es : List (UInt64 × Envelope)) :
    Batched ZeroMQ.multipart (ofSubscription subscription) (es.map Prod.snd)
      (respond now es (ofSubscription subscription)) ↔ es = [] := by
  constructor
  · exact eq_nil_of_batched
  · rintro rfl
    exact batched_nil subscription now

/-- One envelope, in a message that has no end. -/
theorem not_respond_batched_one :
    ¬ Batched ZeroMQ.multipart (ofSubscription { id := [0x73], socketIdentifiers := [[0x63]] })
      ([((0 : UInt64), { version := some 1 })].map Prod.snd)
      (respond 0 [(0, { version := some 1 })]
        (ofSubscription { id := [0x73], socketIdentifiers := [[0x63]] })) :=
  fun h => List.cons_ne_nil _ _ (eq_nil_of_batched h)

/-! ## The client -/

/-- The messages of a flush behind the delimiter, which the client is given. -/
def received (sent : Sent) : List Bytes :=
  (sent.frames.map Frame.data).drop (sent.before.identities.length + 1)

end EnvelopeSubscriptionResponseState

open EnvelopeSubscriptionResponseState

namespace Client

/-- A client that is given what a run sends. What a call throws is dropped. -/
def processSent (c : Client) : List Sent → Client
  | [] => c
  | sent :: sents =>
    if sent.frames = [] then c.processSent sents
    else (c.processResponseMessage (received sent)).2.processSent sents

/-- The calls of the callback of a subscription for its envelopes. -/
def receivedCalls (callback : Nat) (id : Bytes) (sub : Subscription) (es : List Envelope) :
    List Call :=
  es.map fun e => .envelopeReceived callback id e sub.data

/-- A client after some calls. -/
def callAll (c : Client) (calls : List Call) : Client := { c with calls := c.calls ++ calls }

@[simp] theorem callAll_nil (c : Client) : c.callAll [] = c := by
  rw [callAll, List.append_nil]

theorem callAll_append (c : Client) (calls calls' : List Call) :
    c.callAll (calls ++ calls') = (c.callAll calls).callAll calls' := by
  rw [callAll, callAll, callAll, List.append_assoc]

/-- The envelopes that the callback gets for a flush: those that are parsed with their
version byte in front, up to the first that is not. -/
def readWithVersion : List Envelope → List Envelope
  | [] => []
  | e :: es =>
    match Envelope.parse e.toProtocolZmqMessage with
    | none => []
    | some e' => e' :: readWithVersion es

theorem receivedCalls_append (callback : Nat) (id : Bytes) (sub : Subscription)
    (es es' : List Envelope) :
    receivedCalls callback id sub (es ++ es') =
      receivedCalls callback id sub es ++ receivedCalls callback id sub es' :=
  List.map_append

theorem length_readWithVersion_le : ∀ es : List Envelope, (readWithVersion es).length ≤ es.length
  | [] => Nat.le_refl 0
  | e :: es => by
    rw [readWithVersion]
    split
    · exact Nat.zero_le _
    · rw [List.length_cons, List.length_cons]
      exact Nat.succ_le_succ (length_readWithVersion_le es)

/-- Flushes whose envelopes all arrive as they were sent have none: at the first
envelope of the first of them, either nothing is parsed and the client is short of a
call, or what is parsed is another envelope. -/
theorem flatten_eq_nil_of_readWithVersion {batches : List (List Envelope)}
    (hsized : ∀ e ∈ batches.flatten, Sized e)
    (h : (batches.map readWithVersion).flatten = batches.flatten) : batches.flatten = [] := by
  induction batches with
  | nil => rfl
  | cons batch batches ih =>
    cases batch with
    | nil => exact ih hsized h
    | cons e es =>
      exfalso
      rw [List.map_cons, List.flatten_cons, readWithVersion] at h
      cases hparse : Envelope.parse e.toProtocolZmqMessage with
      | none =>
        have hle : ((batches.map readWithVersion).flatten).length ≤ batches.flatten.length := by
          rw [List.length_flatten, List.length_flatten, List.map_map]
          exact List.sum_le_sum fun b _ => length_readWithVersion_le b
        simp only [hparse] at h
        have hcount := congrArg List.length h
        simp only [List.nil_append, List.flatten_cons, List.length_append, List.length_cons]
          at hcount
        omega
      | some e' =>
        simp only [hparse, List.flatten_cons, List.cons_append] at h
        obtain rfl := (List.cons_eq_cons.mp h).1
        exact Envelope.parse_toProtocolZmqMessage_ne (hsized e' List.mem_cons_self) hparse

/-- The loop over the envelopes of a flush makes these calls, whether it throws or not. -/
theorem handleEnvelopes_protocol (callback : Nat) (id : Bytes) (sub : Subscription) :
    ∀ (es : List Envelope) (c : Client),
      (handleEnvelopes callback id sub (es.map Envelope.toProtocolZmqMessage) c).2 =
        c.callAll (receivedCalls callback id sub (readWithVersion es))
  | [], c => (callAll_nil c).symm
  | e :: es, c => by
    have hlength : e.toProtocolZmqMessage.length ≠ 0 := Nat.succ_ne_zero _
    rw [List.map_cons, handleEnvelopes, Envelope.ofBuffer, if_neg hlength,
      Envelope.initializeFromBuffer, readWithVersion]
    cases Envelope.parse e.toProtocolZmqMessage with
    | none => exact (callAll_nil c).symm
    | some e' =>
      have ih := handleEnvelopes_protocol callback id sub es
        (c.call (.envelopeReceived callback id e' sub.data))
      show (handleEnvelopes callback id sub (es.map Envelope.toProtocolZmqMessage)
        (c.call (.envelopeReceived callback id e' sub.data))).2 = _
      rw [ih, receivedCalls, receivedCalls, List.map_cons, ← List.singleton_append,
        callAll_append]
      rfl

/-- A response to an envelope subscription, by what it changes of the client. -/
theorem processResponseMessage_flush {c : Client} {id : Bytes} {sub : Subscription}
    (hsub : c.subscriptions.lookup id = some sub) {callback : Nat}
    (hcallback : sub.cb.envelopeReceived = some callback) (now : UInt64) (es : List Envelope) :
    (c.processResponseMessage
        ((Envelope.ofMessage now (.subscriptionStartV1 id)).toProtocolZmqMessage ::
          es.map Envelope.toProtocolZmqMessage)).2 =
      c.callAll (receivedCalls callback id sub (readWithVersion es)) := by
  have hcount : (Envelope.ofMessage now (.subscriptionStartV1 id)).messageCount - 1 = 0 := rfl
  rw [processResponseMessage_subscriptionStart (Envelope.getMessage_ofMessage _ _) hsub,
    handleSubscriptionResponse, hcount, List.range'_zero, handleStoreChanges]
  simp only [hcallback]
  rw [← handleEnvelopes_protocol callback id sub es c]
  split <;> rename_i hhandle <;> rw [hhandle]

/-- What a client would receive of a flush, if it ended. -/
theorem received_flush {origin state : EnvelopeSubscriptionResponseState} {pending : List Envelope}
    (h : Carries origin pending state) (now : UInt64) (after : EnvelopeSubscriptionResponseState) :
    received ⟨state, unterminated (origin.parts now pending), after⟩ =
      (origin.subscriptionStart now).toProtocolZmqMessage ::
        pending.map Envelope.toProtocolZmqMessage := by
  have hdata : (unterminated (origin.parts now pending)).map Frame.data =
      origin.parts now pending := by
    rw [unterminated, List.map_map]
    exact List.map_id _
  rw [received, hdata, h.identities, parts, ← List.drop_drop, List.drop_left]
  rfl

section Run

variable {origin : EnvelopeSubscriptionResponseState} {sub : Subscription} {callback : Nat}

/-- **Step lemma**: of what a call of the sender sends, the callback gets what is parsed.
The sender keeps the envelopes that it did not send, and none once it is finalized. -/
theorem processSent_send (hcallback : sub.cb.envelopeReceived = some callback) {c : Client}
    (hsub : c.subscriptions.lookup origin.id = some sub) {pending : List Envelope}
    {state : EnvelopeSubscriptionResponseState} (h : Carries origin pending state) (now : UInt64)
    (sents : List Sent) :
    ∃ batch pending', batch ++ pending' = pending ∧
      Carries origin pending' (send now state).after ∧
      (state.finalized = true → pending' = []) ∧
      c.processSent (send now state :: sents) =
        (c.callAll (receivedCalls callback origin.id sub (readWithVersion batch))).processSent
          sents := by
  rcases h.send_cases now with ⟨hsend, hkept⟩ | ⟨hsend, hne⟩
  -- nothing is sent
  · refine ⟨[], pending, rfl, ?_, fun hfinalized => ?_, ?_⟩
    · rw [hsend]
      exact h
    · rcases hkept with ⟨hnot, -⟩ | hnil
      · exact absurd (hfinalized.symm.trans hnot).symm Bool.false_ne_true
      · exact hnil
    · rw [hsend, processSent, if_pos rfl, readWithVersion, receivedCalls, List.map_nil,
        callAll_nil]
  -- a flush sends all that is held
  · refine ⟨pending, [], List.append_nil _, ?_, fun _ => rfl, ?_⟩
    · rw [hsend]
      exact h.flushed
    · obtain ⟨e, pending, rfl⟩ := List.exists_cons_of_ne_nil hne
      rw [hsend, processSent, received_flush h, subscriptionStart,
        processResponseMessage_flush hsub hcallback]
      refine if_neg fun hnil => ?_
      have hdelimiter : ([] : Bytes) ∈ origin.parts now (e :: pending) := by simp [parts]
      rw [List.map_eq_nil_iff.mp hnil] at hdelimiter
      exact List.not_mem_nil hdelimiter

/-- **Run lemma**: the response is cut into flushes, and for each of them the callback
gets what is parsed of it. Nothing else of the client changes. -/
theorem processSent_respond (hcallback : sub.cb.envelopeReceived = some callback) (now : UInt64)
    (es : List (UInt64 × Envelope)) :
    ∀ {c : Client} {pending : List Envelope} {state : EnvelopeSubscriptionResponseState},
      c.subscriptions.lookup origin.id = some sub → Carries origin pending state →
      ∃ batches : List (List Envelope), batches.flatten = pending ++ es.map Prod.snd ∧
        c.processSent (respond now es state) =
          c.callAll
            (receivedCalls callback origin.id sub (batches.map readWithVersion).flatten) := by
  induction es with
  | nil =>
    intro c pending state hsub h
    have hcarries : Carries origin pending state.finalize := ⟨h.id, h.identities, h.messages⟩
    obtain ⟨batch, pending', rfl, -, hnil, hclient⟩ :=
      processSent_send hcallback hsub hcarries now []
    refine ⟨[batch], ?_, ?_⟩
    · rw [hnil rfl, List.flatten_singleton, List.append_nil, List.map_nil, List.append_nil]
    · rw [respond, hclient, processSent, List.map_singleton, List.flatten_singleton]
  | cons e es ih =>
    intro c pending state hsub h
    obtain ⟨batch, pending', hpending, hcarries, -, hclient⟩ :=
      processSent_send hcallback hsub (h.addEnvelope e.2) e.1
        (respond now es (send e.1 (state.addEnvelope e.2)).after)
    obtain ⟨batches, hflatten, hrest⟩ := ih
      (show (c.callAll (receivedCalls callback origin.id sub
        (readWithVersion batch))).subscriptions.lookup origin.id = some sub from hsub) hcarries
    refine ⟨batch :: batches, ?_, ?_⟩
    · rw [List.flatten_cons, hflatten, ← List.append_assoc, hpending, List.append_assoc]
      rfl
    · rw [respond, hclient, hrest, List.map_cons, List.flatten_cons, receivedCalls_append,
        callAll_append]

end Run

/-- **The envelopes of a subscription** reach the callback, each once, in order and as they were
added, exactly when there are none. This is for every way to cut them into batches, and for
envelopes of a size that the library can write; one of them is enough to throw, or to be received as
another one. -/
theorem envelopes_received_iff {c : Client} {subscription : SubscriptionInfo} {sub : Subscription}
    (hsub : c.subscriptions.lookup subscription.id = some sub) {callback : Nat}
    (hcallback : sub.cb.envelopeReceived = some callback) (now : UInt64)
    (es : List (UInt64 × Envelope)) (hsized : ∀ e ∈ es, Sized e.2) :
    (c.processSent (respond now es (ofSubscription subscription))).calls =
        c.calls ++ receivedCalls callback subscription.id sub (es.map Prod.snd) ↔
      es = [] := by
  have hcarries := (holds_ofSubscription subscription).toCarries
  obtain ⟨batches, hflatten, hclient⟩ := processSent_respond hcallback now es hsub hcarries
  rw [List.nil_append] at hflatten
  rw [hclient]
  constructor
  · intro h
    have hcalls := List.append_cancel_left h
    have hinjective : Function.Injective fun e =>
        Call.envelopeReceived callback subscription.id e sub.data := by
      intro e e' he
      cases he
      rfl
    have heq := List.map_injective_iff.mpr hinjective hcalls
    rw [← hflatten] at heq
    have hnil := flatten_eq_nil_of_readWithVersion (fun e he => ?_) heq
    · rw [hflatten] at hnil
      exact List.map_eq_nil_iff.mp hnil
    · rw [hflatten] at he
      obtain ⟨te, hte, rfl⟩ := List.mem_map.mp he
      exact hsized te hte
  · rintro rfl
    rw [List.map_nil] at hflatten
    have hempty : (batches.map readWithVersion).flatten = [] := by
      refine List.flatten_eq_nil_iff.mpr fun es hes => ?_
      obtain ⟨batch, hbatch, rfl⟩ := List.mem_map.mp hes
      rw [List.flatten_eq_nil_iff.mp hflatten batch hbatch]
      rfl
    rw [hempty]
    rfl

/-- An envelope subscription of a client. -/
def subscribed : Subscription where
  id := [0x73]
  expirationTimer := 55000000
  cb := { envelopeReceived := some 1 }
  data := none

def subscribedClient : Client where
  subscriptions := AList.singleton [0x73] subscribed

theorem envelopes_received_iff_subscribed :
    (subscribedClient.processSent
        (respond 0 [(0, { version := some 1 })] (ofSubscription { id := [0x73] }))).calls =
        [] ++ receivedCalls 1 [0x73] subscribed ([((0 : UInt64), { version := some 1 })].map Prod.snd) ↔
      [((0 : UInt64), ({ version := some 1 } : Envelope))] = [] :=
  envelopes_received_iff rfl rfl 0 _ fun e he => by
    obtain rfl := List.mem_singleton.mp he
    unfold Sized
    decide

/-- One envelope, and no call: its version byte is the tag of eight bytes, and two
follow. -/
theorem not_envelopes_received_one :
    (subscribedClient.processSent
        (respond 0 [(0, { version := some 1 })] (ofSubscription { id := [0x73] }))).calls ≠
      receivedCalls 1 [0x73] subscribed [{ version := some 1 }] := by
  have hcarries := (holds_ofSubscription { id := [0x73] }).toCarries
  have hsub : subscribedClient.subscriptions.lookup [0x73] = some subscribed := rfl
  obtain ⟨batches, hflatten, hclient⟩ :=
    processSent_respond rfl 0 [(0, { version := some 1 })] hsub hcarries
  have hparse : Envelope.parse (Envelope.toProtocolZmqMessage { version := some 1 }) = none := by
    decide
  have hnil : (batches.map readWithVersion).flatten = [] := by
    refine List.flatten_eq_nil_iff.mpr fun es hes => ?_
    obtain ⟨batch, hbatch, rfl⟩ := List.mem_map.mp hes
    cases batch with
    | nil => rfl
    | cons e batch =>
      have he : e ∈ batches.flatten := List.mem_flatten.mpr ⟨_, hbatch, List.mem_cons_self⟩
      rw [hflatten, List.nil_append] at he
      obtain rfl := List.mem_singleton.mp he
      rw [readWithVersion, hparse]
  rw [hclient, hnil]
  exact fun h => List.cons_ne_nil _ _ h.symm

end Client

end Zippylog
