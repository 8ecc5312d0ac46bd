import Zippylog.Protocol.Messages

/-!
# Envelopes

`message::Envelope`, the record every stream and every protocol message is made
of, and the `Envelope` class around it (`envelope.cpp`).

The class caches the messages it has decoded; the cache is not observable
through the functions here and is left out. A constructor that throws is an
`Except`.

- `Envelope.parse_serialize`: an envelope survives serialisation;
- `Envelope.parseTorn_take_isSome`: an envelope cut short by the end of its file
  still parses exactly when the cut falls between two of its fields, or between
  two fields of an actor inside it.
-/

namespace Zippylog

open Wire

/-! ## Failures -/

/-- C++ exceptions thrown by the modelled code. -/
inductive Exn where
  /-- `std::invalid_argument` -/
  | invalidArgument (what : String)
  /-- `DeserializeException` -/
  | deserialize
  /-- `zippylog::Exception` -/
  | generic (what : String)
  deriving DecidableEq

/-- The ways a call can fail to return: an exception, a failed `assert`, an access
outside an array or through `NULL`, or a callee that never returns. Only the first
can be caught. -/
inductive Fault where
  | exception (e : Exn)
  | assertion
  | undefinedBehavior
  | noReturn
  deriving DecidableEq

namespace Envelope

/-! ## The `Envelope` class -/

/-- `Envelope()`: created at time `now`. -/
def new (now : UInt64) : Envelope := { createTime := some now }

/-- `InitializeFromBuffer`. -/
def initializeFromBuffer (data : Bytes) : Except Exn Envelope :=
  match parse data with
  | some e => .ok e
  | none => .error .deserialize

/-- `Envelope(message_t &, offset)`. -/
def ofZmqMessage (msg : Bytes) (offset : Nat) : Except Exn Envelope :=
  if msg.length = 0 then .error (.invalidArgument "0MQ message is empty")
  else if msg.length ≤ offset + 1 then
    .error (.invalidArgument "specified offset is larger than message")
  else initializeFromBuffer (msg.drop offset)

/-- `Envelope(const void *, int)`; the data pointer is never `NULL`. -/
def ofBuffer (data : Bytes) : Except Exn Envelope :=
  if data.length = 0 then .error (.invalidArgument "0 size data buffer")
  else initializeFromBuffer data

/-- `AddMessage`, with the namespace and enumeration of the message's type. -/
def addMessage (e : Envelope) (m : Message) : Envelope :=
  { e with
    message := e.message ++ [m.serialize]
    messageNamespace := e.messageNamespace ++ [Zippylog.messageNamespace]
    messageType := e.messageType ++ [m.type.enumeration] }

def addTag (e : Envelope) (s : Bytes) : Envelope := { e with tag := e.tag ++ [s] }

/-- `GetMessage`: `none` is `NULL`. -/
def getMessage (e : Envelope) (index : Nat) : Option Message := do
  let buffer ← e.message[index]?
  let ns ← e.messageNamespace[index]?
  let enumeration ← e.messageType[index]?
  let t ← MessageRegistrar.getMessage ns enumeration
  Message.parse t buffer

def messageCount (e : Envelope) : Nat := e.message.length

def tagSize (e : Envelope) : Nat := e.tag.length

/-- `ToProtocolZmqMessage`: the format version, then the envelope. -/
def toProtocolZmqMessage (e : Envelope) : Bytes := 1 :: e.serialize

/-- `ToZmqMessage`. -/
def toZmqMessage (e : Envelope) : Bytes := e.serialize

/-- A new envelope holding one message. -/
def ofMessage (now : UInt64) (m : Message) : Envelope := (new now).addMessage m

/-- Add the tags of a request, one `AddTag` each. -/
def addTags (e : Envelope) (tags : List Bytes) : Envelope := tags.foldl addTag e

/-! ## Round trip -/

theorem ofFields_toFields (e : Envelope) : ofFields e.toFields = some e := by
  have h1 : known 1 0 = true := rfl
  have h2 : known 2 2 = true := rfl
  have h30 : known 3 0 = true := rfl
  have h32 : known 3 2 = true := rfl
  have h40 : known 4 0 = true := rfl
  have h42 : known 4 2 = true := rfl
  have h5 : known 5 0 = true := rfl
  have h6 : known 6 2 = true := rfl
  have h7 : known 7 2 = true := rfl
  have h8 : known 8 0 = true := rfl
  have h9 : known 9 2 = true := rfl
  simp [ofFields, toFields, optUInt32, optUInt64, optBytes, uint32Field, uint64Field, bytesField,
    mapM_map_some ActorInfo.parse_serialize, h1, h2, h30, h32, h40, h42, h5, h6, h7, h8, h9]

/-- Parsing inverts serialising. -/
@[simp] theorem parse_serialize (e : Envelope) : parse e.serialize = some e := by
  rw [parse, serialize, decodeFields_zero_encodeFields, Option.bind_some, ofFields_toFields]

/-- An envelope of which every byte can be read. -/
@[simp] theorem parseSized_length (bs : Bytes) : parseSized bs.length bs = parse bs :=
  if_neg (Nat.lt_irrefl _)

theorem parseSized_of_lt {size : Nat} {bs : Bytes} (h : bs.length < size) :
    parseSized size bs = parseTorn bs :=
  if_pos h

/-! ## Truncation -/

/-- The fields an envelope can be made of: packed lists that do not end inside an
element, and actors that parse. -/
structure Accepts (f : Field) : Prop where
  messageNamespace : (f.uint32s? 3).isSome
  messageType : (f.uint32s? 4).isSome
  actor : ∀ bs, f.bytes? 7 = some bs → (ActorInfo.parse bs).isSome

theorem mapM_isSome {α β : Type} {g : α → Option β} {as : List α} :
    (as.mapM g).isSome ↔ ∀ a ∈ as, (g a).isSome := by
  induction as with
  | nil => simp
  | cons a as ih =>
    rw [List.mapM_cons, List.forall_mem_cons, ← ih]
    cases g a <;> cases as.mapM g <;> simp

/-- Whether fields make an envelope is decided field by field. -/
theorem ofFields_isSome {fs : List Field} : (ofFields fs).isSome ↔ ∀ f ∈ fs, Accepts f := by
  have hparts : (ofFields fs).isSome ↔ (uint32s 3 fs).isSome ∧ (uint32s 4 fs).isSome ∧
      ((byteStrings 7 fs).mapM ActorInfo.parse).isSome := by
    unfold ofFields
    cases uint32s 3 fs <;> cases uint32s 4 fs <;>
      cases (byteStrings 7 fs).mapM ActorInfo.parse <;> simp
  rw [hparts, uint32s_isSome, uint32s_isSome, mapM_isSome]
  constructor
  · rintro ⟨h3, h4, h7⟩ f hf
    exact ⟨h3 f hf, h4 f hf, fun bs hbs => h7 bs (List.mem_filterMap.mpr ⟨f, hf, hbs⟩)⟩
  · intro h
    refine ⟨fun f hf => (h f hf).messageNamespace, fun f hf => (h f hf).messageType, ?_⟩
    intro bs hbs
    obtain ⟨f, hf, hbytes⟩ := List.mem_filterMap.mp hbs
    exact (h f hf).actor bs hbytes

/-- `k` falls into an actor, behind its length, and what is there of it parses. -/
def EndsInActor (uss : List Bytes) (k : Nat) : Prop :=
  ∃ j us m, Inside uss k j us m ∧
    (((readCut [7] (us.take m)).bind (Field.bytes? 7)).bind ActorInfo.parse).isSome

/-- `k` falls between two fields of the envelope, or between two fields of an actor
in it. -/
def BetweenFields (uss : List Bytes) (k : Nat) : Prop := Boundary uss k ∨ EndsInActor uss k

/-- A cut inside a field that is no actor. -/
theorem not_betweenFields {uss : List Bytes} {k j m : Nat} {f : Field}
    (h : Inside uss k j f.encode m) (hnum : f.num ≠ 7) : ¬ BetweenFields uss k := by
  rintro (hb | ⟨i, us, n, hin, hsome⟩)
  · exact h.not_boundary hb
  · obtain ⟨rfl, rfl⟩ := h.unique hin
    cases hcut : readCut [7] (f.encode.take m) with
    | none =>
      rw [hcut] at hsome
      cases hsome
    | some g => exact hnum (List.mem_singleton.mp (num_of_readCut_take hcut))

/-- A field cut short under the number 7 is the front of an actor. -/
theorem bytes?_of_readCut {bs : Bytes} {f : Field} (h : readCut [7] bs = some f) :
    f.num = 7 ∧ ∃ rest, f.bytes? 7 = some rest := by
  obtain ⟨hnum, rest, hvalue⟩ := readCut_eq_some h
  have hseven : f.num = 7 := List.mem_singleton.mp hnum
  refine ⟨hseven, rest, ?_⟩
  rw [Field.bytes?, if_pos hseven, hvalue]

/-- **Truncation**: an encoded envelope that the end of the file cuts after `k` bytes
still parses exactly when `k` falls between two of its fields, or between two fields
of an actor. -/
theorem parseTorn_take_isSome {uss : List Bytes} {fs : List Field} {e : Envelope}
    (hi : Items (readField 0) uss fs) (he : parse uss.flatten = some e) {k : Nat}
    (hk : k ≤ uss.flatten.length) :
    (parseTorn (uss.flatten.take k)).isSome ↔ BetweenFields uss k := by
  have hfs : ∀ f ∈ fs, Accepts f := by
    have hdecode : decodeFields 0 [3, 4, 7] uss.flatten = some fs :=
      hi.parseAll (streaming_readField 0) (progress_readField 0)
    rw [parse, hdecode, Option.bind_some] at he
    exact ofFields_isSome.mp (he ▸ rfl)
  have htake : ∀ j, ∀ f ∈ fs.take j, Accepts f := fun j f hf => hfs f (List.mem_of_mem_take hf)
  -- a cut is between two fields or inside of one
  constructor
  · intro h
    rcases boundary_or_inside hk with hb | ⟨j, us, m, hin⟩
    · exact .inl hb
    refine .inr ⟨j, us, m, hin, ?_⟩
    rw [parseTorn, decodeFields_inside hi hin] at h
    cases hcut : readCut [7] (us.take m) with
    | none =>
      rw [hcut] at h
      cases h
    | some f =>
      rw [hcut] at h
      obtain ⟨-, bs, hbs⟩ := bytes?_of_readCut hcut
      have hacc := ofFields_isSome.mp h f (List.mem_append_right _ List.mem_cons_self)
      rw [Option.bind_some, hbs]
      exact hacc.actor bs hbs
  · rintro (⟨j, rfl⟩ | ⟨j, us, m, hin, hactor⟩)
    · have hcut : uss.flatten.take (uss.take j).flatten.length = (uss.take j).flatten := by
        conv_lhs => rw [← List.take_append_drop j uss, List.flatten_append]
        rw [List.take_append_drop, List.take_left]
      rw [hcut, parseTorn, decodeFields_boundary hi j]
      exact ofFields_isSome.mpr (htake j)
    · rw [parseTorn, decodeFields_inside hi hin]
      cases hcut : readCut [7] (us.take m) with
      | none =>
        rw [hcut] at hactor
        cases hactor
      | some f =>
        rw [hcut, Option.bind_some] at hactor
        refine ofFields_isSome.mpr fun g hg => ?_
        rcases List.mem_append.mp hg with hg | hg
        · exact htake j g hg
        · obtain rfl := List.mem_singleton.mp hg
          obtain ⟨hnum, bs, hbs⟩ := bytes?_of_readCut hcut
          -- a field that was cut is an actor, and has no packed list
          have h3 : g.uint32s? 3 = some [] := if_neg (by rw [hnum]; decide)
          have h4 : g.uint32s? 4 = some [] := if_neg (by rw [hnum]; decide)
          rw [hbs, Option.bind_some] at hactor
          refine ⟨by rw [h3]; rfl, by rw [h4]; rfl, fun bs' hbs' => ?_⟩
          rw [hbs] at hbs'
          cases hbs'
          exact hactor

/-! ## Messages and tags -/

/-- What a first message that decodes says about the lists of the envelope. -/
theorem getMessage_zero_eq_some {e : Envelope} {m : Message} (h : e.getMessage 0 = some m) :
    ∃ b bs nss types, e.message = b :: bs ∧
      e.messageNamespace = Zippylog.messageNamespace :: nss ∧
      e.messageType = m.type.enumeration :: types ∧ Message.parse m.type b = some m := by
  simp only [getMessage, Option.bind_eq_bind, Option.bind_eq_some_iff] at h
  obtain ⟨b, hb, ns, hns, enumeration, htype, t, ht, hm⟩ := h
  obtain ⟨rfl, rfl⟩ := MessageRegistrar.eq_of_getMessage ht
  obtain rfl := Message.parse_type hm
  rw [← List.head?_eq_getElem?, List.head?_eq_some_iff] at hb hns htype
  obtain ⟨bs, hbs⟩ := hb
  obtain ⟨nss, hnss⟩ := hns
  obtain ⟨types, htypes⟩ := htype
  exact ⟨b, bs, nss, types, hbs, hnss, htypes, hm⟩

@[simp] theorem getMessage_ofMessage (now : UInt64) (m : Message) :
    (ofMessage now m).getMessage 0 = some m := by
  simp [getMessage, ofMessage, addMessage, new]

@[simp] theorem addTags_nil (e : Envelope) : e.addTags [] = e := rfl

theorem addTags_eq (e : Envelope) (tags : List Bytes) :
    e.addTags tags = { e with tag := e.tag ++ tags } := by
  induction tags generalizing e with
  | nil => simp [addTags]
  | cons t ts ih =>
    show (e.addTag t).addTags ts = _
    rw [ih]
    simp [addTag]

@[simp] theorem tag_addTags (e : Envelope) (tags : List Bytes) :
    (e.addTags tags).tag = e.tag ++ tags := by
  rw [addTags_eq]

@[simp] theorem getMessage_addTags (e : Envelope) (tags : List Bytes) (i : Nat) :
    (e.addTags tags).getMessage i = e.getMessage i := by
  rw [addTags_eq]
  rfl

@[simp] theorem message_addTags (e : Envelope) (tags : List Bytes) :
    (e.addTags tags).message = e.message := by
  rw [addTags_eq]

@[simp] theorem messageNamespace_addTags (e : Envelope) (tags : List Bytes) :
    (e.addTags tags).messageNamespace = e.messageNamespace := by
  rw [addTags_eq]

@[simp] theorem messageType_addTags (e : Envelope) (tags : List Bytes) :
    (e.addTags tags).messageType = e.messageType := by
  rw [addTags_eq]

/-- An envelope with a creation time does not serialise to nothing. -/
theorem serialize_ne_nil {e : Envelope} (h : e.message ≠ []) : e.serialize ≠ [] := by
  intro hnil
  have h1 := parse_serialize e
  rw [hnil] at h1
  have h2 : parse [] = some {} := rfl
  rw [h2] at h1
  rw [← Option.some.inj h1] at h
  exact h rfl

theorem initializeFromBuffer_serialize (e : Envelope) :
    initializeFromBuffer e.serialize = .ok e := by
  rw [initializeFromBuffer, parse_serialize]

theorem two_le_length_serialize {e : Envelope} (h : e.serialize ≠ []) :
    2 ≤ e.serialize.length := by
  refine two_le_length_encodeFields fun hnil => h ?_
  rw [serialize, hnil]
  rfl

/-- A protocol message frame decodes to the envelope it was made from. -/
theorem ofZmqMessage_toProtocolZmqMessage {e : Envelope} (h : e.serialize ≠ []) :
    ofZmqMessage e.toProtocolZmqMessage 1 = .ok e := by
  have h2 := two_le_length_serialize h
  have hlen : e.toProtocolZmqMessage.length = e.serialize.length + 1 := List.length_cons
  have hdrop : e.toProtocolZmqMessage.drop 1 = e.serialize := by
    rw [toProtocolZmqMessage, List.drop_succ_cons, List.drop_zero]
  rw [ofZmqMessage, if_neg (by omega), if_neg (by omega), hdrop]
  exact initializeFromBuffer_serialize e

/-- The constructor refuses the frame of an envelope that serialises to nothing. -/
theorem ofZmqMessage_of_serialize_eq_nil {e : Envelope} (h : e.serialize = []) :
    ofZmqMessage e.toProtocolZmqMessage 1 =
      .error (.invalidArgument "specified offset is larger than message") := by
  rw [toProtocolZmqMessage, h]
  rfl

end Envelope

end Zippylog
