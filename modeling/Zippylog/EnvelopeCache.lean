import Zippylog.Envelope

/-!
# The message cache of envelopes

`GetMessage` keeps the messages it has decoded in an array, which the other functions of
`envelope.cpp` shift, fill up and drop. The array is made when it is needed for the first time, and
is as long as the list of messages then.

- A slot of the array is the content of the message it points to. Messages are
  deleted with the whole array only.
- The registrar is any, and so are the messages.
- An index is an `int`: `index + 1` overflows for the largest.
- A read out of the range of a list or of the array is undefined, and so is what follows: a call
  ends in a fault there.
-/

namespace Zippylog

open Wire

/-- The registered types of messages, each with the `ParseFromString` of a new
message. -/
abbrev Registrar (M : Type) := UInt32 → UInt32 → Option (Bytes → Option M)

namespace Envelope

/-- The message at an index as its namespace and enumeration have it decoded. -/
def decodeMessage {M : Type} (registrar : Registrar M) (e : Envelope) (i : Nat) : Option M := do
  let buffer ← e.message[i]?
  let ns ← e.messageNamespace[i]?
  let enumeration ← e.messageType[i]?
  let parse ← registrar ns enumeration
  parse buffer

/-- The lists of messages, namespaces and types have equal lengths. -/
structure Balanced (e : Envelope) : Prop where
  messageNamespace : e.messageNamespace.length = e.message.length
  messageType : e.messageType.length = e.message.length

end Envelope

/-- The registrar of the protocol. -/
def MessageRegistrar.registrar : Registrar Message := fun ns enumeration =>
  (MessageRegistrar.getMessage ns enumeration).map Message.parse

theorem Envelope.decodeMessage_registrar (e : Envelope) (i : Nat) :
    e.decodeMessage MessageRegistrar.registrar i = e.getMessage i := by
  simp only [decodeMessage, getMessage, MessageRegistrar.registrar, Option.bind_eq_bind,
    Option.bind_map]
  rfl

/-- An envelope with its cache. The array is `NULL` when it has no slots, and
`messages_size` is its length. -/
structure CachedEnvelope (M : Type) where
  envelope : Envelope
  messages : List (Option M) := []

namespace CachedEnvelope

variable {M : Type}

/-! ## Messages -/

/-- The array, allocated or made as long as the list of messages. -/
def resize (c : CachedEnvelope M) : CachedEnvelope M :=
  let count := c.envelope.message.length
  if c.messages.isEmpty then { c with messages := List.replicate count none }
  else if c.messages.length < count then
    { c with messages := c.messages ++ List.replicate (count - c.messages.length) none }
  else c

/-- `GetMessage` of an index that is not negative. -/
def getMessageAt (registrar : Registrar M) (c : CachedEnvelope M) (i : Nat) :
    Except Fault (Option M) × CachedEnvelope M :=
  if c.envelope.message.length < i + 1 then (.ok none, c)
  else if c.envelope.messageNamespace.length < i + 1 then (.ok none, c)
  else if c.envelope.messageType.length < i + 1 then (.ok none, c)
  else
    let c := c.resize
    match c.messages[i]? with
    | none => (.error .undefinedBehavior, c)
    | some (some m) => (.ok (some m), c)
    | some none =>
      match c.envelope.decodeMessage registrar i with
      | none => (.ok none, c)
      | some m => (.ok (some m), { c with messages := c.messages.set i (some m) })

/-- What the functions do with an index first: it must not be negative, and one is
added to it. -/
def checkIndex (index : Int32) : Except Fault Nat :=
  if index < 0 then .error (.exception (.invalidArgument "index must be non-negative"))
  else if index = Int32.maxValue then .error .undefinedBehavior
  else .ok index.toNatClampNeg

/-- `GetMessage`. -/
def getMessage (registrar : Registrar M) (c : CachedEnvelope M) (index : Int32) :
    Except Fault (Option M) × CachedEnvelope M :=
  match checkIndex index with
  | .error f => (.error f, c)
  | .ok i => c.getMessageAt registrar i

/-- `AddMessage`. Without a buffer the message does not serialise. -/
def addMessage (c : CachedEnvelope M) (buffer : Option Bytes) (ns enumeration : UInt32) :
    Bool × CachedEnvelope M :=
  match buffer with
  | none => (false, c)
  | some buffer => (true, { c with
      envelope := { c.envelope with
        message := c.envelope.message ++ [buffer]
        messageNamespace := c.envelope.messageNamespace ++ [ns]
        messageType := c.envelope.messageType ++ [enumeration] } })

/-- `CopyMessage`: the destination, which can be the envelope itself. -/
def copyMessage (c : CachedEnvelope M) (index : Int32) (dest : CachedEnvelope M) :
    Except Fault Bool × CachedEnvelope M :=
  match checkIndex index with
  | .error f => (.error f, dest)
  | .ok i =>
    match c.envelope.message[i]? with
    | none => (.ok false, dest)
    | some buffer =>
      match c.envelope.messageNamespace[i]?, c.envelope.messageType[i]? with
      | some ns, some enumeration => (.ok true, (dest.addMessage (some buffer) ns enumeration).2)
      | _, _ => (.error .undefinedBehavior, dest)

/-! ## Removal -/

/-- A message is moved down a slot, and so is the slot of the cache. -/
def moveSlot (c : CachedEnvelope M) (i : Nat) : Except Fault (CachedEnvelope M) :=
  match c.envelope.message[i]?, c.envelope.messageNamespace[i]?, c.envelope.messageType[i]? with
  | some buffer, some ns, some enumeration =>
    let e := { c.envelope with
      message := c.envelope.message.set (i - 1) buffer
      messageNamespace := c.envelope.messageNamespace.set (i - 1) ns
      messageType := c.envelope.messageType.set (i - 1) enumeration }
    if ¬ c.messages.isEmpty ∧ i ≤ c.messages.length then
      match c.messages[i]? with
      | none => .error .undefinedBehavior
      | some slot => .ok ⟨e, c.messages.set (i - 1) slot⟩
    else .ok ⟨e, c.messages⟩
  | _, _, _ => .error .undefinedBehavior

/-- The loop of `RemoveMessage`, over `n` slots from `i` on. -/
def moveSlots : Nat → Nat → CachedEnvelope M → Except Fault (CachedEnvelope M)
  | 0, _, c => .ok c
  | n + 1, i, c =>
    match c.moveSlot i with
    | .error f => .error f
    | .ok c => moveSlots n (i + 1) c

/-- The end of `RemoveMessage`. -/
def removeLast (c : CachedEnvelope M) (initialSize : Nat) : Except Fault (CachedEnvelope M) :=
  if c.envelope.message.isEmpty ∨ c.envelope.messageNamespace.isEmpty ∨
      c.envelope.messageType.isEmpty then .error .undefinedBehavior
  else .ok {
    envelope := { c.envelope with
      message := c.envelope.message.dropLast
      messageNamespace := c.envelope.messageNamespace.dropLast
      messageType := c.envelope.messageType.dropLast }
    messages :=
      if ¬ c.messages.isEmpty ∧ initialSize ≤ c.messages.length then
        c.messages.set (initialSize - 1) none
      else c.messages }

/-- `RemoveMessage` of an index that is not negative. -/
def removeMessageAt (c : CachedEnvelope M) (i : Nat) : Except Fault Bool × CachedEnvelope M :=
  let initialSize := c.envelope.message.length
  if initialSize < i + 1 then (.ok false, c)
  else match moveSlots (initialSize - (i + 1)) (i + 1) c with
    | .error f => (.error f, c)
    | .ok moved =>
      match moved.removeLast initialSize with
      | .error f => (.error f, c)
      | .ok c => (.ok true, c)

/-- `RemoveMessage`. -/
def removeMessage (c : CachedEnvelope M) (index : Int32) : Except Fault Bool × CachedEnvelope M :=
  match checkIndex index with
  | .error f => (.error f, c)
  | .ok i => c.removeMessageAt i

/-! ## Whole envelopes -/

/-- `Clear`: the creation time stays. -/
def clear (c : CachedEnvelope M) : CachedEnvelope M where
  envelope := { createTime := some (c.envelope.createTime.getD 0) }

/-- The copy constructor, and `operator=` between two envelopes. -/
def copy (orig : CachedEnvelope M) : CachedEnvelope M where
  envelope := orig.envelope

/-- `ParseFromCodedInputStream`, with what parsing leaves in the envelope. -/
def parseFromCodedInputStream (_c : CachedEnvelope M) (parsed : Envelope) : CachedEnvelope M where
  envelope := parsed

end CachedEnvelope

/-! ## Runs -/

/-- An envelope of which the three lists have equal lengths. -/
abbrev BalancedEnvelope := {e : Envelope // e.Balanced}

/-- The envelopes of a program. -/
abbrev EnvelopeHeap (M : Type) := Nat → CachedEnvelope M

namespace EnvelopeHeap

open CachedEnvelope

variable {M : Type}

/-- A call, with the places of the envelopes. -/
inductive Op where
  | construct (x : Nat) (e : BalancedEnvelope)
  | copyConstruct (x orig : Nat)
  | assign (x orig : Nat)
  | addMessage (x : Nat) (buffer : Option Bytes) (ns enumeration : UInt32)
  | getMessage (x : Nat) (index : Int32)
  | copyMessage (x : Nat) (index : Int32) (dest : Nat)
  | removeMessage (x : Nat) (index : Int32)
  | clear (x : Nat)
  | parseFromCodedInputStream (x : Nat) (parsed : BalancedEnvelope)

/-- What a call returns. -/
inductive Returned (M : Type) where
  | nothing
  | flag (b : Bool)
  | message (m : Option M)

def set (s : EnvelopeHeap M) (x : Nat) (c : CachedEnvelope M) : EnvelopeHeap M :=
  fun y => if y = x then c else s y

/-- Envelopes of which nothing is cached. -/
def fresh (f : Nat → BalancedEnvelope) : EnvelopeHeap M := fun x => { envelope := (f x).val }

def step (registrar : Registrar M) (s : EnvelopeHeap M) :
    Op → Except Fault (Returned M) × EnvelopeHeap M
  | .construct x e => (.ok .nothing, s.set x { envelope := e.val })
  | .copyConstruct x orig => (.ok .nothing, s.set x (s orig).copy)
  | .assign x orig => (.ok .nothing, if x = orig then s else s.set x (s orig).copy)
  | .addMessage x buffer ns enumeration =>
    let (b, c) := (s x).addMessage buffer ns enumeration
    (.ok (.flag b), s.set x c)
  | .getMessage x index =>
    let (r, c) := (s x).getMessage registrar index
    (r.map .message, s.set x c)
  | .copyMessage x index dest =>
    let (r, c) := (s x).copyMessage index (s dest)
    (r.map .flag, s.set dest c)
  | .removeMessage x index =>
    let (r, c) := (s x).removeMessage index
    (r.map .flag, s.set x c)
  | .clear x => (.ok .nothing, s.set x (s x).clear)
  | .parseFromCodedInputStream x parsed =>
    (.ok .nothing, s.set x ((s x).parseFromCodedInputStream parsed.val))

end EnvelopeHeap

end Zippylog
