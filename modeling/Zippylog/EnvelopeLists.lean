import Zippylog.EnvelopeCacheProof
import Mathlib.Data.List.InsertIdx
import Mathlib.Logic.Function.Basic

/-!
# The messages of an envelope as a list

`AddMessage`, `CopyMessage` and `RemoveMessage` keep the bytes, the namespaces and the
types of the messages in three repeated fields. To a user an envelope has one list of messages, each
with its namespace and its type, and the fields are to have one length and one order at any time.

- `Entry`, `apply`: what the functions do to one list of messages;
- `step_follows`: a call does that to the three fields of an envelope of which nothing
  is cached;
- `follows_iff`: and so does a run, as long as no index is the largest `int`: the range is checked
  as `message_size() < index + 1`, which overflows there.
-/

namespace Zippylog

open Wire

/-! ## Lists of messages -/

/-- A message in an envelope. -/
structure Entry where
  message : Bytes
  messageNamespace : UInt32
  messageType : UInt32
  deriving DecidableEq

/-- An envelope without messages. -/
abbrev EmptyEnvelope :=
  {e : Envelope // e.message = [] ∧ e.messageNamespace = [] ∧ e.messageType = []}

namespace EntryLists

/-- The messages of the envelopes of a program. -/
abbrev Lists := Nat → List Entry

/-- A call that does not look at the content of a message, with the places of the envelopes. -/
inductive ListOp where
  | construct (x : Nat) (e : EmptyEnvelope)
  | copyConstruct (x orig : Nat)
  | assign (x orig : Nat)
  | addMessage (x : Nat) (buffer : Option Bytes) (ns enumeration : UInt32)
  | copyMessage (x : Nat) (index : Int32) (dest : Nat)
  | removeMessage (x : Nat) (index : Int32)
  | clear (x : Nat)

/-- How a call ends. -/
inductive Outcome where
  | nothing
  | flag (b : Bool)
  | throws
  deriving DecidableEq

/-- The messages after a call: append, append a copy, erase, empty, copy. -/
def apply (lists : Lists) : ListOp → Outcome × Lists
  | .construct x _ => (.nothing, Function.update lists x [])
  | .copyConstruct x orig => (.nothing, Function.update lists x (lists orig))
  | .assign x orig => (.nothing, Function.update lists x (lists orig))
  | .addMessage _ none _ _ => (.flag false, lists)
  | .addMessage x (some buffer) ns enumeration =>
    (.flag true, Function.update lists x (lists x ++ [⟨buffer, ns, enumeration⟩]))
  | .copyMessage x index dest =>
    if index < 0 then (.throws, lists)
    else match (lists x)[index.toNatClampNeg]? with
      | none => (.flag false, lists)
      | some entry => (.flag true, Function.update lists dest (lists dest ++ [entry]))
  | .removeMessage x index =>
    if index < 0 then (.throws, lists)
    else if (lists x).length ≤ index.toNatClampNeg then (.flag false, lists)
    else (.flag true, Function.update lists x ((lists x).eraseIdx index.toNatClampNeg))
  | .clear x => (.nothing, Function.update lists x [])

/-- The index of a call. -/
def ListOp.index : ListOp → Option Int32
  | .copyMessage _ index _ => some index
  | .removeMessage _ index => some index
  | _ => none

/-- There is no message at the index of the call. -/
def OutOfRange (lists : Lists) : ListOp → Prop
  | .copyMessage x index _ => index < 0 ∨ (lists x).length ≤ index.toNatClampNeg
  | .removeMessage x index => index < 0 ∨ (lists x).length ≤ index.toNatClampNeg
  | _ => False

/-! ## Envelopes -/

/-- An envelope has the messages of a list: its three fields are as long as the list. -/
structure Represents (e : Envelope) (l : List Entry) : Prop where
  message : e.message = l.map Entry.message
  messageNamespace : e.messageNamespace = l.map Entry.messageNamespace
  messageType : e.messageType = l.map Entry.messageType

open EnvelopeHeap

variable {M : Type} {registrar : Registrar M} {s : EnvelopeHeap M} {lists : Lists}

/-- The call of the class. -/
def ListOp.toOp : ListOp → Op
  | .construct x e => .construct x ⟨e.val, by
      obtain ⟨hm, hns, htype⟩ := e.property
      exact ⟨by rw [hm, hns]; rfl, by rw [hm, htype]; rfl⟩⟩
  | .copyConstruct x orig => .copyConstruct x orig
  | .assign x orig => .assign x orig
  | .addMessage x buffer ns enumeration => .addMessage x buffer ns enumeration
  | .copyMessage x index dest => .copyMessage x index dest
  | .removeMessage x index => .removeMessage x index
  | .clear x => .clear x

/-- How a call ends that has no undefined behaviour. -/
def outcome? : Except Fault (Returned M) → Option Outcome
  | .ok .nothing => some .nothing
  | .ok (.flag b) => some (.flag b)
  | .error (.exception _) => some .throws
  | _ => none

/-- In every state of a run the envelopes have the messages of the lists; a call ends as it
does on the lists, and without a message at its index it changes nothing. -/
def Follows (registrar : Registrar M) : EnvelopeHeap M → Lists → List ListOp → Prop
  | s, lists, [] => ∀ x, Represents (s x).envelope (lists x)
  | s, lists, op :: ops =>
    (∀ x, Represents (s x).envelope (lists x)) ∧
      outcome? (step registrar s op.toOp).1 = some (apply lists op).1 ∧
      (OutOfRange lists op → (step registrar s op.toOp).2 = s) ∧
      Follows registrar (step registrar s op.toOp).2 (apply lists op).2 ops

theorem Represents.balanced {e : Envelope} {l : List Entry} (h : Represents e l) : e.Balanced := by
  constructor
  · rw [h.messageNamespace, h.message, List.length_map, List.length_map]
  · rw [h.messageType, h.message, List.length_map, List.length_map]

theorem Represents.length_message {e : Envelope} {l : List Entry} (h : Represents e l) :
    e.message.length = l.length := by
  rw [h.message, List.length_map]

theorem represents_empty (e : EmptyEnvelope) : Represents e.val [] :=
  ⟨e.property.1, e.property.2.1, e.property.2.2⟩

theorem Represents.append {e : Envelope} {l : List Entry} (h : Represents e l) (entry : Entry) :
    Represents { e with
      message := e.message ++ [entry.message]
      messageNamespace := e.messageNamespace ++ [entry.messageNamespace]
      messageType := e.messageType ++ [entry.messageType] } (l ++ [entry]) := by
  constructor
  · simp [h.message]
  · simp [h.messageNamespace]
  · simp [h.messageType]

theorem Represents.eraseMessage {e : Envelope} {l : List Entry} (h : Represents e l) (i : Nat) :
    Represents (CachedEnvelope.eraseMessage e i) (l.eraseIdx i) := by
  constructor
  · simp [CachedEnvelope.eraseMessage, CachedEnvelope.withMessages, h.message, List.eraseIdx_map]
  · simp [CachedEnvelope.eraseMessage, CachedEnvelope.withMessages, h.messageNamespace,
      List.eraseIdx_map]
  · simp [CachedEnvelope.eraseMessage, CachedEnvelope.withMessages, h.messageType,
      List.eraseIdx_map]

/-! ## Without a cache -/

/-- The lists are those of the envelopes, and nothing is cached. -/
structure Inv (s : EnvelopeHeap M) (lists : Lists) : Prop where
  represents : ∀ x, Represents (s x).envelope (lists x)
  messages : ∀ x, (s x).messages = []

/-- One envelope changes, and its list with it. -/
theorem Inv.set (h : Inv s lists) (x : Nat) {c : CachedEnvelope M} {l : List Entry}
    (hc : Represents c.envelope l) (hmessages : c.messages = []) :
    Inv (s.set x c) (Function.update lists x l) := by
  constructor
  · intro y
    rw [EnvelopeHeap.set, Function.update_apply]
    split
    · exact hc
    · exact h.represents y
  · intro y
    rw [EnvelopeHeap.set]
    split
    · exact hmessages
    · exact h.messages y

theorem set_self (s : EnvelopeHeap M) (x : Nat) : s.set x (s x) = s := by
  funext y
  rw [EnvelopeHeap.set]
  split
  · rename_i hy
    rw [hy]
  · rfl

theorem Inv.coherent (h : Inv s lists) (registrar : Registrar M) (x : Nat) :
    (s x).Inv registrar := by
  refine ⟨(h.represents x).balanced, fun i m hm => ?_⟩
  rw [h.messages x] at hm
  cases hm

end EntryLists

namespace CachedEnvelope

variable {M : Type} {c c' : CachedEnvelope M}

/-! ## Removal without a cache -/

theorem messages_moveSlot (h : c.messages = []) {i : Nat} (hc : c.moveSlot i = .ok c') :
    c'.messages = [] := by
  rw [moveSlot] at hc
  split at hc
  · rw [h] at hc
    simp only [List.isEmpty_nil, not_true_eq_false, false_and, if_false] at hc
    rw [← Except.ok.inj hc]
  · cases hc

/-- What is not cached stays so. -/
theorem messages_moveSlots (n : Nat) :
    ∀ {i : Nat} {c : CachedEnvelope M}, c.messages = [] → moveSlots n i c = .ok c' →
      c'.messages = [] := by
  induction n with
  | zero =>
    intro i c h hc
    rwa [← Except.ok.inj hc]
  | succ n ih =>
    intro i c h hc
    rw [moveSlots] at hc
    cases hstep : c.moveSlot i with
    | error f =>
      rw [hstep] at hc
      cases hc
    | ok c₁ =>
      rw [hstep] at hc
      exact ih (messages_moveSlot h hstep) hc

/-- Removing a message caches nothing. -/
theorem messages_removeMessageAt (h : c.messages = []) (i : Nat) :
    (c.removeMessageAt i).2.messages = [] := by
  rw [removeMessageAt]
  split
  · exact h
  · split
    · exact h
    · rename_i moved hmoved
      have hmessages := messages_moveSlots _ h hmoved
      split
      · exact h
      · rename_i c' hlast
        rw [removeLast] at hlast
        split at hlast
        · cases hlast
        · rw [hmessages] at hlast
          rw [← Except.ok.inj hlast]
          rfl

end CachedEnvelope

namespace EntryLists

open EnvelopeHeap

variable {M : Type} {registrar : Registrar M} {s : EnvelopeHeap M} {lists : Lists}

/-! ## Runs -/

/-- What a call does to envelopes that have the messages of the lists. -/
structure StepFollows (registrar : Registrar M) (s : EnvelopeHeap M) (lists : Lists)
    (op : ListOp) : Prop where
  outcome : outcome? (step registrar s op.toOp).1 = some (apply lists op).1
  unchanged : OutOfRange lists op → (step registrar s op.toOp).2 = s
  inv : Inv (step registrar s op.toOp).2 (apply lists op).2

/-- A copy is one entry at the end of the list of the destination, which may be the envelope itself.
-/
theorem copyMessage_follows (h : Inv s lists) (x dest : Nat) {index : Int32}
    (hmax : index ≠ Int32.maxValue) :
    StepFollows registrar s lists (.copyMessage x index dest) := by
  -- a negative index throws, one behind the last message is refused
  by_cases hneg : index < 0
  · have hcopy : (s x).copyMessage index (s dest) =
        (.error (.exception (.invalidArgument "index must be non-negative")), s dest) := by
      rw [CachedEnvelope.copyMessage, CachedEnvelope.checkIndex, if_pos hneg]
    constructor
    · simp only [ListOp.toOp, step, hcopy, apply, if_pos hneg]
      rfl
    · intro _
      simp only [ListOp.toOp, step, hcopy, set_self]
    · simp only [ListOp.toOp, step, hcopy, set_self, apply, if_pos hneg]
      exact h
  · cases hentry : (lists x)[index.toNatClampNeg]? with
    | none =>
      have hcopy : (s x).copyMessage index (s dest) = (.ok false, s dest) := by
        rw [CachedEnvelope.copyMessage, checkIndex_ok hmax hneg]
        dsimp only
        rw [(h.represents x).message, List.getElem?_map, hentry]
        rfl
      constructor
      · simp only [ListOp.toOp, step, hcopy, apply, if_neg hneg, hentry]
        rfl
      · intro _
        simp only [ListOp.toOp, step, hcopy, set_self]
      · simp only [ListOp.toOp, step, hcopy, set_self, apply, if_neg hneg, hentry]
        exact h
    | some entry =>
      have hcopy : (s x).copyMessage index (s dest) = (.ok true,
          ((s dest).addMessage (some entry.message) entry.messageNamespace
            entry.messageType).2) := by
        rw [CachedEnvelope.copyMessage, checkIndex_ok hmax hneg]
        dsimp only
        rw [(h.represents x).message, (h.represents x).messageNamespace,
          (h.represents x).messageType, List.getElem?_map, List.getElem?_map, List.getElem?_map,
          hentry]
        rfl
      constructor
      · simp only [ListOp.toOp, step, hcopy, apply, if_neg hneg, hentry]
        rfl
      · rintro (hlt | hle)
        · exact absurd hlt hneg
        · rw [List.getElem?_eq_none hle] at hentry
          cases hentry
      · simp only [ListOp.toOp, step, hcopy, apply, if_neg hneg, hentry]
        exact h.set dest ((h.represents dest).append entry) (h.messages dest)

/-- The loop and the three removals of last elements take the one entry out of the list. -/
theorem removeMessage_follows (h : Inv s lists) (x : Nat) {index : Int32}
    (hmax : index ≠ Int32.maxValue) :
    StepFollows registrar s lists (.removeMessage x index) := by
  -- a negative index throws, one behind the last message is refused
  by_cases hneg : index < 0
  · have hremove : (s x).removeMessage index =
        (.error (.exception (.invalidArgument "index must be non-negative")), s x) := by
      rw [CachedEnvelope.removeMessage, CachedEnvelope.checkIndex, if_pos hneg]
    constructor
    · simp only [ListOp.toOp, step, hremove, apply, if_pos hneg]
      rfl
    · intro _
      simp only [ListOp.toOp, step, hremove, set_self]
    · simp only [ListOp.toOp, step, hremove, set_self, apply, if_pos hneg]
      exact h
  · have hremove : (s x).removeMessage index = (s x).removeMessageAt index.toNatClampNeg := by
      rw [CachedEnvelope.removeMessage, checkIndex_ok hmax hneg]
    have hlength := (h.represents x).length_message
    by_cases hle : (lists x).length ≤ index.toNatClampNeg
    · have hnone : (s x).removeMessageAt index.toNatClampNeg = (.ok false, s x) := by
        rw [CachedEnvelope.removeMessageAt, if_pos (by omega)]
      rw [hnone] at hremove
      constructor
      · simp only [ListOp.toOp, step, hremove, apply, if_neg hneg, if_pos hle]
        rfl
      · intro _
        simp only [ListOp.toOp, step, hremove, set_self]
      · simp only [ListOp.toOp, step, hremove, set_self, apply, if_neg hneg, if_pos hle]
        exact h
    · have hfit : ¬ (s x).EndsBetween index.toNatClampNeg := by
        rw [CachedEnvelope.EndsBetween, h.messages x]
        exact fun hends => absurd hends.1 (Nat.not_lt_zero _)
      obtain ⟨hreturned, -, herased⟩ :=
        CachedEnvelope.removeMessageAt_spec (h.coherent registrar x) hfit
      rw [hlength, decide_eq_true (by omega)] at hreturned
      constructor
      · simp only [ListOp.toOp, step, hremove, hreturned, apply, if_neg hneg, if_neg hle]
        rfl
      · rintro (hlt | hle')
        · exact absurd hlt hneg
        · exact absurd hle' hle
      · simp only [ListOp.toOp, step, hremove, apply, if_neg hneg, if_neg hle]
        refine h.set x ?_ (CachedEnvelope.messages_removeMessageAt (h.messages x) _)
        rw [herased]
        exact (h.represents x).eraseMessage _

/-- **Step lemma**: a call does to the envelopes what it does to the lists. -/
theorem step_follows (h : Inv s lists) (op : ListOp) (hindex : op.index ≠ some Int32.maxValue) :
    StepFollows registrar s lists op := by
  cases op with
  | construct x e => exact ⟨rfl, False.elim, h.set x (represents_empty e) rfl⟩
  | copyConstruct x orig => exact ⟨rfl, False.elim, h.set x (h.represents orig) rfl⟩
  | assign x orig =>
    refine ⟨rfl, False.elim, ?_⟩
    dsimp only [ListOp.toOp, step, apply]
    split
    · rename_i hx
      rw [hx, Function.update_eq_self]
      exact h
    · exact h.set x (h.represents orig) rfl
  | addMessage x buffer ns enumeration =>
    cases buffer with
    | none =>
      refine ⟨rfl, False.elim, ?_⟩
      dsimp only [ListOp.toOp, step, apply, CachedEnvelope.addMessage]
      rw [set_self]
      exact h
    | some buffer =>
      exact ⟨rfl, False.elim,
        h.set x ((h.represents x).append ⟨buffer, ns, enumeration⟩) (h.messages x)⟩
  | copyMessage x index dest =>
    exact copyMessage_follows h x dest (fun hmax => hindex (congrArg some hmax))
  | removeMessage x index =>
    exact removeMessage_follows h x (fun hmax => hindex (congrArg some hmax))
  | clear x => exact ⟨rfl, False.elim, h.set x ⟨rfl, rfl, rfl⟩ rfl⟩

/-- One is added to the index first, which is undefined for the largest `int`. -/
theorem outcome?_of_index_eq {op : ListOp} (h : op.index = some Int32.maxValue) :
    outcome? (step registrar s op.toOp).1 = none := by
  cases op with
  | copyMessage x index dest =>
    obtain rfl := Option.some.inj h
    dsimp only [ListOp.toOp, step]
    rw [CachedEnvelope.copyMessage, checkIndex_max]
    rfl
  | removeMessage x index =>
    obtain rfl := Option.some.inj h
    dsimp only [ListOp.toOp, step]
    rw [CachedEnvelope.removeMessage, checkIndex_max]
    rfl
  | _ => cases h

/-- By induction on the calls. -/
theorem follows_iff_of_inv (h : Inv s lists) (ops : List ListOp) :
    Follows registrar s lists ops ↔ ∀ op ∈ ops, op.index ≠ some Int32.maxValue := by
  induction ops generalizing s lists with
  | nil => exact ⟨fun _ _ hop => absurd hop List.not_mem_nil, fun _ => h.represents⟩
  | cons op ops ih =>
    rw [Follows, List.forall_mem_cons]
    by_cases hindex : op.index = some Int32.maxValue
    · refine ⟨fun hrun => ?_, fun hops => absurd hindex hops.1⟩
      rw [outcome?_of_index_eq hindex] at hrun
      exact absurd hrun.2.1.symm (Option.some_ne_none _)
    · have hstep : StepFollows registrar s lists op := step_follows h op hindex
      rw [ih hstep.inv]
      exact ⟨fun hrun => ⟨hindex, hrun.2.2.2⟩,
        fun hops => ⟨h.represents, hstep.outcome, hstep.unchanged, hops.2⟩⟩

/-- **The three lists of an envelope** are those of its messages in every run from empty envelopes,
whatever is added, copied between envelopes and removed, exactly when no message is copied or
removed at the largest `int`. An index out of range is refused and changes nothing. -/
theorem follows_iff (registrar : Registrar M) (f : Nat → EmptyEnvelope) (ops : List ListOp) :
    Follows registrar (fun x => { envelope := (f x).val }) (fun _ => []) ops ↔
      ∀ op ∈ ops, op.index ≠ some Int32.maxValue :=
  follows_iff_of_inv ⟨fun x => represents_empty (f x), fun _ => rfl⟩ ops

/-- The largest index is out of range of every envelope, and is not refused. -/
theorem not_follows_removeMessage :
    ¬ Follows MessageRegistrar.registrar
      (fun _ => { envelope := Envelope.new 1 }) (fun _ => [])
      [.addMessage 0 (some []) 1 1, .removeMessage 0 Int32.maxValue] := by
  intro hrun
  have houtcome := hrun.2.2.2.2.1
  rw [outcome?_of_index_eq rfl] at houtcome
  cases houtcome

end EntryLists

end Zippylog
