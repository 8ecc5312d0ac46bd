import Zippylog.EnvelopeCacheProof
import Zippylog.Lua

/-!
# Envelopes of clients

A client can send an envelope with fewer namespaces or types than messages: the three lists are
separate fields of the protocol buffer, and parsing compares nothing. The functions of an envelope
with an index, and the method of Lua code, are given such envelopes.

- A read out of the range of a list, and a removal of the last element of an empty one, are
  undefined as is `index + 1` for the largest `int`.
- `guarded_iff`: which calls of the functions with an index read no namespace and no
  type that is not there, and fail without a trace where an element of the message is
  missing. `GetMessage` asks all of the lists; the others ask for the number of messages only.
-/

namespace Zippylog

open Wire

namespace CachedEnvelope

variable {M : Type} {c c' : CachedEnvelope M}

/-! ## The loop of `RemoveMessage` on lists of any lengths -/

/-- Moving a message down changes no length. -/
theorem moveSlot_lengths {i : Nat} (h : c.moveSlot i = .ok c') :
    c'.envelope.message.length = c.envelope.message.length ∧
      c'.envelope.messageNamespace.length = c.envelope.messageNamespace.length ∧
      c'.envelope.messageType.length = c.envelope.messageType.length := by
  rw [moveSlot] at h
  split at h
  · dsimp only at h
    split at h
    · split at h
      · cases h
      · rw [← Except.ok.inj h]
        exact ⟨List.length_set, List.length_set, List.length_set⟩
    · rw [← Except.ok.inj h]
      exact ⟨List.length_set, List.length_set, List.length_set⟩
  · cases h

/-- The loop fails only where it reads out of range. -/
theorem moveSlot_eq_error {i : Nat} {f : Fault} (h : c.moveSlot i = .error f) :
    f = .undefinedBehavior := by
  rw [moveSlot] at h
  split at h
  · dsimp only at h
    split at h
    · split at h
      · exact (Except.error.inj h).symm
      · cases h
    · cases h
  · exact (Except.error.inj h).symm

/-- Without a cache a message is moved when its namespace and its type are there. -/
theorem moveSlot_ok (hc : c.messages = []) {i : Nat} (hm : i < c.envelope.message.length)
    (hns : i < c.envelope.messageNamespace.length) (htype : i < c.envelope.messageType.length) :
    ∃ c', c.moveSlot i = .ok c' ∧ c'.messages = [] := by
  rw [moveSlot, List.getElem?_eq_getElem hm, List.getElem?_eq_getElem hns,
    List.getElem?_eq_getElem htype, hc]
  exact ⟨_, rfl, rfl⟩

/-- Within the range of all three lists it does not fail. -/
theorem moveSlots_ok (n : Nat) :
    ∀ {i : Nat} {c : CachedEnvelope M}, c.messages = [] →
      i + n ≤ c.envelope.message.length → i + n ≤ c.envelope.messageNamespace.length →
      i + n ≤ c.envelope.messageType.length →
      ∃ c', moveSlots n i c = .ok c' ∧
        c'.envelope.message.length = c.envelope.message.length ∧
        c'.envelope.messageNamespace.length = c.envelope.messageNamespace.length ∧
        c'.envelope.messageType.length = c.envelope.messageType.length := by
  induction n with
  | zero => exact fun _ _ _ _ => ⟨_, rfl, rfl, rfl, rfl⟩
  | succ n ih =>
    intro i c hc hm hns htype
    obtain ⟨c₁, hstep, hc₁⟩ := moveSlot_ok hc (i := i) (by omega) (by omega) (by omega)
    obtain ⟨hm₁, hns₁, htype₁⟩ := moveSlot_lengths hstep
    obtain ⟨c₂, hrun, hm₂, hns₂, htype₂⟩ :=
      ih (i := i + 1) hc₁ (by omega) (by omega) (by omega)
    refine ⟨c₂, ?_, hm₂.trans hm₁, hns₂.trans hns₁, htype₂.trans htype₁⟩
    rw [moveSlots, hstep]
    exact hrun

/-- The loop reads a namespace or a type that is not there when it comes to its message. -/
theorem moveSlots_eq_error (n : Nat) :
    ∀ {i j : Nat} {c : CachedEnvelope M}, i ≤ j → j < i + n →
      c.envelope.messageNamespace.length ≤ j ∨ c.envelope.messageType.length ≤ j →
      moveSlots n i c = .error .undefinedBehavior := by
  induction n with
  | zero => exact fun hi hj _ => absurd hj (by omega)
  | succ n ih =>
    intro i j c hi hj hmissing
    rw [moveSlots]
    cases hstep : c.moveSlot i with
    | error f => rw [moveSlot_eq_error hstep]
    | ok c' =>
      obtain ⟨-, hns, htype⟩ := moveSlot_lengths hstep
      have hne : i ≠ j := by
        rintro rfl
        rw [moveSlot] at hstep
        split at hstep
        · rename_i h1 h2 h3
          obtain ⟨h2, -⟩ := List.getElem?_eq_some_iff.mp h2
          obtain ⟨h3, -⟩ := List.getElem?_eq_some_iff.mp h3
          omega
        · cases hstep
      exact ih (j := j) (by omega) (by omega) (by rw [hns, htype]; exact hmissing)

end CachedEnvelope

namespace Untrusted

open CachedEnvelope

variable {M : Type} {registrar : Registrar M} {e : Envelope}

/-! ## Calls -/

/-- A call with an index on a decoded envelope. -/
inductive Access where
  | getMessage (index : Int32)
  | copyMessage (index : Int32)
  | removeMessage (index : Int32)
  | messageEnumeration (offset : Option Int)

/-- The bytes, the namespace or the type of a message is missing. -/
def Missing (e : Envelope) (i : Nat) : Prop :=
  e.message.length ≤ i ∨ e.messageNamespace.length ≤ i ∨ e.messageType.length ≤ i

/-- The same for an index that can be negative. -/
def MissingAt (e : Envelope) (index : Int32) : Prop :=
  index < 0 ∨ Missing e index.toNatClampNeg

/-- A call reads nothing that is not there; where something is missing it returns the given
value or throws, and what it works on stays as it was. -/
structure Clean {α σ : Type} (missing : Prop) (failure : α) (before : σ)
    (result : Except Fault α × σ) : Prop where
  inside : result.1 ≠ .error .undefinedBehavior
  fails : missing → result.1 = .ok failure ∨ ∃ exn, result.1 = .error (.exception exn)
  unchanged : missing → result.2 = before

/-- The calls on an envelope that was just decoded, and of which nothing is cached. -/
def Guarded (registrar : Registrar M) (e : Envelope) (dest : CachedEnvelope M)
    (s : Lua.Userdata) : Access → Prop
  | .getMessage index =>
    Clean (MissingAt e index) none ⟨e, []⟩ (getMessage registrar ⟨e, []⟩ index)
  | .copyMessage index =>
    Clean (MissingAt e index) false dest (copyMessage ⟨e, []⟩ index dest)
  | .removeMessage index =>
    Clean (MissingAt e index) false (⟨e, []⟩ : CachedEnvelope M) (removeMessage ⟨e, []⟩ index)
  | .messageEnumeration offset =>
    let r := Lua.messageEnumeration s e offset
    r ≠ .error .undefinedBehavior ∧
      ((∀ o ∈ offset, o < 1 ∨ Missing e (o - 1).toNat) → ∃ message, r = .ok (.error message, s))

/-- The index is not the largest `int`, and the lists that the call does not look at the length
of go as far as it reads: `CopyMessage` and the method the element, `RemoveMessage` all
of them. -/
def InRange (e : Envelope) : Access → Prop
  | .getMessage index => index ≠ Int32.maxValue
  | .copyMessage index => index ≠ Int32.maxValue ∧
      (0 ≤ index → index.toNatClampNeg < e.message.length →
        index.toNatClampNeg < e.messageNamespace.length ∧
          index.toNatClampNeg < e.messageType.length)
  | .removeMessage index => index ≠ Int32.maxValue ∧
      (0 ≤ index → index.toNatClampNeg < e.message.length →
        e.message.length ≤ e.messageNamespace.length ∧ e.message.length ≤ e.messageType.length)
  | .messageEnumeration offset => ∀ o ∈ offset, 1 ≤ o → o ≤ e.message.length →
      (o - 1).toNat < e.messageNamespace.length ∧ (o - 1).toNat < e.messageType.length

/-! ## Each call -/

/-- All of them refuse a negative index. -/
theorem clean_thrown {α σ : Type} {missing : Prop} {failure : α} {before : σ} {exn : Exn} :
    Clean missing failure before (.error (.exception exn), before) :=
  ⟨by simp, fun _ => .inr ⟨exn, rfl⟩, fun _ => rfl⟩

theorem clean_refused {α σ : Type} {missing : Prop} {failure : α} {before : σ} :
    Clean missing failure before (.ok failure, before) :=
  ⟨by simp, fun _ => .inl rfl, fun _ => rfl⟩

theorem not_clean_undefined {α σ : Type} {missing : Prop} {failure : α} {before after : σ} :
    ¬ Clean missing failure before (.error .undefinedBehavior, after) :=
  fun h => h.inside rfl

/-- Where nothing is missing there is nothing to fail for. -/
theorem clean_of_not_missing {α σ : Type} {missing : Prop} {failure a : α} {before after : σ}
    (h : ¬ missing) : Clean missing failure before (.ok a, after) :=
  ⟨by simp, fun hmissing => absurd hmissing h, fun hmissing => absurd hmissing h⟩

theorem not_missingAt {index : Int32} (hneg : ¬ index < 0)
    (hm : index.toNatClampNeg < e.message.length)
    (hns : index.toNatClampNeg < e.messageNamespace.length)
    (htype : index.toNatClampNeg < e.messageType.length) : ¬ MissingAt e index := by
  rintro (hneg' | hm' | hns' | htype')
  · exact hneg hneg'
  · omega
  · omega
  · omega

/-- `GetMessage` looks at the three lists. -/
theorem getMessage_guarded_iff (registrar : Registrar M) (e : Envelope) (index : Int32) :
    Clean (MissingAt e index) none ⟨e, []⟩ (getMessage registrar ⟨e, []⟩ index) ↔
      InRange e (.getMessage index) := by
  by_cases hmax : index = Int32.maxValue
  · subst hmax
    rw [getMessage, EnvelopeHeap.checkIndex_max]
    exact ⟨fun hclean => absurd hclean not_clean_undefined, fun hrange => absurd rfl hrange⟩
  refine iff_of_true ?_ hmax
  by_cases hneg : index < 0
  · rw [getMessage, checkIndex, if_pos hneg]
    exact clean_thrown
  rw [getMessage, EnvelopeHeap.checkIndex_ok hmax hneg]
  dsimp only
  rw [getMessageAt]
  split
  · exact clean_refused
  · split
    · exact clean_refused
    · split
      · exact clean_refused
      · rename_i hm hns htype
        have hthere := not_missingAt hneg (Nat.lt_of_succ_le (Nat.not_lt.mp hm))
          (Nat.lt_of_succ_le (Nat.not_lt.mp hns)) (Nat.lt_of_succ_le (Nat.not_lt.mp htype))
        have hslot : (resize (⟨e, []⟩ : CachedEnvelope M)).messages[index.toNatClampNeg]? =
            some none := by
          rw [resize]
          exact List.getElem?_replicate_of_lt (Nat.lt_of_succ_le (Nat.not_lt.mp hm))
        dsimp only
        rw [hslot]
        dsimp only
        split
        · exact clean_of_not_missing hthere
        · exact clean_of_not_missing hthere

/-- `CopyMessage` looks at the number of messages only. -/
theorem copyMessage_guarded_iff (index : Int32) (dest : CachedEnvelope M) :
    Clean (MissingAt e index) false dest (copyMessage ⟨e, []⟩ index dest) ↔
      InRange e (.copyMessage index) := by
  by_cases hmax : index = Int32.maxValue
  · subst hmax
    rw [copyMessage, EnvelopeHeap.checkIndex_max]
    exact ⟨fun hclean => absurd hclean not_clean_undefined, fun hrange => absurd rfl hrange.1⟩
  by_cases hneg : index < 0
  · rw [copyMessage, checkIndex, if_pos hneg]
    exact ⟨fun _ => ⟨hmax, fun hle => absurd hneg (Int32.not_lt.mpr hle)⟩, fun _ => clean_thrown⟩
  rw [copyMessage, EnvelopeHeap.checkIndex_ok hmax hneg, InRange]
  dsimp only
  cases hm : e.message[index.toNatClampNeg]? with
  | none =>
    have hlength := List.getElem?_eq_none_iff.mp hm
    exact ⟨fun _ => ⟨hmax, fun _ hlt => absurd hlt (Nat.not_lt.mpr hlength)⟩,
      fun _ => clean_refused⟩
  | some buffer =>
    obtain ⟨hlt, -⟩ := List.getElem?_eq_some_iff.mp hm
    dsimp only
    split
    · rename_i ns enumeration hns htype
      obtain ⟨hns, -⟩ := List.getElem?_eq_some_iff.mp hns
      obtain ⟨htype, -⟩ := List.getElem?_eq_some_iff.mp htype
      exact ⟨fun _ => ⟨hmax, fun _ _ => ⟨hns, htype⟩⟩,
        fun _ => clean_of_not_missing (not_missingAt hneg hlt hns htype)⟩
    · rename_i hnone
      refine ⟨fun hclean => absurd hclean not_clean_undefined, fun hrange => ?_⟩
      obtain ⟨hns, htype⟩ := hrange.2 (Int32.not_lt.mp hneg) hlt
      exact absurd (List.getElem?_eq_getElem htype)
        (hnone _ _ (List.getElem?_eq_getElem hns))

/-- All namespaces and types are there: the message is removed. -/
theorem removeMessageAt_ok {i : Nat} (hi : i < e.message.length)
    (hns : e.message.length ≤ e.messageNamespace.length)
    (htype : e.message.length ≤ e.messageType.length) :
    (removeMessageAt (⟨e, []⟩ : CachedEnvelope M) i).1 = .ok true := by
  obtain ⟨c, hrun, hm₁, hns₁, htype₁⟩ :=
    moveSlots_ok (e.message.length - (i + 1)) (i := i + 1) (c := (⟨e, []⟩ : CachedEnvelope M)) rfl
      (by dsimp only; omega) (by dsimp only; omega) (by dsimp only; omega)
  dsimp only at hm₁ hns₁ htype₁
  rw [removeMessageAt, if_neg (by dsimp only; omega), hrun]
  dsimp only
  rw [removeLast, if_neg (by simp only [List.isEmpty_iff_length_eq_zero]; omega)]

/-- One of them is missing for some message: it is read when the messages behind the index
are moved, or else the index is the last and the message goes all the same. -/
theorem not_clean_removeMessageAt {i : Nat} (hi : i < e.message.length)
    (hshort : e.messageNamespace.length < e.message.length ∨
      e.messageType.length < e.message.length) {missing : Prop}
    (hmissing : Missing e i → missing) :
    ¬ Clean missing false (⟨e, []⟩ : CachedEnvelope M) (removeMessageAt ⟨e, []⟩ i) := by
  rw [removeMessageAt, if_neg (by dsimp only; omega)]
  by_cases hlast : i + 1 = e.message.length
  · have hfailed := hmissing (by
      rw [Missing]
      omega)
    rw [← hlast, Nat.sub_self, moveSlots]
    dsimp only
    rw [removeLast]
    split
    · rename_i f hf
      split at hf
      · rw [← Except.error.inj hf]
        exact not_clean_undefined
      · cases hf
    · intro hclean
      rcases hclean.fails hfailed with h | ⟨exn, h⟩
      · cases h
      · cases h
  · rw [moveSlots_eq_error (e.message.length - (i + 1)) (j := e.message.length - 1) (by omega)
      (by omega) (by dsimp only; omega)]
    exact not_clean_undefined

/-- `RemoveMessage` looks at the number of messages only. -/
theorem removeMessage_guarded_iff (index : Int32) :
    Clean (MissingAt e index) false (⟨e, []⟩ : CachedEnvelope M)
        (removeMessage ⟨e, []⟩ index) ↔ InRange e (.removeMessage index) := by
  by_cases hmax : index = Int32.maxValue
  · subst hmax
    rw [removeMessage, EnvelopeHeap.checkIndex_max]
    exact ⟨fun hclean => absurd hclean not_clean_undefined, fun hrange => absurd rfl hrange.1⟩
  by_cases hneg : index < 0
  · rw [removeMessage, checkIndex, if_pos hneg]
    exact ⟨fun _ => ⟨hmax, fun hle => absurd hneg (Int32.not_lt.mpr hle)⟩, fun _ => clean_thrown⟩
  rw [removeMessage, EnvelopeHeap.checkIndex_ok hmax hneg, InRange]
  dsimp only
  by_cases hlt : index.toNatClampNeg < e.message.length
  · constructor
    · refine fun hclean => ⟨hmax, fun _ _ => ?_⟩
      by_contra hshort
      exact not_clean_removeMessageAt hlt (by omega) Or.inr hclean
    · intro hrange
      obtain ⟨hns, htype⟩ := hrange.2 (Int32.not_lt.mp hneg) hlt
      rw [← Prod.mk.eta (p := removeMessageAt _ _), removeMessageAt_ok hlt hns htype]
      exact clean_of_not_missing (not_missingAt hneg hlt (by omega) (by omega))
  · rw [removeMessageAt, if_pos (by dsimp only; omega)]
    exact ⟨fun _ => ⟨hmax, fun _ h => absurd h hlt⟩, fun _ => clean_refused⟩

/-- `message_enumeration` looks at the number of messages only. -/
theorem messageEnumeration_guarded_iff (registrar : Registrar M) (dest : CachedEnvelope M)
    (s : Lua.Userdata) (offset : Option Int) :
    Guarded registrar e dest s (.messageEnumeration offset) ↔
      InRange e (.messageEnumeration offset) := by
  dsimp only [Guarded, InRange]
  cases offset with
  | none => exact iff_of_true ⟨by simp [Lua.messageEnumeration], fun _ => ⟨_, rfl⟩⟩ (by simp)
  | some o =>
    simp only [Option.mem_def, Option.some.injEq, forall_eq', Lua.messageEnumeration]
    by_cases hout : o < 1 ∨ o > e.messageCount
    · rw [if_pos hout]
      refine iff_of_true ⟨by simp, fun _ => ⟨_, rfl⟩⟩ fun h1 hle => ?_
      rw [Envelope.messageCount] at hout
      omega
    · rw [if_neg hout]
      rw [Envelope.messageCount] at hout
      split
      · rename_i ns enumeration hns htype
        obtain ⟨hns, -⟩ := List.getElem?_eq_some_iff.mp hns
        obtain ⟨htype, -⟩ := List.getElem?_eq_some_iff.mp htype
        refine iff_of_true ⟨by simp, fun hmissing => ?_⟩ fun _ _ => ⟨hns, htype⟩
        rw [Missing] at hmissing
        omega
      · rename_i hnone
        refine iff_of_false (fun h => h.1 rfl) fun hrange => ?_
        obtain ⟨hns, htype⟩ := hrange (by omega) (by omega)
        exact hnone _ _ (List.getElem?_eq_getElem hns) (List.getElem?_eq_getElem htype)

/-- **Envelopes with lists of any lengths**: a call with an index is guarded exactly when the index
is in range of the lists that the call does not look at the length of, and is not the largest `int`.
The envelope has any three lists, and the index, the destination and what the registrar knows are
any. -/
theorem guarded_iff (registrar : Registrar M) (e : Envelope) (dest : CachedEnvelope M)
    (s : Lua.Userdata) (a : Access) : Guarded registrar e dest s a ↔ InRange e a := by
  cases a with
  | getMessage index => exact getMessage_guarded_iff registrar e index
  | copyMessage index => exact copyMessage_guarded_iff index dest
  | removeMessage index => exact removeMessage_guarded_iff index
  | messageEnumeration offset => exact messageEnumeration_guarded_iff registrar dest s offset

/-- An envelope of a client with a message and no namespace. -/
theorem not_guarded_copyMessage :
    ¬ Guarded MessageRegistrar.registrar { message := [[]] } ⟨{}, []⟩ [] (.copyMessage 0) :=
  fun h => h.inside rfl

end Untrusted

end Zippylog
