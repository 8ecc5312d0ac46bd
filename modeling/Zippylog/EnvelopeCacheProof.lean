import Zippylog.EnvelopeCache

/-!
# The message cache of envelopes: coherence

The cache is right as long as each message in it is the one that decoding gives, which is what
`GetMessage` returns then. Adding a message and copying one keep it so. A removal moves the slots
behind the index to the left, one for each message, and the cache can be shorter than the list of
messages: then a slot behind the end of the array is read.

- `Inv`: a message that is cached is the one that decoding gives.
- `getMessageAt_registrar`: the cache is not seen by who asks for a message.
- `removeMessageAt_spec`: a removal keeps the cache right unless it ends behind the index and
  before the last message.
- `coherent_iff_safeRun`: so it is in every run.
-/

namespace Zippylog

open Wire

namespace CachedEnvelope

variable {M : Type} {registrar : Registrar M} {c : CachedEnvelope M}

/-! ## The invariant -/

/-- What is cached is what decoding gives. -/
structure Inv (registrar : Registrar M) (c : CachedEnvelope M) : Prop where
  balanced : c.envelope.Balanced
  cached : ∀ i m, c.messages[i]? = some (some m) → c.envelope.decodeMessage registrar i = some m

theorem inv_empty {e : Envelope} (h : e.Balanced) : Inv registrar ⟨e, []⟩ :=
  ⟨h, fun _ _ hm => absurd hm (Option.some_ne_none _).symm⟩

theorem decodeMessage_of_length_le {e : Envelope} {i : Nat} (h : e.message.length ≤ i) :
    e.decodeMessage registrar i = none := by
  rw [Envelope.decodeMessage, List.getElem?_eq_none h]
  rfl

/-- Decoding looks at the three lists at one index. -/
theorem decodeMessage_congr {e e' : Envelope} {i j : Nat} (hm : e.message[i]? = e'.message[j]?)
    (hns : e.messageNamespace[i]? = e'.messageNamespace[j]?)
    (ht : e.messageType[i]? = e'.messageType[j]?) :
    e.decodeMessage registrar i = e'.decodeMessage registrar j := by
  rw [Envelope.decodeMessage, Envelope.decodeMessage, hm, hns, ht]

/-! ## Reading -/

theorem getElem?_append_replicate_none {l : List (Option M)} {n i : Nat} {m : M}
    (h : (l ++ List.replicate n none)[i]? = some (some m)) : l[i]? = some (some m) := by
  by_cases hi : i < l.length
  · rwa [List.getElem?_append_left hi] at h
  · rw [List.getElem?_append_right (Nat.le_of_not_lt hi)] at h
    have hmem := List.mem_of_getElem? h
    exact absurd (List.eq_of_mem_replicate hmem) (Option.some_ne_none m)

/-- The array is made longer by empty slots. -/
theorem resize_eq (c : CachedEnvelope M) :
    ∃ n, c.resize = { c with messages := c.messages ++ List.replicate n none } ∧
      c.envelope.message.length ≤ c.messages.length + n := by
  rw [resize]
  by_cases hnil : c.messages.isEmpty = true
  · rw [if_pos hnil, List.isEmpty_iff.mp hnil]
    exact ⟨_, rfl, Nat.le_add_left _ _⟩
  · rw [if_neg hnil]
    split
    · exact ⟨_, rfl, by omega⟩
    · refine ⟨0, ?_, by omega⟩
      rw [List.replicate_zero, List.append_nil]

theorem Inv.resize (h : c.Inv registrar) : c.resize.Inv registrar := by
  obtain ⟨n, hresize, -⟩ := c.resize_eq
  rw [hresize]
  exact ⟨h.balanced, fun i m hm => h.cached i m (getElem?_append_replicate_none hm)⟩

/-- A message that was decoded can be put into the cache. -/
theorem Inv.set (h : c.Inv registrar) {i : Nat} {m : M}
    (hm : c.envelope.decodeMessage registrar i = some m) :
    Inv registrar { c with messages := c.messages.set i (some m) } := by
  refine ⟨h.balanced, fun j m' hm' => ?_⟩
  dsimp only at hm'
  rw [List.getElem?_set] at hm'
  split at hm'
  · rename_i hij
    subst hij
    split at hm'
    · rw [← Option.some.inj (Option.some.inj hm')]
      exact hm
    · cases hm'
  · exact h.cached j m' hm'

/-- **`GetMessage`** returns what decoding gives. -/
theorem getMessageAt_spec (h : c.Inv registrar) (i : Nat) :
    (c.getMessageAt registrar i).1 = .ok (c.envelope.decodeMessage registrar i) ∧
      (c.getMessageAt registrar i).2.Inv registrar := by
  rw [getMessageAt, h.balanced.messageNamespace, h.balanced.messageType]
  by_cases hi : c.envelope.message.length < i + 1
  · rw [if_pos hi, decodeMessage_of_length_le (Nat.le_of_lt_succ hi)]
    exact ⟨rfl, h⟩
  · rw [if_neg hi, if_neg hi, if_neg hi]
    have hresize := h.resize
    obtain ⟨n, heq, hlength⟩ := c.resize_eq
    have henvelope : c.resize.envelope = c.envelope := by rw [heq]
    have hslot : i < c.resize.messages.length := by
      rw [heq]
      dsimp only
      rw [List.length_append, List.length_replicate]
      omega
    obtain ⟨slot, hsome⟩ : ∃ slot, c.resize.messages[i]? = some slot :=
      ⟨_, List.getElem?_eq_getElem hslot⟩
    rw [← henvelope]
    dsimp only
    rw [hsome]
    cases slot with
    | some m =>
      rw [hresize.cached i m hsome]
      exact ⟨rfl, hresize⟩
    | none =>
      cases hm : c.resize.envelope.decodeMessage registrar i with
      | none => exact ⟨rfl, hresize⟩
      | some m => exact ⟨rfl, hresize.set hm⟩

/-- So a component that asks an envelope for a message gets the one of `Envelope.getMessage`,
which knows nothing of a cache. -/
theorem getMessageAt_registrar {c : CachedEnvelope Message}
    (h : c.Inv MessageRegistrar.registrar) (i : Nat) :
    (c.getMessageAt MessageRegistrar.registrar i).1 = .ok (c.envelope.getMessage i) := by
  rw [(getMessageAt_spec h i).1, Envelope.decodeMessage_registrar]

/-! ## Adding -/

/-- A message that is added has no slot in the cache, or an empty one. -/
theorem Inv.addMessage (h : c.Inv registrar) (buffer : Option Bytes) (ns enumeration : UInt32) :
    (c.addMessage buffer ns enumeration).2.Inv registrar := by
  cases buffer with
  | none => exact h
  | some buffer =>
    obtain ⟨⟨hns, htype⟩, hcached⟩ := h
    refine ⟨⟨?_, ?_⟩, fun i m hm => ?_⟩
    · simp [CachedEnvelope.addMessage, hns]
    · simp [CachedEnvelope.addMessage, htype]
    · have hdecode := hcached i m hm
      -- the index of a cached message is in front of what is added
      have hi : i < c.envelope.message.length := by
        by_contra hge
        rw [decodeMessage_of_length_le (Nat.le_of_not_lt hge)] at hdecode
        cases hdecode
      rw [← hdecode]
      refine decodeMessage_congr ?_ ?_ ?_
      · exact List.getElem?_append_left hi
      · exact List.getElem?_append_left (hns.symm ▸ hi)
      · exact List.getElem?_append_left (htype.symm ▸ hi)

/-- A copy reads in the range of the lists, and the destination gets a message without a slot. -/
theorem copyMessage_spec {dest : CachedEnvelope M} (h : c.Inv registrar)
    (hdest : dest.Inv registrar) {index : Int32} (hindex : index ≠ Int32.maxValue) :
    (c.copyMessage index dest).1 ≠ .error .undefinedBehavior ∧
      (c.copyMessage index dest).2.Inv registrar := by
  rw [copyMessage, checkIndex, if_neg hindex]
  by_cases hneg : index < 0
  · rw [if_pos hneg]
    exact ⟨by simp, hdest⟩
  · rw [if_neg hneg]
    dsimp only
    cases hm : c.envelope.message[index.toNatClampNeg]? with
    | none => exact ⟨by simp, hdest⟩
    | some buffer =>
      obtain ⟨hi, -⟩ := List.getElem?_eq_some_iff.mp hm
      have hns := List.getElem?_eq_getElem (h.balanced.messageNamespace.symm ▸ hi)
      have htype := List.getElem?_eq_getElem (h.balanced.messageType.symm ▸ hi)
      dsimp only
      rw [hns, htype]
      exact ⟨by simp, hdest.addMessage _ _ _⟩

/-! ## Moving down -/

/-- `k` entries of the list from `index` on are the ones behind them. -/
structure Moved {α : Type} (index k : Nat) (l l' : List α) : Prop where
  length_eq : l'.length = l.length
  getElem?_eq : ∀ j, l'[j]? = if index ≤ j ∧ j < index + k then l[j + 1]? else l[j]?

section Moved

variable {α : Type} {index k : Nat} {l l' : List α}

theorem moved_zero (index : Nat) (l : List α) : Moved index 0 l l :=
  ⟨rfl, fun j => by rw [if_neg (by omega)]⟩

/-- What is ahead has not moved. -/
theorem Moved.ahead (h : Moved index k l l') : l'[index + k + 1]? = l[index + k + 1]? := by
  rw [h.getElem?_eq, if_neg (by omega)]

/-- One more message is moved down. -/
theorem Moved.succ (h : Moved index k l l') {a : α} (ha : l[index + k + 1]? = some a) :
    Moved index (k + 1) l (l'.set (index + k) a) := by
  obtain ⟨hlt, -⟩ := List.getElem?_eq_some_iff.mp ha
  refine ⟨by rw [List.length_set, h.length_eq], fun j => ?_⟩
  rw [List.getElem?_set]
  split
  · rename_i hj
    subst hj
    rw [if_pos (by rw [h.length_eq]; omega), if_pos (by omega), ha]
  · rw [h.getElem?_eq]
    by_cases hj : index ≤ j ∧ j < index + k
    · rw [if_pos hj, if_pos (by omega)]
    · rw [if_neg hj, if_neg (by omega)]

/-- Without its last entry, which is there twice, the list has lost one. -/
theorem Moved.dropLast_eq (h : Moved index k l l') (hl : l.length = index + k + 1) :
    l'.dropLast = l.eraseIdx index := by
  refine List.ext_getElem? fun j => ?_
  rw [List.getElem?_dropLast, List.getElem?_eraseIdx, h.length_eq, h.getElem?_eq]
  by_cases hj : j < index
  · rw [if_pos (by omega), if_neg (by omega), if_pos hj]
  · rw [if_neg hj]
    by_cases hlast : j < l.length - 1
    · rw [if_pos hlast, if_pos (by omega)]
    · rw [if_neg hlast, List.getElem?_eq_none (by omega)]

end Moved

/-- An envelope with other messages. -/
def withMessages (e : Envelope) (message : List Bytes) (messageNamespace messageType : List UInt32) :
    Envelope :=
  { e with message, messageNamespace, messageType }

/-- The loop has moved `k` messages, and their slots when the index is in the cache. -/
structure MovedTo (index k : Nat) (c c' : CachedEnvelope M) : Prop where
  rest : ∀ ms nss types, withMessages c'.envelope ms nss types = withMessages c.envelope ms nss types
  message : Moved index k c.envelope.message c'.envelope.message
  messageNamespace : Moved index k c.envelope.messageNamespace c'.envelope.messageNamespace
  messageType : Moved index k c.envelope.messageType c'.envelope.messageType
  slots : index < c.messages.length → Moved index k c.messages c'.messages
  same : c.messages.length ≤ index → c'.messages = c.messages

section Removal

variable {index k : Nat} {c' : CachedEnvelope M}

theorem movedTo_zero (index : Nat) (c : CachedEnvelope M) : MovedTo index 0 c c :=
  ⟨fun _ _ _ => rfl, moved_zero _ _, moved_zero _ _, moved_zero _ _, fun _ => moved_zero _ _,
    fun _ => rfl⟩

theorem MovedTo.length_messages (h : MovedTo index k c c') :
    c'.messages.length = c.messages.length := by
  rcases Nat.lt_or_ge index c.messages.length with hslots | hsame
  · exact (h.slots hslots).length_eq
  · rw [h.same hsame]

/-- The cache ends behind the index and before the last message. -/
def EndsBetween (c : CachedEnvelope M) (index : Nat) : Prop :=
  index < c.messages.length ∧ c.messages.length < c.envelope.message.length

/-- **Step lemma** of the loop. -/
theorem MovedTo.moveSlot (hb : c.envelope.Balanced) (h : MovedTo index k c c')
    (hi : index + k + 1 < c.envelope.message.length)
    (hend : index < c.messages.length → index + k + 1 < c.messages.length) :
    ∃ c'', c'.moveSlot (index + k + 1) = .ok c'' ∧ MovedTo index (k + 1) c c'' := by
  have hm := List.getElem?_eq_getElem hi
  have hns := List.getElem?_eq_getElem (hb.messageNamespace.symm ▸ hi)
  have htype := List.getElem?_eq_getElem (hb.messageType.symm ▸ hi)
  have hlength := h.length_messages
  rw [CachedEnvelope.moveSlot, h.message.ahead, h.messageNamespace.ahead, h.messageType.ahead,
    hm, hns, htype]
  dsimp only
  rw [Nat.add_sub_cancel]
  rcases Nat.lt_or_ge index c.messages.length with hslots | hsame
  · have hmoved := h.slots hslots
    have hslot := List.getElem?_eq_getElem (hend hslots)
    rw [if_pos ⟨by rw [List.isEmpty_iff_length_eq_zero]; omega, by omega⟩, hmoved.ahead, hslot]
    exact ⟨_, rfl, h.rest, h.message.succ hm, h.messageNamespace.succ hns,
      h.messageType.succ htype, fun _ => hmoved.succ hslot, fun hle => absurd hslots (Nat.not_lt.mpr hle)⟩
  · rw [if_neg (by omega)]
    exact ⟨_, rfl, h.rest, h.message.succ hm, h.messageNamespace.succ hns,
      h.messageType.succ htype, fun hlt => absurd hlt (Nat.not_lt.mpr hsame), fun _ => h.same hsame⟩

/-- **Run lemma** of the loop. -/
theorem MovedTo.moveSlots (hb : c.envelope.Balanced) (n : Nat) (h : MovedTo index k c c')
    (hn : index + k + 1 + n ≤ c.envelope.message.length)
    (hend : index < c.messages.length → index + k + 1 + n ≤ c.messages.length) :
    ∃ c'', CachedEnvelope.moveSlots n (index + k + 1) c' = .ok c'' ∧
      MovedTo index (k + n) c c'' := by
  induction n generalizing k c' with
  | zero => exact ⟨c', rfl, h⟩
  | succ n ih =>
    obtain ⟨c₁, hstep, hmoved⟩ := h.moveSlot hb (by omega) (fun hlt => by
      have := hend hlt
      omega)
    obtain ⟨c₂, hrun, hmoved₂⟩ := ih hmoved (by omega) (fun hlt => by
      have := hend hlt
      omega)
    refine ⟨c₂, ?_, ?_⟩
    · rw [CachedEnvelope.moveSlots, hstep]
      exact hrun
    · rw [show k + (n + 1) = k + 1 + n by omega]
      exact hmoved₂

/-- The slot behind the cache is read. -/
theorem MovedTo.moveSlot_error (hb : c.envelope.Balanced) (h : MovedTo index k c c')
    (hend : index + k + 1 = c.messages.length)
    (hi : index + k + 1 < c.envelope.message.length) :
    c'.moveSlot (index + k + 1) = .error .undefinedBehavior := by
  have hm := List.getElem?_eq_getElem hi
  have hns := List.getElem?_eq_getElem (hb.messageNamespace.symm ▸ hi)
  have htype := List.getElem?_eq_getElem (hb.messageType.symm ▸ hi)
  have hlength := h.length_messages
  rw [CachedEnvelope.moveSlot, h.message.ahead, h.messageNamespace.ahead, h.messageType.ahead,
    hm, hns, htype]
  dsimp only
  rw [if_pos ⟨by rw [List.isEmpty_iff_length_eq_zero]; omega, by omega⟩,
    List.getElem?_eq_none (by omega)]

/-- The loop in two stretches. -/
theorem moveSlots_add (n m i : Nat) (c : CachedEnvelope M) :
    moveSlots (n + m) i c = (moveSlots n i c).bind (moveSlots m (i + n)) := by
  induction n generalizing i c with
  | zero =>
    rw [Nat.zero_add]
    rfl
  | succ n ih =>
    rw [Nat.succ_add, moveSlots, moveSlots]
    cases moveSlot c i with
    | error f => rfl
    | ok c' =>
      dsimp only
      rw [ih, show i + 1 + n = i + (n + 1) by omega]

/-- Where the cache ends between the messages that are moved, the loop reads a slot that is not
there. -/
theorem moveSlots_error (hb : c.envelope.Balanced) (hends : c.EndsBetween index) :
    moveSlots (c.envelope.message.length - (index + 1)) (index + 1) c
      = .error .undefinedBehavior := by
  obtain ⟨hslots, hshort⟩ := hends
  -- the loop gets to the end of the cache, and the next step reads behind it
  obtain ⟨c', hrun, hmoved⟩ := (movedTo_zero index c).moveSlots hb
    (c.messages.length - (index + 1)) (by omega) (fun _ => by omega)
  have herror := hmoved.moveSlot_error hb (by omega) (by omega)
  rw [show c.envelope.message.length - (index + 1)
      = (c.messages.length - (index + 1))
        + ((c.envelope.message.length - c.messages.length - 1) + 1) by omega,
    moveSlots_add, hrun]
  rw [Nat.zero_add] at herror
  dsimp only [Except.bind]
  rw [CachedEnvelope.moveSlots, show index + 1 + (c.messages.length - (index + 1))
      = index + (c.messages.length - (index + 1)) + 1 by omega, herror]

end Removal

/-! ## Removing -/

/-- The envelope without the message at an index. -/
def eraseMessage (e : Envelope) (i : Nat) : Envelope :=
  withMessages e (e.message.eraseIdx i) (e.messageNamespace.eraseIdx i) (e.messageType.eraseIdx i)

theorem decodeMessage_eraseMessage (e : Envelope) (i j : Nat) :
    (eraseMessage e i).decodeMessage registrar j =
      e.decodeMessage registrar (if j < i then j else j + 1) := by
  refine decodeMessage_congr ?_ ?_ ?_
  all_goals
    dsimp only [eraseMessage, withMessages]
    rw [List.getElem?_eraseIdx]
    split <;> rfl

theorem Balanced.eraseMessage {e : Envelope} (h : e.Balanced) (i : Nat) :
    (eraseMessage e i).Balanced := by
  constructor
  · simp [CachedEnvelope.eraseMessage, withMessages, List.length_eraseIdx, h.messageNamespace]
  · simp [CachedEnvelope.eraseMessage, withMessages, List.length_eraseIdx, h.messageType]

section Removal

variable {index : Nat} {c' : CachedEnvelope M}

/-- The slots of what is left, when the index is in the cache and the cache reaches the
last message. -/
theorem Inv.shifted {l : List (Option M)} (h : c.Inv registrar)
    (hi : index < c.envelope.message.length)
    (hmoved : Moved index (c.envelope.message.length - (index + 1)) c.messages l) :
    Inv registrar ⟨eraseMessage c.envelope index, l.set (c.envelope.message.length - 1) none⟩ := by
  refine ⟨Balanced.eraseMessage h.balanced index, fun j m hm => ?_⟩
  dsimp only at hm ⊢
  rw [List.getElem?_set] at hm
  split at hm
  · split at hm <;> cases hm
  · rename_i hlast
    rw [hmoved.getElem?_eq] at hm
    rw [decodeMessage_eraseMessage]
    by_cases hbehind : index ≤ j ∧ j < c.envelope.message.length - 1
    · rw [if_pos (by omega)] at hm
      rw [if_neg (by omega)]
      exact h.cached (j + 1) m hm
    · rw [if_neg (by omega)] at hm
      have hdecode := h.cached j m hm
      -- no message that is cached is behind the last one
      have hj : j < c.envelope.message.length := by
        by_contra hge
        rw [decodeMessage_of_length_le (Nat.le_of_not_lt hge)] at hdecode
        cases hdecode
      rw [if_pos (by omega)]
      exact hdecode

/-- The slots of what is left, when the cache ends before the index. -/
theorem Inv.kept (h : c.Inv registrar) (hend : c.messages.length ≤ index) :
    Inv registrar ⟨eraseMessage c.envelope index, c.messages⟩ := by
  refine ⟨Balanced.eraseMessage h.balanced index, fun j m hm => ?_⟩
  dsimp only at hm ⊢
  obtain ⟨hj, -⟩ := List.getElem?_eq_some_iff.mp hm
  rw [decodeMessage_eraseMessage, if_pos (by omega)]
  exact h.cached j m hm

/-- **`RemoveMessage`** takes the message away and keeps the cache coherent, unless the
cache ends between the index and the last message. -/
theorem removeMessageAt_spec (h : c.Inv registrar) (hfit : ¬ c.EndsBetween index) :
    (c.removeMessageAt index).1 = .ok (decide (index < c.envelope.message.length)) ∧
      (c.removeMessageAt index).2.Inv registrar ∧
      (c.removeMessageAt index).2.envelope = eraseMessage c.envelope index := by
  rw [removeMessageAt]
  by_cases hi : c.envelope.message.length < index + 1
  · rw [if_pos hi, decide_eq_false (by omega)]
    refine ⟨rfl, h, ?_⟩
    have hns := h.balanced.messageNamespace
    have htype := h.balanced.messageType
    rw [eraseMessage, withMessages, List.eraseIdx_of_length_le (by omega), List.eraseIdx_of_length_le (by omega),
      List.eraseIdx_of_length_le (by omega)]
  · rw [if_neg hi, decide_eq_true (by omega)]
    have hns := h.balanced.messageNamespace
    have htype := h.balanced.messageType
    rw [EndsBetween] at hfit
    -- the messages behind move down by one, and then the last one is removed
    obtain ⟨c', hrun, hmoved⟩ := (movedTo_zero index c).moveSlots h.balanced
      (c.envelope.message.length - (index + 1)) (by omega) (fun _ => by omega)
    rw [Nat.add_zero] at hrun
    rw [Nat.zero_add] at hmoved
    rw [hrun]
    dsimp only
    have hlength := hmoved.length_messages
    have hne : ¬ (c'.envelope.message.isEmpty ∨ c'.envelope.messageNamespace.isEmpty ∨
        c'.envelope.messageType.isEmpty) := by
      simp only [List.isEmpty_iff_length_eq_zero, hmoved.message.length_eq,
        hmoved.messageNamespace.length_eq, hmoved.messageType.length_eq]
      omega
    rw [removeLast, if_neg hne, hmoved.message.dropLast_eq (by omega),
      hmoved.messageNamespace.dropLast_eq (by omega), hmoved.messageType.dropLast_eq (by omega)]
    have henvelope := hmoved.rest (c.envelope.message.eraseIdx index)
      (c.envelope.messageNamespace.eraseIdx index) (c.envelope.messageType.eraseIdx index)
    dsimp only [withMessages] at henvelope ⊢
    rw [henvelope]
    refine ⟨rfl, ?_, rfl⟩
    -- the cache has a slot for the removed message, or ends in front of it
    rcases Nat.lt_or_ge index c.messages.length with hslots | hsame
    · have hne : ¬ c'.messages.isEmpty = true := by
        rw [List.isEmpty_iff_length_eq_zero]
        omega
      rw [if_pos ⟨hne, by omega⟩]
      exact h.shifted (by omega) (hmoved.slots hslots)
    · rw [if_neg (fun hset => absurd hset.2 (by omega)), hmoved.same hsame]
      exact h.kept hsame

/-- Otherwise the slot behind the cache is read. -/
theorem removeMessageAt_error (h : c.Inv registrar) (hends : c.EndsBetween index) :
    (c.removeMessageAt index).1 = .error .undefinedBehavior := by
  rw [removeMessageAt, if_neg (by
    obtain ⟨hslots, hshort⟩ := hends
    omega), moveSlots_error h.balanced hends]

end Removal

end CachedEnvelope

/-! ## Runs -/

namespace EnvelopeHeap

open CachedEnvelope

variable {M : Type} {registrar : Registrar M} {s : EnvelopeHeap M}

/-- What a call may return: a message is the one that is decoded at that moment. -/
def Meets (registrar : Registrar M) (s : EnvelopeHeap M) (r : Except Fault (Returned M)) : Op → Prop
  | .getMessage x index => r ≠ .error .undefinedBehavior ∧
      (0 ≤ index →
        r = .ok (.message ((s x).envelope.decodeMessage registrar index.toNatClampNeg)))
  | _ => r ≠ .error .undefinedBehavior

/-- Every call of a run returns what it may return. -/
def Coherent (registrar : Registrar M) : EnvelopeHeap M → List Op → Prop
  | _, [] => True
  | s, op :: ops => Meets registrar s (step registrar s op).1 op ∧
      Coherent registrar (step registrar s op).2 ops

/-- The index is not the largest `int`, and where a message is removed the cache does not
end between the index and the last message. -/
def Safe (s : EnvelopeHeap M) : Op → Prop
  | .getMessage _ index => index ≠ Int32.maxValue
  | .copyMessage _ index _ => index ≠ Int32.maxValue
  | .removeMessage x index => index ≠ Int32.maxValue ∧
      (0 ≤ index → ¬ (s x).EndsBetween index.toNatClampNeg)
  | _ => True

/-- Every call of a run is safe in the state it is made in. -/
def SafeRun (registrar : Registrar M) : EnvelopeHeap M → List Op → Prop
  | _, [] => True
  | s, op :: ops => Safe s op ∧ SafeRun registrar (step registrar s op).2 ops

/-- The caches of a program. -/
def Inv (registrar : Registrar M) (s : EnvelopeHeap M) : Prop :=
  ∀ x, (s x).Inv registrar

theorem inv_fresh (f : Nat → BalancedEnvelope) : Inv registrar (fresh f) :=
  fun x => inv_empty (f x).property

theorem Inv.set (h : Inv registrar s) {x : Nat} {c : CachedEnvelope M} (hc : c.Inv registrar) :
    Inv registrar (s.set x c) := by
  intro y
  rw [EnvelopeHeap.set]
  split
  · exact hc
  · exact h y

theorem checkIndex_ok {index : Int32} (hmax : index ≠ Int32.maxValue) (hneg : ¬ index < 0) :
    checkIndex index = .ok index.toNatClampNeg := by
  rw [checkIndex, if_neg hneg, if_neg hmax]

theorem checkIndex_max : checkIndex Int32.maxValue = .error .undefinedBehavior := by decide

/-- What is returned is what decodes, from the cache or not, and is in the cache then. -/
theorem step_getMessage (h : Inv registrar s) (x : Nat) {index : Int32}
    (hmax : index ≠ Int32.maxValue) :
    Meets registrar s (step registrar s (.getMessage x index)).1 (.getMessage x index) ∧
      Inv registrar (step registrar s (.getMessage x index)).2 := by
  dsimp only [step, Meets]
  rw [getMessage]
  by_cases hneg : index < 0
  · rw [checkIndex, if_pos hneg]
    refine ⟨⟨by simp [Except.map], fun hle => ?_⟩, h.set (h x)⟩
    exact absurd hneg (Int32.not_lt.mpr hle)
  · rw [checkIndex_ok hmax hneg]
    dsimp only
    obtain ⟨hreturned, hinv⟩ := getMessageAt_spec (h x) index.toNatClampNeg
    rw [hreturned]
    exact ⟨⟨by simp [Except.map], fun _ => rfl⟩, h.set hinv⟩

/-- What is behind the removed message moves down in the lists and in the cache alike. -/
theorem step_removeMessage (h : Inv registrar s) (x : Nat) {index : Int32}
    (hsafe : Safe s (.removeMessage x index)) :
    Meets registrar s (step registrar s (.removeMessage x index)).1 (.removeMessage x index) ∧
      Inv registrar (step registrar s (.removeMessage x index)).2 := by
  obtain ⟨hmax, hfit⟩ := hsafe
  dsimp only [step, Meets]
  rw [removeMessage]
  by_cases hneg : index < 0
  · rw [checkIndex, if_pos hneg]
    exact ⟨by simp [Except.map], h.set (h x)⟩
  · rw [checkIndex_ok hmax hneg]
    dsimp only
    obtain ⟨hreturned, hinv, -⟩ := removeMessageAt_spec (h x) (hfit (Int32.not_lt.mp hneg))
    rw [hreturned]
    exact ⟨by simp [Except.map], h.set hinv⟩

/-- **Step lemma**: a safe call returns what it may and keeps the caches. -/
theorem step_safe (h : Inv registrar s) (op : Op) (hsafe : Safe s op) :
    Meets registrar s (step registrar s op).1 op ∧ Inv registrar (step registrar s op).2 := by
  cases op with
  | construct x e => exact ⟨by simp [step, Meets], h.set (inv_empty e.property)⟩
  | copyConstruct x orig => exact ⟨by simp [step, Meets], h.set (inv_empty (h orig).balanced)⟩
  | assign x orig =>
    refine ⟨by simp [step, Meets], ?_⟩
    dsimp only [step]
    split
    · exact h
    · exact h.set (inv_empty (h orig).balanced)
  | addMessage x buffer ns enumeration =>
    exact ⟨by simp [step, Meets], h.set ((h x).addMessage buffer ns enumeration)⟩
  | getMessage x index => exact step_getMessage h x hsafe
  | copyMessage x index dest =>
    obtain ⟨hreturned, hinv⟩ := copyMessage_spec (h x) (h dest) hsafe
    refine ⟨fun hub => hreturned ?_, h.set hinv⟩
    dsimp only [step] at hub
    cases hcopy : ((s x).copyMessage index (s dest)).1 with
    | error f =>
      rw [hcopy] at hub
      cases hub
      rfl
    | ok b =>
      rw [hcopy] at hub
      cases hub
  | removeMessage x index => exact step_removeMessage h x hsafe
  | clear x => exact ⟨by simp [step, Meets], h.set (inv_empty ⟨rfl, rfl⟩)⟩
  | parseFromCodedInputStream x parsed =>
    exact ⟨by simp [step, Meets], h.set (inv_empty parsed.property)⟩

/-- A call that is not safe has undefined behaviour. -/
theorem not_meets_of_not_safe (h : Inv registrar s) (op : Op) (hsafe : ¬ Safe s op) :
    ¬ Meets registrar s (step registrar s op).1 op := by
  cases op with
  | getMessage x index =>
    rw [Safe, not_not] at hsafe
    subst hsafe
    intro hmeets
    refine hmeets.1 ?_
    dsimp only [step]
    rw [getMessage, checkIndex_max]
    rfl
  | copyMessage x index dest =>
    rw [Safe, not_not] at hsafe
    subst hsafe
    intro hmeets
    refine hmeets ?_
    dsimp only [step]
    rw [copyMessage, checkIndex_max]
    rfl
  | removeMessage x index =>
    intro hmeets
    refine hmeets ?_
    dsimp only [step]
    rw [removeMessage]
    by_cases hmax : index = Int32.maxValue
    · rw [hmax, checkIndex_max]
      rfl
    · simp only [Safe, not_and, not_forall, not_not] at hsafe
      obtain ⟨hneg, hends⟩ := hsafe hmax
      rw [checkIndex_ok hmax (Int32.not_lt.mpr hneg)]
      dsimp only
      rw [removeMessageAt_error (h x) hends]
      rfl
  | _ => exact absurd trivial hsafe

/-- By induction on the calls: a call that is not safe is not coherent, and one that is keeps the
invariant. -/
theorem coherent_iff_of_inv (h : Inv registrar s) (ops : List Op) :
    Coherent registrar s ops ↔ SafeRun registrar s ops := by
  induction ops generalizing s with
  | nil => exact Iff.rfl
  | cons op ops ih =>
    by_cases hsafe : Safe s op
    · obtain ⟨hmeets, hinv⟩ := step_safe h op hsafe
      rw [Coherent, SafeRun, ih hinv]
      exact ⟨fun hrun => ⟨hsafe, hrun.2⟩, fun hrun => ⟨hmeets, hrun.2⟩⟩
    · exact ⟨fun hrun => absurd hrun.1 (not_meets_of_not_safe h op hsafe), fun hrun => absurd hrun.1 hsafe⟩

/-- **Coherence of the cache**: in a run of calls on new envelopes every call returns what it would
return without a cache, and leaves the lists as it would, exactly when every call is safe: no index
is the largest `int`, and no message is removed behind which, but in front of the last one, the
cache ends. -/
theorem coherent_iff_safeRun (registrar : Registrar M) (f : Nat → BalancedEnvelope)
    (ops : List Op) :
    Coherent registrar (fresh f) ops ↔ SafeRun registrar (fresh f) ops :=
  coherent_iff_of_inv (inv_fresh f) ops

/-- A second message is added after the first was asked for. -/
theorem not_coherent_removeMessage :
    ¬ Coherent MessageRegistrar.registrar (fresh fun _ => ⟨{}, rfl, rfl⟩)
      [.addMessage 0 (some []) 1 1, .getMessage 0 0, .addMessage 0 (some []) 1 1,
        .removeMessage 0 0] := by
  intro hrun
  exact hrun.2.2.2.1 rfl

end EnvelopeHeap

end Zippylog
