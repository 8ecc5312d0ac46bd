import Zippylog.Envelope
import Zippylog.Wire.Reencoding

/-!
# Envelopes that are read behind their version byte

A protocol message is a version byte and an envelope (`ToProtocolZmqMessage`), and
a reader has to skip that byte. One that does not reads the byte 1 as a tag, of a
fixed64 field with number zero. The library does not refuse that number, so the
eight bytes that follow are an unknown field, and the message may well parse.

It never parses as the envelope that was written, though
(`Envelope.parse_toProtocolZmqMessage_ne`). What is parsed can be longer than its
serialised form, but not lighter (`Envelope.shrinks_serialize`), and with the
version byte in front an envelope is one byte longer and lighter than without.
-/

namespace Wire

theorem allWithin_decodeFields {depth : Nat} {limited : List Nat} {bs : Bytes} {fs : List Field}
    (h : decodeFields depth limited bs = some fs) : AllWithin depth fs := by
  have hitems : ∀ {uss : List Bytes} {gs : List Field}, Items (readField depth) uss gs →
      AllWithin depth gs := by
    intro uss gs hi
    induction hi with
    | nil => exact fun f hf => absurd hf List.not_mem_nil
    | cons hus _ ih => exact List.forall_mem_cons.mpr ⟨within_of_readField hus.apply, ih⟩
  obtain ⟨uss, gs, hi, ⟨-, rfl⟩ | ⟨rest, f, -, -, hcut, -, rfl⟩⟩ :=
    (streaming_readField depth).items_of_parseAll (progress_readField depth) (Nat.le_refl _) h
  · exact hitems hi
  · refine allWithin_append.mpr ⟨hitems hi, List.forall_mem_singleton.mpr ?_⟩
    obtain ⟨-, payload, hvalue⟩ := readCut_eq_some hcut
    rw [Field.Within, hvalue]
    rfl

end Wire

namespace Zippylog

open Wire

namespace ActorInfo

theorem mem_of_known {n wt : Nat} (h : known n wt = true) : n ∈ [1, 2, 3, 4, 5, 6] := by
  unfold known at h
  split at h <;> simp_all

/-- An actor that was parsed can be written back in its place. -/
theorem shrinks_serialize {bs : Bytes} {a : ActorInfo} (hbs : bs.length < 2 ^ 32)
    (h : parse bs = some a) : Shrinks 0 bs a.serialize := by
  obtain ⟨fs, hfs, rfl⟩ := Option.map_eq_some_iff.mp h
  have hdepth := allWithin_decodeFields hfs
  refine (shrinks_decodeFields hbs hfs).trans ?_
  have hall : ∀ f ∈ fs, memberOf known f ∈ [1, 2, 3, 4, 5, 6, 0] := fun f _ =>
    memberOf_mem mem_of_known f
  have hmembers : Shrinks 0 (encodeFields ([1, 2, 3, 4, 5, 6, 0].map fun m =>
      fieldsOf known m fs).flatten) (ofFields fs).serialize := by
    simp only [List.map_cons, List.map_nil, List.flatten_cons, List.flatten_nil, List.append_nil,
      encodeFields_append, serialize, toFields, List.append_assoc]
    refine Shrinks.append (j := 0) (k := 0) ?_ <| Shrinks.append (j := 0) (k := 0) ?_ <|
      Shrinks.append (j := 0) (k := 0) ?_ <| Shrinks.append (j := 0) (k := 0) ?_ <|
      Shrinks.append (j := 0) (k := 0) ?_ <| Shrinks.append (j := 0) (k := 0) ?_ ?_
    · rw [fieldsOf_varint (h := by decide) (by decide)]
      exact shrinks_uint64Field (by decide) _
    · rw [fieldsOf_varint (h := by decide) (by decide)]
      exact shrinks_uint64Field (by decide) _
    · rw [fieldsOf_bytes (h := by decide) (by decide)]
      exact shrinks_bytesField (by decide) (by decide) _
    · rw [fieldsOf_bytes (h := by decide) (by decide)]
      exact shrinks_bytesField (by decide) (by decide) _
    · rw [fieldsOf_bytes (h := by decide) (by decide)]
      exact shrinks_bytesField (by decide) (by decide) _
    · rw [fieldsOf_bytes (h := by decide) (by decide)]
      exact shrinks_bytesField (by decide) (by decide) _
    · rw [fieldsOf_zero (fun _ => rfl) hdepth]
      exact Shrinks.refl _
  exact hmembers.perm (encodeFields_perm (perm_fieldsOf (by decide) hall))

end ActorInfo

namespace Envelope

theorem mem_of_known {n wt : Nat} (h : known n wt = true) : n ∈ [1, 2, 3, 4, 5, 6, 7, 8, 9] := by
  unfold known at h
  split at h <;> simp_all

theorem forall₂_of_mapM {α β : Type} {g : α → Option β} :
    ∀ {as : List α} {bs : List β}, as.mapM g = some bs →
      List.Forall₂ (fun a b => g a = some b) as bs
  | [], _, h => by
    cases h
    exact .nil
  | a :: as, _, h => by
    rw [List.mapM_cons] at h
    obtain ⟨b, hb, hrest⟩ := Option.bind_eq_some_iff.mp h
    obtain ⟨bs, hbs, he⟩ := Option.bind_eq_some_iff.mp hrest
    cases he
    exact .cons hb (forall₂_of_mapM hbs)

/-- The actors of an envelope. -/
theorem shrinks_actors {bss : List Bytes} {actors : List ActorInfo}
    (hlt : (encodeFields (bytesFields 7 bss)).length < 2 ^ 32)
    (h : bss.mapM ActorInfo.parse = some actors) :
    Shrinks 0 (encodeFields (bytesFields 7 bss))
      (encodeFields (bytesFields 7 (actors.map ActorInfo.serialize))) := by
  have hparse := forall₂_of_mapM h
  clear h
  refine shrinks_bytesFields ?_
  induction hparse with
  | nil => exact .nil
  | @cons bs a bss actors ha _ ih =>
    rw [show bytesFields 7 (bs :: bss) = Field.ofScalar 7 (.bytes bs) (by decide) ::
        bytesFields 7 bss from rfl, encodeFields_cons, encode_bytes, List.length_append,
      List.length_append, List.length_append] at hlt
    have hbs : bs.length < 2 ^ 32 := by omega
    exact .cons ⟨hbs, ActorInfo.shrinks_serialize hbs ha⟩ (ih (by omega))

/-- **An envelope that was parsed** can be written back in place of its bytes. Two of
them are added at most, one for each of the two lists that may have been written
element by element and are written packed. -/
theorem shrinks_serialize {bs : Bytes} {e : Envelope} (hbs : bs.length < 2 ^ 32)
    (h : parse bs = some e) : Shrinks 2 bs e.serialize := by
  obtain ⟨fs, hfs, he⟩ := Option.bind_eq_some_iff.mp h
  have hdepth := allWithin_decodeFields hfs
  have hread := shrinks_decodeFields hbs hfs
  refine hread.trans ?_
  obtain ⟨namespaces, hnamespaces, he⟩ := Option.bind_eq_some_iff.mp he
  obtain ⟨types, htypes, he⟩ := Option.bind_eq_some_iff.mp he
  obtain ⟨actors, hactors, he⟩ := Option.bind_eq_some_iff.mp he
  cases he
  have hall : ∀ f ∈ fs, memberOf known f ∈ [1, 2, 3, 4, 5, 6, 7, 8, 9, 0] := fun f _ =>
    memberOf_mem mem_of_known f
  -- the fields, sorted by the members that they belong to
  have hperm := encodeFields_perm (perm_fieldsOf (by decide) hall)
  have hlength := hperm.length_eq
  have hle := hread.length_le
  refine Shrinks.perm ?_ hperm
  simp only [List.map_cons, List.map_nil, List.flatten_cons, List.flatten_nil, List.append_nil,
    encodeFields_append, List.length_append] at hlength
  simp only [List.map_cons, List.map_nil, List.flatten_cons, List.flatten_nil, List.append_nil,
    encodeFields_append, serialize, toFields, List.append_assoc]
  have hpacked {m : Nat} {h : FieldNumber m} (hlo : 3 ≤ m) (hm : m < 16)
      (hk : ∀ wt < 8, known m wt = true ↔ wt = 0 ∨ wt = 2) {xs : List UInt32}
      (hlt : (encodeFields (fieldsOf known m fs)).length < 2 ^ 32)
      (hxs : uint32s m fs = some xs) :
      Shrinks 1 (encodeFields (fieldsOf known m fs)) (encodeFields (packedField m xs h)) := by
    rw [← uint32s_fieldsOf hk (by omega)] at hxs
    refine (shrinks_packedField hlo hm (fun f hf => scalar_of_mem_fieldsOf hk hf) hlt hxs).2.mono ?_
    unfold slack
    split <;> omega
  -- member by member: each of the two packed lists can get one byte longer
  refine Shrinks.append (j := 0) (k := 2) ?_ <| Shrinks.append (j := 0) (k := 2) ?_ <|
    Shrinks.append (j := 1) (k := 1) ?_ <| Shrinks.append (j := 1) (k := 0) ?_ <|
    Shrinks.append (j := 0) (k := 0) ?_ <| Shrinks.append (j := 0) (k := 0) ?_ <|
    Shrinks.append (j := 0) (k := 0) ?_ <| Shrinks.append (j := 0) (k := 0) ?_ <|
    Shrinks.append (j := 0) (k := 0) ?_ ?_
  · rw [fieldsOf_varint (h := by decide) (by decide)]
    exact shrinks_uint32Field (by decide) _
  · rw [fieldsOf_bytes (h := by decide) (by decide)]
    exact Shrinks.refl _
  · exact hpacked (by decide) (by decide) (by decide) (by omega) hnamespaces
  · exact hpacked (by decide) (by decide) (by decide) (by omega) htypes
  · rw [fieldsOf_varint (h := by decide) (by decide)]
    exact shrinks_uint64Field (by decide) _
  · rw [fieldsOf_bytes (h := by decide) (by decide)]
    exact Shrinks.refl _
  · rw [fieldsOf_bytes (m := 7) (h := by decide) (by decide)] at hlength ⊢
    exact shrinks_actors (by omega) hactors
  · rw [fieldsOf_varint (h := by decide) (by decide)]
    exact shrinks_uint64Field (by decide) _
  · rw [fieldsOf_bytes (h := by decide) (by decide)]
    exact shrinks_bytesField (by decide) (by decide) _
  · rw [fieldsOf_zero (fun _ => rfl) hdepth]
    exact Shrinks.refl _

/-- **The version byte** is not read past: no envelope comes back from behind it. -/
theorem parse_toProtocolZmqMessage_ne {e : Envelope} (h : e.serialize.length < 2 ^ 31) :
    parse e.toProtocolZmqMessage ≠ some e := by
  intro he
  have hlength : e.toProtocolZmqMessage.length = e.serialize.length + 1 := List.length_cons
  have hshrinks := shrinks_serialize (by omega) he
  have hone : byteWeight 1 = -2 := by decide
  have hweight : weight e.toProtocolZmqMessage = -2 + weight e.serialize := by
    rw [toProtocolZmqMessage, weight_cons, hone]
  rcases hshrinks.weight_le with hle | hle <;> omega

end Envelope

end Zippylog
