import Mathlib.Algebra.BigOperators.Group.List.Basic
import Zippylog.Wire.Members

/-!
# Writing back what was read

A reader of the wire format takes more than a writer writes: varints with bytes
that are not needed, values that are truncated, scalar fields that come twice. To
write a message back is then to write other bytes than those that were read, and
this module bounds how they can differ.

The bound is in terms of a *weight*, a sum over the bytes. It is chosen so that

- a varint does not gain weight when it is written again, or when a smaller value
  is written for it (`weight_encodeVarint_le`, `weight_encodeVarint_mono`);
- two lists that are written as one do not gain weight by that
  (`weight_encodeVarint_add_le`);
- a byte below 4 weighs less than nothing, so to have one more of them in front of
  a message is to have less weight.

`Shrinks k bs bs'` says that `bs'` can stand for `bs`: it is at most `k` bytes
longer, and it does not weigh more or has lost a whole field. `shrinks_decodeFields`
is the result for the fields of a message; the last byte of the story, that no
message with a byte in front of it reads as that message, is told where messages
are.

Inputs are shorter than `2 ^ 32` bytes here, as those of the library are, so every
length is a `ReadVarint32`.
-/

namespace Wire

/-! ## Weights -/

/-- What a byte weighs: twelve where it continues a varint, and where it ends one half
of its value, up to twelve, less two. -/
def byteWeight (b : UInt8) : Int :=
  if b.toNat < 128 then min (b.toNat / 2 : Nat) 12 - 2 else 12

def weight (bs : Bytes) : Int := (bs.map byteWeight).sum

@[simp] theorem weight_nil : weight [] = 0 := rfl

@[simp] theorem weight_cons (b : UInt8) (bs : Bytes) :
    weight (b :: bs) = byteWeight b + weight bs := by
  rw [weight, List.map_cons, List.sum_cons]
  rfl

@[simp] theorem weight_append (bs bs' : Bytes) : weight (bs ++ bs') = weight bs + weight bs' := by
  rw [weight, List.map_append, List.sum_append]
  rfl

theorem weight_perm {bs bs' : Bytes} (h : bs.Perm bs') : weight bs = weight bs' :=
  (h.map byteWeight).sum_eq

theorem byteWeight_ofNat {n : Nat} (h : n < 128) :
    byteWeight (UInt8.ofNat n) = min (n / 2 : Nat) 12 - 2 := by
  rw [byteWeight, toNat_ofNat_of_lt (by omega), if_pos h]

theorem byteWeight_of_ge {b : UInt8} (h : ¬ b.toNat < 128) : byteWeight b = 12 := if_neg h

theorem byteWeight_ofNat_of_ge {n : Nat} (h : 128 ≤ n) (h' : n < 256) :
    byteWeight (UInt8.ofNat n) = 12 :=
  byteWeight_of_ge (by rw [toNat_ofNat_of_lt h']; omega)

theorem neg_two_le_byteWeight (b : UInt8) : -2 ≤ byteWeight b := by
  unfold byteWeight
  split <;> omega

/-- The lightest bytes there are. -/
theorem neg_two_mul_length_le_weight (bs : Bytes) : -2 * (bs.length : Int) ≤ weight bs := by
  induction bs with
  | nil => simp
  | cons b bs ih =>
    have := neg_two_le_byteWeight b
    rw [weight_cons, List.length_cons]
    omega

/-! ## Varints -/

theorem weight_encodeVarint_of_lt {n : Nat} (h : n < 128) :
    weight (encodeVarint n) = min (n / 2 : Nat) 12 - 2 := by
  rw [encodeVarint_of_lt h, weight_cons, weight_nil, byteWeight_ofNat h, add_zero]

theorem weight_encodeVarint_of_ge {n : Nat} (h : 128 ≤ n) :
    weight (encodeVarint n) = 12 + weight (encodeVarint (n / 128)) := by
  rw [encodeVarint_of_ge h, weight_cons, byteWeight_ofNat_of_ge (by omega) (by omega)]

theorem length_encodeVarint_of_lt {n : Nat} (h : n < 128) : (encodeVarint n).length = 1 := by
  rw [encodeVarint_of_lt h]
  rfl

theorem length_encodeVarint_of_ge {n : Nat} (h : 128 ≤ n) :
    (encodeVarint n).length = (encodeVarint (n / 128)).length + 1 := by
  rw [encodeVarint_of_ge h, List.length_cons]

theorem neg_two_le_weight_encodeVarint (n : Nat) : -2 ≤ weight (encodeVarint n) := by
  induction n using Nat.strongRecOn with
  | ind n ih =>
    by_cases h : n < 128
    · rw [weight_encodeVarint_of_lt h]
      omega
    · have := ih (n / 128) (by omega)
      rw [weight_encodeVarint_of_ge (Nat.le_of_not_lt h)]
      omega

/-- One more weighs at most one more, and is at most as long as one byte more. -/
theorem encodeVarint_succ (n : Nat) :
    weight (encodeVarint (n + 1)) ≤ weight (encodeVarint n) + 1 ∧
      (encodeVarint (n + 1)).length ≤ (encodeVarint n).length + 1 := by
  induction n using Nat.strongRecOn with
  | ind n ih =>
    by_cases h : n < 128
    · by_cases h' : n + 1 < 128
      · rw [weight_encodeVarint_of_lt h, weight_encodeVarint_of_lt h',
          length_encodeVarint_of_lt h, length_encodeVarint_of_lt h']
        omega
      · rw [weight_encodeVarint_of_ge (Nat.le_of_not_lt h'), weight_encodeVarint_of_lt h,
          length_encodeVarint_of_ge (Nat.le_of_not_lt h'), length_encodeVarint_of_lt h,
          weight_encodeVarint_of_lt (by omega), length_encodeVarint_of_lt (by omega)]
        omega
    · rw [weight_encodeVarint_of_ge (by omega : 128 ≤ n + 1),
        weight_encodeVarint_of_ge (Nat.le_of_not_lt h),
        length_encodeVarint_of_ge (by omega : 128 ≤ n + 1),
        length_encodeVarint_of_ge (Nat.le_of_not_lt h)]
      obtain ⟨hweight, hlength⟩ := ih (n / 128) (by omega)
      rcases (by omega : (n + 1) / 128 = n / 128 ∨ (n + 1) / 128 = n / 128 + 1) with hdiv | hdiv
      · rw [hdiv]
        omega
      · rw [hdiv]
        omega

/-- A smaller value weighs no more, and is no longer. -/
theorem encodeVarint_mono {m n : Nat} (h : m ≤ n) :
    weight (encodeVarint m) ≤ weight (encodeVarint n) ∧
      (encodeVarint m).length ≤ (encodeVarint n).length := by
  induction n using Nat.strongRecOn generalizing m with
  | ind n ih =>
    by_cases hn : n < 128
    · rw [weight_encodeVarint_of_lt hn, weight_encodeVarint_of_lt (by omega),
        length_encodeVarint_of_lt hn, length_encodeVarint_of_lt (by omega)]
      omega
    · have hn' := Nat.le_of_not_lt hn
      rw [weight_encodeVarint_of_ge hn', length_encodeVarint_of_ge hn']
      by_cases hm : m < 128
      · have := neg_two_le_weight_encodeVarint (n / 128)
        rw [weight_encodeVarint_of_lt hm, length_encodeVarint_of_lt hm]
        omega
      · obtain ⟨hweight, hlength⟩ := ih (n / 128) (by omega) (Nat.div_le_div_right h)
        rw [weight_encodeVarint_of_ge (Nat.le_of_not_lt hm),
          length_encodeVarint_of_ge (Nat.le_of_not_lt hm)]
        omega

/-- A sum weighs at most ten more than its terms, which is what the tag of one more
list weighs, and is no longer than both. -/
theorem encodeVarint_add (m n : Nat) :
    weight (encodeVarint (m + n)) ≤ weight (encodeVarint m) + weight (encodeVarint n) + 10 ∧
      (encodeVarint (m + n)).length ≤ (encodeVarint m).length + (encodeVarint n).length := by
  induction m using Nat.strongRecOn generalizing n with
  | ind m ih =>
    -- the carry of the last seven bits
    have hsucc {k : Nat} (hk : k ≤ 1) (j : Nat) :
        weight (encodeVarint (j + k)) ≤ weight (encodeVarint j) + 1 ∧
          (encodeVarint (j + k)).length ≤ (encodeVarint j).length + 1 := by
      rcases (by omega : k = 0 ∨ k = 1) with rfl | rfl
      · rw [Nat.add_zero]
        omega
      · exact encodeVarint_succ j
    by_cases hm : m < 128
    · by_cases hn : n < 128
      · rw [weight_encodeVarint_of_lt hm, weight_encodeVarint_of_lt hn,
          length_encodeVarint_of_lt hm, length_encodeVarint_of_lt hn]
        -- two bytes come to one, or to one with a carry
        by_cases h : m + n < 128
        · rw [weight_encodeVarint_of_lt h, length_encodeVarint_of_lt h]
          omega
        · rw [weight_encodeVarint_of_ge (Nat.le_of_not_lt h),
            length_encodeVarint_of_ge (Nat.le_of_not_lt h),
            weight_encodeVarint_of_lt (by omega), length_encodeVarint_of_lt (by omega)]
          omega
      · have hdiv : (m + n) / 128 = n / 128 + ((m + n) / 128 - n / 128) := by omega
        obtain ⟨hweight, hlength⟩ :=
          hsucc (k := (m + n) / 128 - n / 128) (by omega) (n / 128)
        have := neg_two_le_weight_encodeVarint m
        rw [weight_encodeVarint_of_ge (by omega : 128 ≤ m + n),
          length_encodeVarint_of_ge (by omega : 128 ≤ m + n),
          weight_encodeVarint_of_ge (Nat.le_of_not_lt hn),
          length_encodeVarint_of_ge (Nat.le_of_not_lt hn), length_encodeVarint_of_lt hm, hdiv]
        omega
    · have hm' := Nat.le_of_not_lt hm
      rw [weight_encodeVarint_of_ge (by omega : 128 ≤ m + n),
        length_encodeVarint_of_ge (by omega : 128 ≤ m + n), weight_encodeVarint_of_ge hm',
        length_encodeVarint_of_ge hm']
      by_cases hn : n < 128
      · have hdiv : (m + n) / 128 = m / 128 + ((m + n) / 128 - m / 128) := by omega
        obtain ⟨hweight, hlength⟩ :=
          hsucc (k := (m + n) / 128 - m / 128) (by omega) (m / 128)
        have := neg_two_le_weight_encodeVarint n
        rw [length_encodeVarint_of_lt hn, hdiv]
        omega
      -- both go on: the induction is on what is behind the last seven bits
      · have hn' := Nat.le_of_not_lt hn
        have hdiv : (m + n) / 128 =
            m / 128 + n / 128 + ((m + n) / 128 - (m / 128 + n / 128)) := by omega
        obtain ⟨hweight, hlength⟩ :=
          hsucc (k := (m + n) / 128 - (m / 128 + n / 128)) (by omega) (m / 128 + n / 128)
        obtain ⟨hweight', hlength'⟩ := ih (m / 128) (by omega) (n / 128)
        rw [weight_encodeVarint_of_ge hn', length_encodeVarint_of_ge hn', hdiv]
        omega

/-- No varint of a value weighs less, or is shorter, than the one that is written. -/
theorem Item.encodeVarint_le : ∀ {us : Bytes} {n : Nat}, Item decodeVarint us n →
    weight (encodeVarint n) ≤ weight us ∧ (encodeVarint n).length ≤ us.length
  | [], n, h => by
    have := h []
    cases this
  | b :: us, n, h => by
    have hb := b.toNat_lt
    have happly := h.apply
    rw [decodeVarint] at happly
    split at happly
    · rename_i hlt
      cases happly
      rw [encodeVarint_of_lt hlt, UInt8.ofNat_toNat]
      exact ⟨Int.le_refl _, Nat.le_refl _⟩
    · rename_i hge
      obtain ⟨⟨m, rest⟩, hd, he⟩ := Option.map_eq_some_iff.mp happly
      cases he
      obtain ⟨vs, hvs, hi⟩ := streaming_decodeVarint hd
      rw [List.append_nil] at hvs
      subst hvs
      obtain ⟨hweight, hlength⟩ := Item.encodeVarint_le hi
      have hlow := neg_two_le_weight_encodeVarint m
      rw [weight_cons, List.length_cons, byteWeight_of_ge hge]
      by_cases hn : b.toNat - 128 + 128 * m < 128
      · rw [weight_encodeVarint_of_lt hn, length_encodeVarint_of_lt hn]
        omega
      · rw [weight_encodeVarint_of_ge (Nat.le_of_not_lt hn),
          length_encodeVarint_of_ge (Nat.le_of_not_lt hn),
          show (b.toNat - 128 + 128 * m) / 128 = m by omega]
        omega

/-! ## Bytes that can stand for others -/

/-- `bs'` can stand for `bs`: it is at most `k` bytes longer, and it weighs no more or
has lost a field. -/
structure Shrinks (k : Nat) (bs bs' : Bytes) : Prop where
  length_le : bs'.length ≤ bs.length + k
  weight_le : weight bs' ≤ weight bs ∨ bs'.length + 7 ≤ bs.length + k

theorem Shrinks.refl (bs : Bytes) : Shrinks 0 bs bs :=
  ⟨Nat.le_refl _, .inl (Int.le_refl _)⟩

theorem Shrinks.append {j k : Nat} {as as' bs bs' : Bytes} (ha : Shrinks j as as')
    (hb : Shrinks k bs bs') : Shrinks (j + k) (as ++ bs) (as' ++ bs') := by
  have hlen := ha.length_le
  have hlen' := hb.length_le
  refine ⟨by rw [List.length_append, List.length_append]; omega, ?_⟩
  rw [weight_append, weight_append, List.length_append, List.length_append]
  rcases ha.weight_le with hw | hw <;> rcases hb.weight_le with hw' | hw' <;> omega

theorem Shrinks.trans {k : Nat} {as bs cs : Bytes} (h : Shrinks 0 as bs) (h' : Shrinks k bs cs) :
    Shrinks k as cs := by
  have hlen := h.length_le
  have hlen' := h'.length_le
  refine ⟨by omega, ?_⟩
  rcases h.weight_le with hw | hw <;> rcases h'.weight_le with hw' | hw' <;> omega

theorem Shrinks.mono {j k : Nat} {bs bs' : Bytes} (h : Shrinks j bs bs') (hjk : j ≤ k) :
    Shrinks k bs bs' := by
  have hlen := h.length_le
  refine ⟨by omega, ?_⟩
  rcases h.weight_le with hw | hw <;> omega

theorem Shrinks.perm {k : Nat} {as bs cs : Bytes} (h : Shrinks k bs cs) (hp : as.Perm bs) :
    Shrinks k as cs := by
  refine ⟨?_, ?_⟩
  · rw [hp.length_eq]
    exact h.length_le
  · rw [hp.length_eq, weight_perm hp]
    exact h.weight_le

/-- A varint and a value that is no larger than its value. -/
theorem shrinks_of_decodeVarint {bs rest : Bytes} {m n : Nat}
    (h : decodeVarint bs = some (n, rest)) (hm : m ≤ n) :
    ∃ us, bs = us ++ rest ∧ Shrinks 0 us (encodeVarint m) := by
  obtain ⟨us, rfl, hi⟩ := streaming_decodeVarint h
  obtain ⟨hweight, hlength⟩ := hi.encodeVarint_le
  obtain ⟨hweight', hlength'⟩ := encodeVarint_mono hm
  exact ⟨us, rfl, by omega, .inl (by omega)⟩

/-! ## What the readers take -/

/-- What `p` takes off an input, `encode` of its value can stand for. -/
def Reencodes {α : Type} (p : Parser UInt8 α) (encode : α → Bytes) : Prop :=
  ∀ ⦃bs a rest⦄, bs.length < 2 ^ 32 → p bs = some (a, rest) →
    ∃ us, bs = us ++ rest ∧ Shrinks 0 us (encode a)

theorem reencodes_readTag : Reencodes readTag encodeVarint := by
  intro bs tag rest _ h
  obtain ⟨n, hn, htag⟩ := Parser.filterMap_eq_some_iff.mp h
  split at htag
  · cases htag
    exact shrinks_of_decodeVarint (Parser.within_eq_some_iff.mp hn).1 (Nat.mod_le _ _)
  · cases htag

theorem reencodes_readVarintValue : Reencodes readVarintValue Scalar.encode := by
  intro bs v rest _ h
  obtain ⟨n, hn, hv⟩ := Parser.filterMap_eq_some_iff.mp h
  cases hv
  obtain ⟨k, hk, hn⟩ := Parser.filterMap_eq_some_iff.mp hn
  cases hn
  refine shrinks_of_decodeVarint (Parser.within_eq_some_iff.mp hk).1 ?_
  rw [UInt64.toNat_ofNat']
  exact Nat.mod_le _ _

theorem append_of_take {n : Nat} {bs us rest : Bytes} (h : Parser.take n bs = some (us, rest)) :
    bs = us ++ rest ∧ us.length = n := by
  unfold Parser.take at h
  split at h
  · rename_i hn
    cases h
    exact ⟨(List.take_append_drop n bs).symm, List.length_take_of_le hn⟩
  · cases h

theorem reencodes_readFixed64 : Reencodes readFixed64 Scalar.encode := by
  intro bs v rest _ h
  obtain ⟨us, hus, hv⟩ := Parser.filterMap_eq_some_iff.mp h
  split at hv
  · cases hv
    exact ⟨us, (append_of_take hus).1, Shrinks.refl us⟩
  · cases hv

theorem reencodes_readFixed32 : Reencodes readFixed32 Scalar.encode := by
  intro bs v rest _ h
  obtain ⟨us, hus, hv⟩ := Parser.filterMap_eq_some_iff.mp h
  split at hv
  · cases hv
    exact ⟨us, (append_of_take hus).1, Shrinks.refl us⟩
  · cases hv

/-- A length of more than ten bytes is too large for the input. -/
theorem reencodes_readBytes : Reencodes readBytes Scalar.encode := by
  intro bs v rest hbs h
  obtain ⟨n, bs', hn, h⟩ := Parser.bind_eq_some_iff.mp h
  obtain ⟨payload, hpayload, hv⟩ := Parser.filterMap_eq_some_iff.mp h
  cases hv
  obtain ⟨rfl, rfl⟩ := append_of_take hpayload
  obtain ⟨⟨j, k⟩, hk, hlength⟩ := Parser.filterMap_eq_some_iff.mp hn
  obtain ⟨hd, -⟩ := Parser.counted_eq_some_iff.mp hk
  have hle : payload.length ≤ k := by
    dsimp only at hlength
    split at hlength
    · rw [← Option.some.inj hlength]
      exact Nat.mod_le _ _
    · split at hlength
      · exact Nat.le_of_eq (Option.some.inj hlength).symm
      · cases hlength
  obtain ⟨us, rfl, hus⟩ := shrinks_of_decodeVarint hd hle
  have hlt : payload.length < 2 ^ 32 := by
    rw [List.length_append, List.length_append] at hbs
    omega
  refine ⟨us ++ payload, (List.append_assoc ..).symm, ?_⟩
  rw [Scalar.encode, encodeLength_of_lt hlt]
  exact hus.append (Shrinks.refl payload)

/-- A varint that is written again is not longer than it was, and the fixed widths are the same. -/
theorem reencodes_readScalar (wt : Nat) : Reencodes (readScalar wt) Scalar.encode := by
  unfold readScalar
  split
  · exact reencodes_readVarintValue
  split
  · exact reencodes_readFixed64
  split
  · exact reencodes_readBytes
  split
  · exact reencodes_readFixed32
  · intro bs v rest _ h
    cases h

/-- The tags of a group and what is between them, tag by tag. -/
theorem reencodes_readGroup (limit : Nat) :
    ∀ (fuel : Nat) (nums : List Nat), Reencodes (readGroup limit fuel nums) encodeTokens
  | _, [] => by
    intro bs ts rest _ h
    rw [readGroup] at h
    cases h
    exact ⟨[], rfl, Shrinks.refl []⟩
  | 0, _ :: _ => by
    intro bs ts rest _ h
    rw [readGroup] at h
    cases h
  | fuel + 1, num :: nums => by
    intro bs ts rest hbs h
    obtain ⟨tag, bs', htag, hread⟩ := readGroup_succ_iff.mp h
    obtain ⟨us, rfl, hus⟩ := reencodes_readTag hbs htag
    rw [List.length_append] at hbs
    obtain ⟨h4, hnum, ts', hts, rfl⟩ | ⟨h3, -, ts', hts, rfl⟩ |
      ⟨h4, h3, v, bs'', ts', hv, hts, rfl⟩ := hread
    · obtain ⟨vs, rfl, hvs⟩ := reencodes_readGroup limit fuel _ (by omega) hts
      refine ⟨us ++ vs, (List.append_assoc ..).symm, ?_⟩
      rw [show tag = num * 8 + 4 by omega] at hus
      exact hus.append hvs
    · obtain ⟨vs, rfl, hvs⟩ := reencodes_readGroup limit fuel _ (by omega) hts
      refine ⟨us ++ vs, (List.append_assoc ..).symm, ?_⟩
      rw [show tag = tag / 8 * 8 + 3 by omega] at hus
      exact hus.append hvs
    · have hwt := wireType_of_readScalar hv
      obtain ⟨ws, rfl, hws⟩ := reencodes_readScalar _ (by omega) hv
      rw [List.length_append] at hbs
      obtain ⟨vs, rfl, hvs⟩ := reencodes_readGroup limit fuel _ (by omega) hts
      refine ⟨us ++ ws ++ vs, by rw [List.append_assoc, List.append_assoc], ?_⟩
      rw [show tag = tag / 8 * 8 + v.wireType by omega] at hus
      exact (hus.append hws).append hvs

/-- And so are values, groups among them. -/
theorem reencodes_readValue (limit num wt : Nat) :
    Reencodes (readValue limit num wt) WireValue.encode := by
  intro bs v rest hbs h
  unfold readValue at h
  split at h
  · split at h
    · obtain ⟨ts, hts, hv⟩ := Parser.filterMap_eq_some_iff.mp h
      cases hv
      exact reencodes_readGroup limit _ _ hbs hts
    · cases h
  · obtain ⟨v, hv, he⟩ := Parser.filterMap_eq_some_iff.mp h
    cases he
    exact reencodes_readScalar wt hbs hv

/-- And fields: the tag is a varint too. -/
theorem reencodes_readField (depth : Nat) : Reencodes (readField depth) Field.encode := by
  intro bs f rest hbs h
  obtain ⟨tag, bs', htag, hread⟩ := Parser.bind_eq_some_iff.mp h
  obtain ⟨v, hv, hf⟩ := Parser.filterMap_eq_some_iff.mp hread
  obtain ⟨hwt, -⟩ := nests_of_readValue hv
  obtain ⟨us, rfl, hus⟩ := reencodes_readTag hbs htag
  rw [List.length_append] at hbs
  obtain ⟨vs, rfl, hvs⟩ := reencodes_readValue _ _ _ (by omega) hv
  split at hf
  · cases hf
    refine ⟨us ++ vs, (List.append_assoc ..).symm, ?_⟩
    rw [show tag = tag / 8 * 8 + v.wireType by omega] at hus
    exact hus.append hvs
  · cases hf

/-- A field that is cut short has a smaller length when it is written again. -/
theorem shrinks_readCut {limited : List Nat} {bs : Bytes} {f : Field}
    (hbs : bs.length < 2 ^ 32) (h : readCut limited bs = some f) : Shrinks 0 bs f.encode := by
  obtain ⟨⟨tag, bs'⟩, htag, hlong⟩ := Option.bind_eq_some_iff.mp h
  obtain ⟨us, rfl, hus⟩ := reencodes_readTag hbs htag
  split at hlong
  · rename_i hlimited
    obtain ⟨⟨n, payload⟩, hn, hcut⟩ := Option.bind_eq_some_iff.mp hlong
    obtain ⟨k, hk, rfl, -⟩ := decodeVarint_of_readVarint32 hn
    split at hcut
    · rename_i hshort
      cases hcut
      have hle : payload.length ≤ k := by
        have hlt := hshort.1
        rw [UInt32.toNat_ofNat'] at hlt
        exact Nat.le_of_lt (Nat.lt_of_lt_of_le hlt (Nat.mod_le _ _))
      obtain ⟨vs, hvs, hlength⟩ := shrinks_of_decodeVarint hk hle
      dsimp only at hvs
      subst hvs
      have hlt : payload.length < 2 ^ 32 := by
        rw [List.length_append, List.length_append] at hbs
        omega
      have htwo : tag % 8 = 2 := hlimited.1
      rw [show tag = tag / 8 * 8 + 2 by omega] at hus
      have hencode := hus.append (hlength.append (Shrinks.refl payload))
      rw [← encodeLength_of_lt hlt] at hencode
      exact hencode
    · cases hcut
  · cases hlong

/-- **The fields of a message** can stand for the bytes they were read from. -/
theorem shrinks_decodeFields {depth : Nat} {limited : List Nat} {bs : Bytes} {fs : List Field}
    (hbs : bs.length < 2 ^ 32) (h : decodeFields depth limited bs = some fs) :
    Shrinks 0 bs (encodeFields fs) := by
  have hitems : ∀ {uss : List Bytes} {gs : List Field}, Items (readField depth) uss gs →
      uss.flatten.length < 2 ^ 32 → Shrinks 0 uss.flatten (encodeFields gs) := by
    intro uss gs hi hlt
    induction hi with
    | nil => exact Shrinks.refl []
    | @cons us g uss gs hus _ ih =>
      rw [List.flatten_cons, List.length_append] at hlt
      obtain ⟨vs, hvs, hg⟩ := reencodes_readField depth (by omega) hus.apply
      rw [List.append_nil] at hvs
      subst hvs
      exact hg.append (ih (by omega))
  obtain ⟨uss, gs, hi, ⟨rfl, rfl⟩ | ⟨rest, f, -, -, hcut, rfl, rfl⟩⟩ :=
    (streaming_readField depth).items_of_parseAll (progress_readField depth) (Nat.le_refl _) h
  · exact hitems hi hbs
  · rw [List.length_append] at hbs
    have hencode : encodeFields (gs ++ [f]) = encodeFields gs ++ f.encode := by
      simp [encodeFields]
    rw [hencode]
    exact (hitems hi (by omega)).append (shrinks_readCut (by omega) hcut)

/-! ## Members

The bytes of a message are those of its members, each with all the fields that belong
to it, and of its unknown fields. -/

theorem encodeFields_append (fs gs : List Field) :
    encodeFields (fs ++ gs) = encodeFields fs ++ encodeFields gs := by
  rw [encodeFields, List.map_append, List.flatten_append]
  rfl

theorem encodeFields_cons (f : Field) (fs : List Field) :
    encodeFields (f :: fs) = f.encode ++ encodeFields fs := rfl

/-- A tag of one byte. -/
theorem weight_tag (tag : Nat) (hlo : 8 ≤ tag) (hhi : tag < 128) :
    (encodeVarint tag).length = 1 ∧ 2 ≤ weight (encodeVarint tag) ∧
      (24 ≤ tag → weight (encodeVarint tag) = 10) := by
  rw [weight_encodeVarint_of_lt hhi, length_encodeVarint_of_lt hhi]
  omega

section Members

variable {m : Nat} {h : FieldNumber m}

theorem encode_varint (n : UInt64) :
    (Field.ofScalar m (.varint n) h).encode = encodeVarint (m * 8) ++ encodeVarint n.toNat := rfl

theorem encode_bytes (bs : Bytes) :
    (Field.ofScalar m (.bytes bs) h).encode =
      encodeVarint (m * 8 + 2) ++ (encodeLength bs.length ++ bs) := rfl

/-- A scalar member that came before can be left out. -/
theorem shrinks_varint_nil (hm : m < 16) (n : UInt64) :
    Shrinks 0 (Field.ofScalar m (.varint n) h).encode [] := by
  obtain ⟨-, hweight, -⟩ := weight_tag (m * 8) (by have := h.1; omega) (by omega)
  have := neg_two_le_weight_encodeVarint n.toNat
  refine ⟨Nat.zero_le _, .inl ?_⟩
  rw [encode_varint, weight_append, weight_nil]
  omega

/-- So can a string: one that weighs less than nothing is long. -/
theorem shrinks_bytes_nil (hlo : 3 ≤ m) (hm : m < 16) (bs : Bytes) :
    Shrinks 0 (Field.ofScalar m (.bytes bs) h).encode [] := by
  obtain ⟨hlength, -, hweight⟩ := weight_tag (m * 8 + 2) (by omega) (by omega)
  have hweight := hweight (by omega)
  have hpayload := neg_two_mul_length_le_weight bs
  refine ⟨Nat.zero_le _, ?_⟩
  rw [encode_bytes, weight_append, weight_append, weight_nil, List.length_append,
    List.length_append, List.length_nil]
  by_cases hshort : bs.length < 5
  · rw [encodeLength_of_lt (by omega)]
    have := neg_two_le_weight_encodeVarint bs.length
    exact .inl (by omega)
  · have := encodeLength_length_pos bs.length
    exact .inr (by omega)

theorem shrinks_varint {n n' : UInt64} (hn : n' ≤ n) :
    Shrinks 0 (Field.ofScalar m (.varint n) h).encode (Field.ofScalar m (.varint n') h).encode := by
  obtain ⟨hweight, hlength⟩ := encodeVarint_mono (UInt64.le_iff_toNat_le.mp hn)
  have hvalue : Shrinks 0 (encodeVarint n.toNat) (encodeVarint n'.toNat) :=
    ⟨hlength, .inl hweight⟩
  exact (Shrinks.refl _).append hvalue

theorem shrinks_bytes {bs bs' : Bytes} (hlt : bs.length < 2 ^ 32) (hbs : Shrinks 0 bs bs') :
    Shrinks 0 (Field.ofScalar m (.bytes bs) h).encode
      (Field.ofScalar m (.bytes bs') h).encode := by
  have hle := hbs.length_le
  obtain ⟨hweight, hlength⟩ := encodeVarint_mono hle
  have hlen : Shrinks 0 (encodeVarint bs.length) (encodeVarint bs'.length) :=
    ⟨hlength, .inl hweight⟩
  rw [encode_bytes, encode_bytes, encodeLength_of_lt hlt, encodeLength_of_lt (by omega)]
  exact (Shrinks.refl _).append (hlen.append hbs)

/-- Only the last of the fields is written again. -/
theorem shrinks_getLast? {α : Type} {field : α → Field}
    (hfield : ∀ a, Shrinks 0 (field a).encode []) :
    ∀ as : List α, Shrinks 0 (encodeFields (as.map field))
      (encodeFields (as.getLast?.toList.map field))
  | [] => Shrinks.refl []
  | [a] => Shrinks.refl _
  | a :: b :: as => by
    rw [List.getLast?_cons_cons, List.map_cons, encodeFields_cons]
    exact (hfield a).append (shrinks_getLast? hfield (b :: as))

theorem shrinks_uint64Field (hm : m < 16) (xs : List UInt64) :
    Shrinks 0 (encodeFields (varintFields m xs h)) (encodeFields (uint64Field m xs.getLast? h)) :=
  shrinks_getLast? (fun n => shrinks_varint_nil hm n) xs

theorem toUInt64_toUInt32_le (n : UInt64) : n.toUInt32.toUInt64 ≤ n := by
  rw [UInt64.le_iff_toNat_le, UInt32.toNat_toUInt64, UInt64.toNat_toUInt32]
  exact Nat.mod_le _ _

/-- A value that does not fit 32 bits is truncated. -/
theorem shrinks_uint32Field (hm : m < 16) (xs : List UInt64) :
    Shrinks 0 (encodeFields (varintFields m xs h))
      (encodeFields (uint32Field m (xs.getLast?.map UInt64.toUInt32) h)) := by
  refine (shrinks_uint64Field hm xs).trans ?_
  cases xs.getLast? with
  | none => exact Shrinks.refl []
  | some n =>
    exact (shrinks_varint (toUInt64_toUInt32_le n)).append (Shrinks.refl [])

theorem shrinks_bytesField (hlo : 3 ≤ m) (hm : m < 16) (bss : List Bytes) :
    Shrinks 0 (encodeFields (bytesFields m bss h)) (encodeFields (bytesField m bss.getLast? h)) :=
  shrinks_getLast? (fun bs => shrinks_bytes_nil hlo hm bs) bss

theorem shrinks_bytesFields {bss bss' : List Bytes}
    (hbss : List.Forall₂ (fun bs bs' => bs.length < 2 ^ 32 ∧ Shrinks 0 bs bs') bss bss') :
    Shrinks 0 (encodeFields (bytesFields m bss h)) (encodeFields (bytesFields m bss' h)) := by
  induction hbss with
  | nil => exact Shrinks.refl []
  | cons hb _ ih => exact (shrinks_bytes hb.1 hb.2).append ih

/-! ### Packed lists -/

/-- The elements of a packed list. -/
def packed (xs : List UInt32) : Bytes := (xs.map fun x => encodeVarint x.toNat).flatten

theorem packed_append (xs ys : List UInt32) : packed (xs ++ ys) = packed xs ++ packed ys := by
  rw [packed, List.map_append, List.flatten_append]
  rfl

theorem reencodes_readVarint32 : Reencodes readVarint32 fun x => encodeVarint x.toNat := by
  intro bs x rest _ h
  obtain ⟨k, hk, rfl, -⟩ := decodeVarint_of_readVarint32 h
  refine shrinks_of_decodeVarint hk ?_
  rw [UInt32.toNat_ofNat']
  exact Nat.mod_le _ _

/-- A packed list that is written again is not longer than it was. -/
theorem shrinks_packed {bs : Bytes} {xs : List UInt32} (hbs : bs.length < 2 ^ 32)
    (hxs : Parser.parseAll readVarint32 (fun _ => none) bs = some xs) :
    Shrinks 0 bs (packed xs) := by
  obtain ⟨uss, ys, hi, ⟨rfl, rfl⟩ | ⟨rest, x, -, -, hlast, -⟩⟩ :=
    streaming_readVarint32.items_of_parseAll progress_readVarint32 (Nat.le_refl _) hxs
  · clear hxs
    induction hi with
    | nil => exact Shrinks.refl []
    | @cons us y uss ys hus _ ih =>
      rw [List.flatten_cons, List.length_append] at hbs
      obtain ⟨vs, hvs, hy⟩ := reencodes_readVarint32 (by omega) hus.apply
      rw [List.append_nil] at hvs
      subst hvs
      exact hy.append (ih (by omega))
  · cases hlast

/-- The bytes in front of the elements. -/
def packedHeader (m length : Nat) : Bytes := encodeVarint (m * 8 + 2) ++ encodeVarint length

theorem encodeFields_packedField {xs : List UInt32} (hne : xs ≠ [])
    (hlt : (packed xs).length < 2 ^ 32) :
    encodeFields (packedField m xs h) = packedHeader m (packed xs).length ++ packed xs := by
  have hencode : encodeFields (packedField m xs h) =
      encodeVarint (m * 8 + 2) ++ (encodeLength (packed xs).length ++ packed xs) := by
    rw [packedField, if_neg hne]
    exact List.append_nil _
  rw [hencode, encodeLength_of_lt hlt, packedHeader, List.append_assoc]

/-- One header for two lists saves a byte, and weighs no more than the two. -/
theorem packedHeader_add (hlo : 3 ≤ m) (hm : m < 16) (j k : Nat) :
    (packedHeader m (j + k)).length + 1 ≤ (packedHeader m j).length + (packedHeader m k).length ∧
      weight (packedHeader m (j + k)) ≤ weight (packedHeader m j) + weight (packedHeader m k) := by
  obtain ⟨hlength, -, hweight⟩ := weight_tag (m * 8 + 2) (by omega) (by omega)
  have hweight := hweight (by omega)
  obtain ⟨hweight', hlength'⟩ := encodeVarint_add j k
  simp only [packedHeader, weight_append, List.length_append]
  omega

/-- The slack of a list: an element that stood alone gets the header of a list. -/
def slack (xs : List UInt32) : Nat := if xs = [] then 0 else 1

/-- An element that stood alone. -/
theorem shrinks_element (hlo : 3 ≤ m) (hm : m < 16) (n : UInt64) :
    (packed [n.toUInt32]).length ≤ (Field.ofScalar m (.varint n) h).encode.length ∧
      Shrinks 1 (Field.ofScalar m (.varint n) h).encode
        (encodeFields (packedField m [n.toUInt32] h)) := by
  obtain ⟨hlength, -, hweight⟩ := weight_tag (m * 8) (by omega) (by omega)
  obtain ⟨hlength', -, hweight'⟩ := weight_tag (m * 8 + 2) (by omega) (by omega)
  have hweight := hweight (by omega)
  have hweight' := hweight' (by omega)
  have helement : packed [n.toUInt32] = encodeVarint n.toUInt32.toNat := List.append_nil _
  have hle : n.toUInt32.toNat ≤ n.toNat := by
    rw [UInt64.toNat_toUInt32]
    exact Nat.mod_le _ _
  obtain ⟨hsmaller, hshorter⟩ := encodeVarint_mono hle
  have hfive : (encodeVarint n.toUInt32.toNat).length ≤ 5 :=
    encodeVarint_length_le (Nat.lt_trans n.toUInt32.toNat_lt (by decide))
  have hcount := weight_encodeVarint_of_lt
    (by omega : (encodeVarint n.toUInt32.toNat).length < 128)
  have hcount' := length_encodeVarint_of_lt
    (by omega : (encodeVarint n.toUInt32.toNat).length < 128)
  rw [encodeFields_packedField (List.cons_ne_nil _ _) (by rw [helement]; omega), helement,
    encode_varint]
  refine ⟨by rw [List.length_append]; omega, ?_, .inl ?_⟩
  · simp only [packedHeader, List.length_append]
    omega
  · simp only [packedHeader, weight_append]
    omega

/-- A list of elements. -/
theorem shrinks_list (hlo : 3 ≤ m) (hm : m < 16) {bs : Bytes} {xs : List UInt32}
    (hlt : (Field.ofScalar m (.bytes bs) h).encode.length < 2 ^ 32)
    (hxs : Parser.parseAll readVarint32 (fun _ => none) bs = some xs) :
    (packed xs).length ≤ (Field.ofScalar m (.bytes bs) h).encode.length ∧
      Shrinks 0 (Field.ofScalar m (.bytes bs) h).encode (encodeFields (packedField m xs h)) := by
  have hbs : bs.length < 2 ^ 32 := by
    rw [encode_bytes, List.length_append, List.length_append] at hlt
    omega
  have hpacked := shrinks_packed hbs hxs
  have hle := hpacked.length_le
  refine ⟨by rw [encode_bytes, List.length_append, List.length_append]; omega, ?_⟩
  by_cases hne : xs = []
  · subst hne
    exact shrinks_bytes_nil hlo hm bs
  · have hencode : encodeFields (packedField m xs h) =
        (Field.ofScalar m (.bytes (packed xs)) h).encode := by
      rw [packedField, if_neg hne]
      exact List.append_nil _
    rw [hencode]
    exact shrinks_bytes hbs hpacked

/-- The fields of a packed member are written as one. -/
theorem shrinks_packedField (hlo : 3 ≤ m) (hm : m < 16) :
    ∀ {fs : List Field} {xs : List UInt32},
      (∀ f ∈ fs, (∃ n, f = Field.ofScalar m (.varint n) h) ∨
        ∃ bs, f = Field.ofScalar m (.bytes bs) h) →
      (encodeFields fs).length < 2 ^ 32 → uint32s m fs = some xs →
      (packed xs).length ≤ (encodeFields fs).length ∧
        Shrinks (slack xs) (encodeFields fs) (encodeFields (packedField m xs h))
  | [], xs, _, _, hxs => by
    cases hxs
    exact ⟨Nat.le_refl _, Shrinks.refl []⟩
  | f :: fs, all, hf, hlt, hall => by
    obtain ⟨hhead, htail⟩ := List.forall_mem_cons.mp hf
    rw [encodeFields_cons, List.length_append] at hlt ⊢
    rw [uint32s] at hall
    obtain ⟨xs, hxs, hrest⟩ := Option.bind_eq_some_iff.mp hall
    obtain ⟨ys, hys, he⟩ := Option.bind_eq_some_iff.mp hrest
    cases he
    obtain ⟨hleft, hright⟩ := shrinks_packedField hlo hm htail (by omega) hys
    -- the first field alone: one element, or a list
    have hone : (packed xs).length ≤ f.encode.length ∧
        Shrinks (slack xs) f.encode (encodeFields (packedField m xs h)) := by
      rcases hhead with ⟨n, rfl⟩ | ⟨bs, rfl⟩
      · rw [uint32s?_varint] at hxs
        cases hxs
        exact shrinks_element hlo hm n
      · rw [uint32s?_bytes] at hxs
        obtain ⟨hle, hshrinks⟩ := shrinks_list hlo hm (by omega) hxs
        exact ⟨hle, hshrinks.mono (Nat.zero_le _)⟩
    have hlength : (packed (xs ++ ys)).length ≤ f.encode.length + (encodeFields fs).length := by
      rw [packed_append, List.length_append]
      omega
    refine ⟨hlength, ?_⟩
    by_cases hx : xs = []
    · -- nothing is added to the list of the other fields
      subst hx
      have hboth := hone.2.append hright
      rw [show slack [] = 0 from rfl, Nat.zero_add] at hboth
      exact hboth
    by_cases hy : ys = []
    · subst hy
      have hboth := hone.2.append hright
      rw [show packedField m [] h = [] from rfl, encodeFields_nil, List.append_nil] at hboth
      rw [List.append_nil]
      exact hboth
    · -- two lists with a header each become one
      have hboth := hone.2.append hright
      have hxy : xs ++ ys ≠ [] := fun hnil => hx (List.append_eq_nil_iff.mp hnil).1
      obtain ⟨hheader, hweight⟩ := packedHeader_add hlo hm (packed xs).length (packed ys).length
      rw [slack, if_neg hx, slack, if_neg hy,
        encodeFields_packedField hx (by omega), encodeFields_packedField hy (by omega)] at hboth
      have hboth_length := hboth.length_le
      have hboth_weight := hboth.weight_le
      rw [slack, if_neg hxy, encodeFields_packedField hxy (by omega), packed_append,
        List.length_append]
      simp only [List.length_append, weight_append] at hboth_length hboth_weight
      refine ⟨?_, ?_⟩
      · simp only [List.length_append]
        omega
      · simp only [List.length_append, weight_append]
        omega

end Members

/-! ### The members of a type -/

section Known

variable {known : Nat → Nat → Bool} {m : Nat} {h : FieldNumber m}

/-- The member that a field belongs to; zero for an unknown field. -/
def memberOf (known : Nat → Nat → Bool) (f : Field) : Nat :=
  if known f.num f.value.wireType then f.num else 0

/-- The fields of one member. -/
def fieldsOf (known : Nat → Nat → Bool) (m : Nat) (fs : List Field) : List Field :=
  fs.filter fun f => memberOf known f = m

theorem memberOf_mem {ms : List Nat} (hknown : ∀ {n wt}, known n wt = true → n ∈ ms) (f : Field) :
    memberOf known f ∈ ms ++ [0] := by
  unfold memberOf
  split
  · rename_i hk
    exact List.mem_append_left _ (hknown hk)
  · exact List.mem_append_right _ List.mem_cons_self

theorem fieldsOf_cons (f : Field) (fs : List Field) :
    fieldsOf known m (f :: fs) =
      if memberOf known f = m then f :: fieldsOf known m fs else fieldsOf known m fs := by
  simp [fieldsOf, List.filter_cons]

/-- Every field belongs to one of the members, or is unknown. -/
theorem perm_fieldsOf : ∀ {ms : List Nat} {fs : List Field}, ms.Nodup →
    (∀ f ∈ fs, memberOf known f ∈ ms) → fs.Perm (ms.map fun m => fieldsOf known m fs).flatten
  | [], [], _, _ => .nil
  | [], f :: fs, _, hall => absurd (hall f List.mem_cons_self) List.not_mem_nil
  | m :: ms, fs, hnodup, hall => by
    obtain ⟨hm, hnodup⟩ := List.nodup_cons.mp hnodup
    have hrest : ∀ f ∈ fs.filter (fun f => !decide (memberOf known f = m)),
        memberOf known f ∈ ms := by
      intro f hf
      obtain ⟨hf, hne⟩ := List.mem_filter.mp hf
      rw [Bool.not_eq_true', decide_eq_false_iff_not] at hne
      exact (List.mem_cons.mp (hall f hf)).resolve_left hne
    have hparts : ms.map (fun n => fieldsOf known n
        (fs.filter fun f => !decide (memberOf known f = m))) =
          ms.map fun n => fieldsOf known n fs := by
      refine List.map_congr_left fun n hn => ?_
      rw [fieldsOf, fieldsOf, List.filter_filter]
      refine List.filter_congr fun f _ => ?_
      have hne : n ≠ m := fun he => hm (he ▸ hn)
      by_cases hf : memberOf known f = n
      · have : memberOf known f ≠ m := by rwa [hf]
        simp [hf, hne]
      · simp [hf]
    have hperm := perm_fieldsOf hnodup hrest
    rw [hparts] at hperm
    rw [List.map_cons, List.flatten_cons]
    exact (List.filter_append_perm _ fs).symm.trans (hperm.append_left _)

theorem encodeFields_perm {fs gs : List Field} (hp : fs.Perm gs) :
    (encodeFields fs).Perm (encodeFields gs) :=
  (hp.map Field.encode).flatten

theorem ofScalar_eq {f : Field} {v : Scalar} (hnum : f.num = m) (hv : f.value = .scalar v) :
    f = Field.ofScalar m v h := by
  obtain ⟨num, value, hvalid⟩ := f
  subst hnum
  cases hv
  rfl

/-- A field of a member that is not packed has the number and the wire type of it. -/
theorem memberOf_eq_iff {f : Field} (hm : m ≠ 0) :
    memberOf known f = m ↔ f.num = m ∧ known m f.value.wireType = true := by
  unfold memberOf
  split
  · rename_i hk
    constructor
    · rintro rfl
      exact ⟨rfl, hk⟩
    · exact fun hf => hf.1
  · rename_i hk
    constructor
    · intro h0
      exact absurd h0.symm hm
    · rintro ⟨rfl, hf⟩
      exact absurd hf hk

theorem WireValue.wireType_eq_zero {v : WireValue} (hv : v.wireType = 0) :
    ∃ n, v = .scalar (.varint n) := by
  cases v with
  | scalar v =>
    cases v with
    | varint n => exact ⟨n, rfl⟩
    | _ => cases hv
  | group ts => cases hv

theorem WireValue.wireType_eq_two {v : WireValue} (hv : v.wireType = 2) :
    ∃ bs, v = .scalar (.bytes bs) := by
  cases v with
  | scalar v =>
    cases v with
    | bytes bs => exact ⟨bs, rfl⟩
    | _ => cases hv
  | group ts => cases hv

/-- The fields of a varint member are just its values. -/
theorem fieldsOf_varint (hk : ∀ wt < 8, known m wt = true ↔ wt = 0) (fs : List Field) :
    fieldsOf known m fs = varintFields m (varints m fs) h := by
  induction fs with
  | nil => rfl
  | cons f fs ih =>
    rw [fieldsOf_cons, ih]
    have hmember : memberOf known f = m ↔ f.num = m ∧ known m f.value.wireType = true :=
      memberOf_eq_iff (Nat.ne_of_gt h.1)
    rw [hk _ f.value.wireType_lt] at hmember
    by_cases hf : memberOf known f = m
    · obtain ⟨hnum, hwt⟩ := hmember.mp hf
      obtain ⟨n, hv⟩ := WireValue.wireType_eq_zero hwt
      have hvarint : f.varint? m = some n := by
        rw [Field.varint?, if_pos hnum, hv]
      have hvarints : varints m (f :: fs) = n :: varints m fs := List.filterMap_cons_some hvarint
      rw [if_pos hf, hvarints, ofScalar_eq (h := h) hnum hv]
      rfl
    · have hvarint : f.varint? m = none := by
        unfold Field.varint?
        split
        · rename_i hnum
          split
          · rename_i hv
            exact absurd (hmember.mpr ⟨hnum, by rw [hv]; rfl⟩) hf
          · rfl
        · rfl
      have hvarints : varints m (f :: fs) = varints m fs := List.filterMap_cons_none hvarint
      rw [if_neg hf, hvarints]

/-- The fields of a length-delimited member are just its values. -/
theorem fieldsOf_bytes (hk : ∀ wt < 8, known m wt = true ↔ wt = 2) (fs : List Field) :
    fieldsOf known m fs = bytesFields m (byteStrings m fs) h := by
  induction fs with
  | nil => rfl
  | cons f fs ih =>
    rw [fieldsOf_cons, ih]
    have hmember : memberOf known f = m ↔ f.num = m ∧ known m f.value.wireType = true :=
      memberOf_eq_iff (Nat.ne_of_gt h.1)
    rw [hk _ f.value.wireType_lt] at hmember
    by_cases hf : memberOf known f = m
    · obtain ⟨hnum, hwt⟩ := hmember.mp hf
      obtain ⟨bs, hv⟩ := WireValue.wireType_eq_two hwt
      have hbytes : f.bytes? m = some bs := by
        rw [Field.bytes?, if_pos hnum, hv]
      have hstrings : byteStrings m (f :: fs) = bs :: byteStrings m fs :=
        List.filterMap_cons_some hbytes
      rw [if_pos hf, hstrings, ofScalar_eq (h := h) hnum hv]
      rfl
    · have hbytes : f.bytes? m = none := by
        unfold Field.bytes?
        split
        · rename_i hnum
          split
          · rename_i hv
            exact absurd (hmember.mpr ⟨hnum, by rw [hv]; rfl⟩) hf
          · rfl
        · rfl
      have hstrings : byteStrings m (f :: fs) = byteStrings m fs :=
        List.filterMap_cons_none hbytes
      rw [if_neg hf, hstrings]

/-- A packed member is read from its fields alone. -/
theorem uint32s_fieldsOf (hk : ∀ wt < 8, known m wt = true ↔ wt = 0 ∨ wt = 2)
    (hm : m ≠ 0) (fs : List Field) : uint32s m (fieldsOf known m fs) = uint32s m fs := by
  induction fs with
  | nil => rfl
  | cons f fs ih =>
    have hmember : memberOf known f = m ↔ f.num = m ∧ known m f.value.wireType = true :=
      memberOf_eq_iff hm
    rw [hk _ f.value.wireType_lt] at hmember
    rw [fieldsOf_cons]
    split
    · rw [uint32s, uint32s, ih]
    · rename_i hf
      have hnone : f.uint32s? m = some [] := by
        unfold Field.uint32s?
        split
        · rename_i hnum
          split
          · rename_i hv
            exact absurd (hmember.mpr ⟨hnum, .inl (by rw [hv]; rfl)⟩) hf
          · rename_i hv
            exact absurd (hmember.mpr ⟨hnum, .inr (by rw [hv]; rfl)⟩) hf
          · rfl
        · rfl
      rw [ih, uint32s, hnone]
      cases uint32s m fs <;> rfl

/-- A repeated member has fields of two kinds: varints and packed lists. -/
theorem scalar_of_mem_fieldsOf (hk : ∀ wt < 8, known m wt = true ↔ wt = 0 ∨ wt = 2)
    {fs : List Field} {f : Field} (hf : f ∈ fieldsOf known m fs) :
    (∃ n, f = Field.ofScalar m (.varint n) h) ∨ ∃ bs, f = Field.ofScalar m (.bytes bs) h := by
  have hmember : memberOf known f = m ↔ f.num = m ∧ known m f.value.wireType = true :=
    memberOf_eq_iff (Nat.ne_of_gt h.1)
  rw [hk _ f.value.wireType_lt] at hmember
  obtain ⟨hnum, hwt | hwt⟩ := hmember.mp (of_decide_eq_true (List.mem_filter.mp hf).2)
  · obtain ⟨n, hv⟩ := WireValue.wireType_eq_zero hwt
    exact .inl ⟨n, ofScalar_eq hnum hv⟩
  · obtain ⟨bs, hv⟩ := WireValue.wireType_eq_two hwt
    exact .inr ⟨bs, ofScalar_eq hnum hv⟩

/-- The unknown fields, all of them and in order. -/
theorem fieldsOf_zero {depth : Nat} (hk : ∀ wt, known 0 wt = false) {fs : List Field}
    (hfs : AllWithin depth fs) :
    fieldsOf known 0 fs = UnknownField.toFields (unknownFields depth known fs) := by
  induction fs with
  | nil => rfl
  | cons f fs ih =>
    obtain ⟨hf, hfs⟩ := List.forall_mem_cons.mp hfs
    have hzero : memberOf known f = 0 ↔ known f.num f.value.wireType = false := by
      unfold memberOf
      split
      · rename_i hknown
        constructor
        · intro hnum
          rw [hnum, hk] at hknown
          cases hknown
        · intro hfalse
          rw [hknown] at hfalse
          cases hfalse
      · rename_i hknown
        exact iff_of_true rfl (Bool.eq_false_iff.mpr hknown)
    rw [fieldsOf_cons, ih hfs]
    by_cases hunknown : known f.num f.value.wireType = false
    · have hcons : unknownFields depth known (f :: fs) =
          ⟨f, hunknown, hf⟩ :: unknownFields depth known fs :=
        List.filterMap_cons_some (dif_pos ⟨hunknown, hf⟩)
      rw [if_pos (hzero.mpr hunknown), hcons]
      rfl
    · have hcons : unknownFields depth known (f :: fs) = unknownFields depth known fs :=
        List.filterMap_cons_none (dif_neg fun hboth => hunknown hboth.1)
      rw [if_neg (hzero.not.mpr hunknown), hcons]

end Known

end Wire
