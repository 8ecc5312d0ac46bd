import Zippylog.Wire.Streaming
import Mathlib.Algebra.Order.Ring.Nat
import Mathlib.Tactic.Linarith

/-!
# Base-128 varints

A varint is written seven bits a byte, lowest first, every byte but the last
with its high bit set. `decodeVarint` reads one of any length; the fixed-width
readers add the ten-byte limit and the truncation of the wire format.

- `item_encodeVarint`: what is written is read back, whatever follows;
- `encodeVarint_length_le`, `lt_encodeVarint_length`: how many bytes it takes;
- `item_readLength`: the same for the length of a string.

Nothing in the library is as long as 4 GiB, so a length is a `ReadVarint32` there.
Here a byte string may have any length. `encodeLength` and `readLength` are the
library's on every length below `2 ^ 32`, and on longer ones, which the library
never meets, they use an encoding of more than ten bytes, which `ReadVarint32`
refuses. Round trips then need no bound on what is written.
-/

namespace Wire

/-- Byte strings (`std::string`, buffers, file contents). -/
abbrev Bytes := List UInt8

/-- `encodeVarint` with a bound on the number of continuation bytes. -/
def encodeVarintAux : Nat → Nat → Bytes
  | 0, n => [UInt8.ofNat n]
  | k + 1, n =>
    if n < 128 then [UInt8.ofNat n]
    else UInt8.ofNat (n % 128 + 128) :: encodeVarintAux k (n / 128)

/-- The varint of `n`. -/
def encodeVarint (n : Nat) : Bytes := encodeVarintAux n.log2 n

/-- The varint at the front of the input; `none` when the input ends in it. -/
def decodeVarint : Parser UInt8 Nat
  | [] => none
  | b :: bs =>
    if b.toNat < 128 then some (b.toNat, bs)
    else (decodeVarint bs).map fun nr => (b.toNat - 128 + 128 * nr.1, nr.2)

/-- `CodedInputStream::ReadVarint64`: at most ten bytes, truncated to 64 bits. -/
def readVarint64 : Parser UInt8 UInt64 :=
  (decodeVarint.within 10).filterMap fun n => some (UInt64.ofNat n)

/-- `CodedInputStream::ReadVarint32`: at most ten bytes, truncated to 32 bits. -/
def readVarint32 : Parser UInt8 UInt32 :=
  (decodeVarint.within 10).filterMap fun n => some (UInt32.ofNat n)

/-- The varint of `n` with `k` bytes in front of the last ones, needed or not. -/
def padVarint : Nat → Nat → Bytes
  | 0, n => encodeVarint n
  | k + 1, n => UInt8.ofNat (n % 128 + 128) :: padVarint k (n / 128)

/-- The length of a byte string, as `WriteVarint32` writes it; more than ten bytes
for a length that does not fit 32 bits. -/
def encodeLength (n : Nat) : Bytes := if n < 2 ^ 32 then encodeVarint n else padVarint 10 n

/-- The length of a byte string, as `ReadVarint32` reads it: at most ten bytes,
truncated to 32 bits. What the library refuses is the encoding of a longer length. -/
def readLength : Parser UInt8 Nat :=
  decodeVarint.counted.filterMap fun kn =>
    if kn.1 ≤ 10 then some (kn.2 % 2 ^ 32) else if 2 ^ 32 ≤ kn.2 then some kn.2 else none

/-! ## Writing -/

theorem toNat_ofNat_of_lt {n : Nat} (h : n < 256) : (UInt8.ofNat n).toNat = n := by
  rw [UInt8.toNat_ofNat']
  exact Nat.mod_eq_of_lt h

theorem lt_pow_log2 (n : Nat) : n < 128 ^ (n.log2 + 1) :=
  calc n < 2 ^ (n.log2 + 1) := Nat.lt_log2_self
    _ ≤ 128 ^ (n.log2 + 1) := Nat.pow_le_pow_left (by omega) _

theorem div_lt_pow {n k : Nat} (h : n < 128 ^ (k + 1 + 1)) : n / 128 < 128 ^ (k + 1) := by
  rw [Nat.div_lt_iff_lt_mul (by omega)]
  rwa [Nat.pow_succ] at h

/-- The bound does not matter once it is large enough. -/
theorem encodeVarintAux_eq : ∀ {k j n : Nat}, n < 128 ^ (k + 1) → n < 128 ^ (j + 1) →
    encodeVarintAux k n = encodeVarintAux j n
  | 0, 0, _, _, _ => rfl
  | 0, j + 1, n, hk, _ => by
    have hn : n < 128 := by simpa using hk
    rw [encodeVarintAux, encodeVarintAux, if_pos hn]
  | k + 1, 0, n, _, hj => by
    have hn : n < 128 := by simpa using hj
    rw [encodeVarintAux, encodeVarintAux, if_pos hn]
  | k + 1, j + 1, n, hk, hj => by
    rw [encodeVarintAux, encodeVarintAux,
      encodeVarintAux_eq (div_lt_pow hk) (div_lt_pow hj)]

theorem encodeVarint_of_lt {n : Nat} (h : n < 128) : encodeVarint n = [UInt8.ofNat n] := by
  rw [encodeVarint, encodeVarintAux_eq (j := 0) (lt_pow_log2 n) (by simpa using h)]
  rfl

theorem encodeVarint_of_ge {n : Nat} (h : 128 ≤ n) :
    encodeVarint n = UInt8.ofNat (n % 128 + 128) :: encodeVarint (n / 128) := by
  have hn : n < 128 ^ ((n / 128).log2 + 1 + 1) := by
    have := lt_pow_log2 (n / 128)
    rw [Nat.div_lt_iff_lt_mul (by omega)] at this
    rwa [Nat.pow_succ]
  rw [encodeVarint, encodeVarintAux_eq (lt_pow_log2 n) hn, encodeVarintAux,
    if_neg (by omega)]
  rfl

theorem encodeVarint_ne_nil (n : Nat) : encodeVarint n ≠ [] := by
  by_cases h : n < 128
  · simp [encodeVarint_of_lt h]
  · simp [encodeVarint_of_ge (Nat.le_of_not_lt h)]

theorem encodeVarint_length_pos (n : Nat) : 0 < (encodeVarint n).length :=
  List.length_pos_iff.mpr (encodeVarint_ne_nil n)

/-- `k` bytes are enough for a value below `128 ^ k`. -/
theorem encodeVarint_length_le : ∀ {k n : Nat}, n < 128 ^ (k + 1) →
    (encodeVarint n).length ≤ k + 1
  | 0, n, h => by
    rw [encodeVarint_of_lt (by simpa using h)]
    rfl
  | k + 1, n, h => by
    by_cases hn : n < 128
    · rw [encodeVarint_of_lt hn, List.length_singleton]
      omega
    · rw [encodeVarint_of_ge (Nat.le_of_not_lt hn), List.length_cons]
      have := encodeVarint_length_le (div_lt_pow h)
      omega

/-- `k` bytes are too few for a value from `128 ^ k` on. -/
theorem lt_encodeVarint_length : ∀ {k n : Nat}, 128 ^ k ≤ n → k < (encodeVarint n).length
  | 0, n, _ => encodeVarint_length_pos n
  | k + 1, n, h => by
    have hk : 128 ^ k ≤ n / 128 := by
      rw [Nat.le_div_iff_mul_le (by omega)]
      rwa [Nat.pow_succ] at h
    have hn : 128 ≤ n := by
      have := Nat.one_le_pow k 128 (by omega)
      rw [Nat.pow_succ] at h
      omega
    rw [encodeVarint_of_ge hn, List.length_cons]
    have := lt_encodeVarint_length hk
    omega

/-- The number of bytes of a varint, between two powers of 128. -/
theorem encodeVarint_length_eq {k n : Nat} (hlo : 128 ^ k ≤ n) (hhi : n < 128 ^ (k + 1)) :
    (encodeVarint n).length = k + 1 := by
  have h1 := encodeVarint_length_le hhi
  have h2 := lt_encodeVarint_length hlo
  omega

theorem encodeVarint_length_le_ten {n : Nat} (h : n < 2 ^ 64) : (encodeVarint n).length ≤ 10 :=
  encodeVarint_length_le (Nat.lt_of_lt_of_le h (by norm_num))

/-! ## Reading -/

theorem streaming_decodeVarint : Streaming decodeVarint := by
  intro xs
  induction xs with
  | nil =>
    intro n r h
    cases h
  | cons b bs ih =>
    intro n r h
    rw [decodeVarint] at h
    split at h
    · rename_i hb
      simp only [Option.some.injEq, Prod.mk.injEq] at h
      obtain ⟨rfl, rfl⟩ := h
      refine ⟨[b], rfl, fun t => ?_⟩
      rw [List.singleton_append, decodeVarint, if_pos hb]
    · rename_i hb
      obtain ⟨⟨m, s⟩, hd, he⟩ := Option.map_eq_some_iff.mp h
      simp only [Prod.mk.injEq] at he
      obtain ⟨rfl, rfl⟩ := he
      obtain ⟨us, hus, hi⟩ := ih hd
      refine ⟨b :: us, by rw [hus, List.cons_append], fun t => ?_⟩
      rw [List.cons_append, decodeVarint, if_neg hb, hi t]
      rfl

/-- What `encodeVarint` writes, `decodeVarint` reads, whatever follows. -/
theorem item_encodeVarint (n : Nat) : Item decodeVarint (encodeVarint n) n := by
  induction n using Nat.strongRecOn with
  | ind n ih =>
    intro t
    by_cases h : n < 128
    · rw [encodeVarint_of_lt h, List.singleton_append, decodeVarint,
        toNat_ofNat_of_lt (by omega), if_pos h]
    · have hb : (UInt8.ofNat (n % 128 + 128)).toNat = n % 128 + 128 :=
        toNat_ofNat_of_lt (by omega)
      rw [encodeVarint_of_ge (Nat.le_of_not_lt h), List.cons_append, decodeVarint, hb,
        if_neg (by omega), ih (n / 128) (by omega) t]
      show some (n % 128 + 128 - 128 + 128 * (n / 128), t) = some (n, t)
      rw [Nat.add_sub_cancel, Nat.mod_add_div]

/-- No encoding of a value is shorter than that of `encodeVarint`. -/
theorem length_encodeVarint_le {bs : Bytes} : ∀ {n : Nat} {rest : Bytes},
    decodeVarint bs = some (n, rest) → (encodeVarint n).length + rest.length ≤ bs.length := by
  induction bs with
  | nil => exact fun h => nomatch h
  | cons b bs ih =>
    intro n rest h
    rw [decodeVarint] at h
    split at h
    · rename_i hb
      cases h
      rw [encodeVarint_of_lt hb, List.length_singleton, List.length_cons, Nat.add_comm]
    · rename_i hb
      obtain ⟨⟨m, rest'⟩, hd, he⟩ := Option.map_eq_some_iff.mp h
      cases he
      have hm : (encodeVarint m).length + rest'.length ≤ bs.length := ih hd
      have hlt := b.toNat_lt
      show _ + rest'.length ≤ bs.length + 1
      by_cases hn : b.toNat - 128 + 128 * m < 128
      · have := encodeVarint_length_pos m
        rw [encodeVarint_of_lt hn, List.length_singleton]
        omega
      · rw [encodeVarint_of_ge (Nat.le_of_not_lt hn), List.length_cons,
          show (b.toNat - 128 + 128 * m) / 128 = m by omega]
        omega

theorem decodeVarint_of_readVarint32 {bs : Bytes} {n : UInt32} {rest : Bytes}
    (h : readVarint32 bs = some (n, rest)) :
    ∃ k, decodeVarint bs = some (k, rest) ∧ n = UInt32.ofNat k ∧ bs.length - rest.length ≤ 10 := by
  obtain ⟨k, hk, hn⟩ := Parser.filterMap_eq_some_iff.mp h
  cases hn
  obtain ⟨hd, hlen⟩ := Parser.within_eq_some_iff.mp hk
  exact ⟨k, hd, rfl, hlen⟩

theorem streaming_readVarint64 : Streaming readVarint64 :=
  (streaming_decodeVarint.within 10).filterMap _

theorem streaming_readVarint32 : Streaming readVarint32 :=
  (streaming_decodeVarint.within 10).filterMap _

theorem progress_readVarint32 : Progress readVarint32 := rfl

theorem item_readVarint64 {n : Nat} (h : n < 2 ^ 64) :
    Item readVarint64 (encodeVarint n) (UInt64.ofNat n) :=
  ((item_encodeVarint n).within (encodeVarint_length_le_ten h)).filterMap rfl

theorem item_readVarint32 {n : Nat} (h : n < 2 ^ 64) :
    Item readVarint32 (encodeVarint n) (UInt32.ofNat n) :=
  ((item_encodeVarint n).within (encodeVarint_length_le_ten h)).filterMap rfl

/-! ## Lengths of byte strings -/

theorem item_padVarint : ∀ (k n : Nat), Item decodeVarint (padVarint k n) n
  | 0, n => item_encodeVarint n
  | k + 1, n => by
    intro t
    have hb : (UInt8.ofNat (n % 128 + 128)).toNat = n % 128 + 128 := toNat_ofNat_of_lt (by omega)
    rw [padVarint, List.cons_append, decodeVarint, hb, if_neg (by omega),
      item_padVarint k (n / 128) t]
    show some (n % 128 + 128 - 128 + 128 * (n / 128), t) = some (n, t)
    rw [Nat.add_sub_cancel, Nat.mod_add_div]

theorem lt_padVarint_length : ∀ (k n : Nat), k < (padVarint k n).length
  | 0, n => encodeVarint_length_pos n
  | k + 1, n => by
    rw [padVarint, List.length_cons]
    exact Nat.succ_lt_succ (lt_padVarint_length k _)

theorem encodeLength_of_lt {n : Nat} (h : n < 2 ^ 32) : encodeLength n = encodeVarint n := if_pos h

theorem encodeLength_length_pos (n : Nat) : 0 < (encodeLength n).length := by
  unfold encodeLength
  split
  · exact encodeVarint_length_pos n
  · have := lt_padVarint_length 10 n
    omega

theorem streaming_readLength : Streaming readLength :=
  streaming_decodeVarint.counted.filterMap _

/-- A length is read back, whatever follows. -/
theorem item_readLength (n : Nat) : Item readLength (encodeLength n) n := by
  unfold encodeLength
  split
  · rename_i h
    have hlen := encodeVarint_length_le_ten (Nat.lt_trans h (by decide))
    refine (item_encodeVarint n).counted.filterMap ?_
    rw [if_pos hlen, Nat.mod_eq_of_lt h]
  · rename_i h
    have hlen := lt_padVarint_length 10 n
    refine (item_padVarint 10 n).counted.filterMap ?_
    rw [if_neg (Nat.not_le.mpr hlen), if_pos (Nat.le_of_not_lt h)]

example : encodeVarint 300 = [0xac, 0x02] := by decide

end Wire
