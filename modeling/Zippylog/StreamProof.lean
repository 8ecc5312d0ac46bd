import Zippylog.Stream

/-!
# Reading a stream

What `ReadEnvelope` does in front of a record, and from it what a whole run of reads does. A call
that finds a size read ahead goes on with it, any other reads one; then it pushes the size as a
limit, has the envelope parsed up to there, and pops the limit again. Between two calls the coded
stream may have been made anew, so what is carried through a run is not the stream itself but where
it stands.

- `InputStream.At`: where a stream stands, whether or not the size of the next
  record was read ahead; `Meter` is the state of its byte limit;
- `InputStream.At.readEnvelope`: the step lemma, for a complete record;
- `InputStream.At.readsAll`: the run lemma, for a log of complete records;
- `InputStream.At.readEnvelope_torn`: the step lemma for a record cut short.
-/

namespace Zippylog

open Wire

/-! ## Sizes -/

/-- `bytes_read` of a record whose body has `n` bytes. -/
def bytesReadOf (n : Nat) : Nat := (InputStream.bytesRead (UInt32.ofNat n)).toNat

theorem toNat_ofNat_uint32 {n : Nat} (h : n < 2 ^ 32) : (UInt32.ofNat n).toNat = n :=
  UInt32.toNat_ofNat_of_lt' h

/-- The count of a record, by the length of its varint as the source computes it. From 2^28 on it is
one short. -/
theorem bytesReadOf_eq {n : Nat} (h : n < 2 ^ 31) :
    bytesReadOf n =
      if n ≤ 0x7f then n + 1 else if n ≤ 0x3fff then n + 2 else if n ≤ 0x1fffff then n + 3
      else n + 4 := by
  have hn := toNat_ofNat_uint32 (n := n) (by omega)
  have hadd : ∀ k : Nat, k ≤ 4 → (UInt32.ofNat n + UInt32.ofNat k).toNat = n + k := by
    intro k hk
    rw [UInt32.toNat_add, hn, toNat_ofNat_uint32 (by omega), Nat.mod_eq_of_lt (by omega)]
  have h7f : UInt32.ofNat n ≤ 0x7f ↔ n ≤ 0x7f := by
    rw [UInt32.le_iff_toNat_le, hn]
    rfl
  have h3fff : UInt32.ofNat n ≤ 0x3fff ↔ n ≤ 0x3fff := by
    rw [UInt32.le_iff_toNat_le, hn]
    rfl
  have h1fffff : UInt32.ofNat n ≤ 0x1fffff ↔ n ≤ 0x1fffff := by
    rw [UInt32.le_iff_toNat_le, hn]
    rfl
  unfold bytesReadOf InputStream.bytesRead
  by_cases h1 : n ≤ 0x7f
  · rw [if_pos (h7f.mpr h1), if_pos h1]
    exact hadd 1 (by decide)
  rw [if_neg (mt h7f.mp h1), if_neg h1]
  by_cases h2 : n ≤ 0x3fff
  · rw [if_pos (h3fff.mpr h2), if_pos h2]
    exact hadd 2 (by decide)
  rw [if_neg (mt h3fff.mp h2), if_neg h2]
  by_cases h3 : n ≤ 0x1fffff
  · rw [if_pos (h1fffff.mpr h3), if_pos h3]
    exact hadd 3 (by decide)
  rw [if_neg (mt h1fffff.mp h3), if_neg h3]
  exact hadd 4 (by decide)

/-- `bytes_read` is the size of the record as long as the length takes at most
four bytes. -/
theorem bytesReadOf_eq_length {body : Bytes} (h : body.length < 2 ^ 28) :
    bytesReadOf body.length = (record body).length := by
  rw [bytesReadOf_eq (by omega), record_length]
  by_cases h1 : body.length ≤ 0x7f
  · rw [if_pos h1, encodeVarint_of_lt (by omega)]
    simp; omega
  rw [if_neg h1]
  by_cases h2 : body.length ≤ 0x3fff
  · rw [if_pos h2, encodeVarint_length_eq (k := 1) (by omega) (by omega)]
    omega
  rw [if_neg h2]
  by_cases h3 : body.length ≤ 0x1fffff
  · rw [if_pos h3, encodeVarint_length_eq (k := 2) (by omega) (by omega)]
    omega
  rw [if_neg h3, encodeVarint_length_eq (k := 3) (by omega) (by omega)]
  omega

/-- From 2^28 bytes on the length takes five, and `bytes_read` is one short. -/
theorem bytesReadOf_add_one {body : Bytes} (h : 2 ^ 28 ≤ body.length)
    (h' : body.length < 2 ^ 31) : bytesReadOf body.length + 1 = (record body).length := by
  rw [bytesReadOf_eq h', record_length, if_neg (by omega), if_neg (by omega), if_neg (by omega),
    encodeVarint_length_eq (k := 4) (by omega) (by omega)]
  omega
theorem bytesReadOf_le_length {body : Bytes} (h : body.length < 2 ^ 31) :
    bytesReadOf body.length ≤ (record body).length := by
  by_cases hsmall : body.length < 2 ^ 28
  · exact Nat.le_of_eq (bytesReadOf_eq_length hsmall)
  · have := bytesReadOf_add_one (Nat.le_of_not_lt hsmall) h
    omega

/-! ## Where a stream stands -/

/-- The byte limit of a reader in front of a record: the position of its coded
stream there, `coded_input_stream_read_bytes`, and the total byte limit. -/
structure Meter where
  position : Nat
  readBytes : Int
  limit : Nat

namespace Meter

/-- The meter in front of the body, where the coded stream may be rebuilt. -/
def body (m : Meter) (n : Nat) : Meter :=
  if (intMax / 2 : Int) < m.readBytes then ⟨0, 0, intMax⟩
  else ⟨m.position + (encodeVarint n).length, m.readBytes, m.limit⟩

/-- The meter after a record with a body of `n` bytes. -/
def next (m : Meter) (n : Nat) : Meter :=
  ⟨(m.body n).position + n, ((m.body n).readBytes + bytesReadOf n).bmod (2 ^ 32),
    (m.body n).limit⟩

/-- The record can be read without reaching the total byte limit. -/
structure Room (m : Meter) (n : Nat) : Prop where
  length_le : m.position + (encodeVarint n).length ≤ m.limit
  body_le : (m.body n).position + n ≤ (m.body n).limit
  limit_le : m.limit ≤ intMax

theorem Room.body_limit_le {m : Meter} {n : Nat} (h : m.Room n) : (m.body n).limit ≤ intMax := by
  unfold body
  split
  · exact Nat.le_refl _
  · exact h.limit_le

/-- The longest body that a stream read from its beginning has room for
anywhere; `ReadEnvelope` describes records of less than 2^28 bytes. -/
def maxBody : Nat := 2 ^ 30 - 64

theorem le_maxBody {n : Nat} (h : n < 2 ^ 28) : n ≤ maxBody := by
  unfold maxBody
  omega

/-- The coded stream is rebuilt in front of the body. -/
theorem body_of_half {m : Meter} (h : (intMax / 2 : Int) < m.readBytes) (n : Nat) :
    m.body n = ⟨0, 0, intMax⟩ := if_pos h

theorem body_of_not_half {m : Meter} (h : ¬ (intMax / 2 : Int) < m.readBytes) (n : Nat) :
    m.body n = ⟨m.position + (encodeVarint n).length, m.readBytes, m.limit⟩ := if_neg h

/-- The meter of a stream read from its beginning, where the coded stream is
rebuilt often enough. Bodies from 2^28 bytes on are counted one byte short. -/
structure Full (m : Meter) : Prop where
  limit_eq : m.limit = intMax
  nonneg : 0 ≤ m.readBytes
  lt : m.readBytes < 2 ^ 31 - 50
  position_le : (m.position : Int) ≤ m.readBytes + 1 + m.readBytes / 2 ^ 28

theorem length_encodeVarint_le_five {n : Nat} (h : n < 2 ^ 32) :
    (encodeVarint n).length ≤ 5 :=
  encodeVarint_length_le (Nat.lt_trans h (by decide))

/-- The count is the body and at most four bytes more, and covers the record but for one byte of the
longest. -/
theorem bytesReadOf_bounds {n : Nat} (h : n < 2 ^ 31) :
    n ≤ bytesReadOf n ∧ bytesReadOf n ≤ n + 4 ∧
      (n + (encodeVarint n).length ≤ bytesReadOf n ∨
        2 ^ 28 ≤ n ∧ n + (encodeVarint n).length ≤ bytesReadOf n + 1) := by
  have hbody : (List.replicate n (0 : UInt8)).length = n := List.length_replicate
  have hbound : n ≤ bytesReadOf n ∧ bytesReadOf n ≤ n + 4 := by
    rw [bytesReadOf_eq h]
    split_ifs <;> omega
  refine ⟨hbound.1, hbound.2, ?_⟩
  by_cases hn : n < 2 ^ 28
  · have heq := bytesReadOf_eq_length (lt_of_eq_of_lt hbody hn)
    rw [record_length, hbody] at heq
    exact Or.inl (by omega)
  · have heq := bytesReadOf_add_one (le_of_le_of_eq (Nat.le_of_not_lt hn) hbody.symm)
      (lt_of_eq_of_lt hbody h)
    rw [record_length, hbody] at heq
    exact Or.inr ⟨by omega, by omega⟩

theorem Full.length_le {m : Meter} (h : m.Full) {n : Nat} (hn : n < 2 ^ 32) :
    m.position + (encodeVarint n).length ≤ m.limit := by
  have hlen := length_encodeVarint_le_five hn
  obtain ⟨hlimit, h0, hlt, hpos⟩ := h
  unfold intMax at hlimit
  omega

/-- A coded stream that has its whole limit in front of it, or was made anew in time, has room for a
body. -/
theorem Full.room {m : Meter} (h : m.Full) {n : Nat} (hn : n ≤ maxBody) : m.Room n := by
  have hlt : n < 2 ^ 32 := by unfold maxBody at hn; omega
  have hlen := length_encodeVarint_le_five hlt
  refine ⟨h.length_le hlt, ?_, Nat.le_of_eq h.limit_eq⟩
  obtain ⟨hlimit, h0, hlt, hpos⟩ := h
  unfold maxBody at hn
  by_cases hhalf : (intMax / 2 : Int) < m.readBytes
  · rw [body_of_half hhalf]
    show 0 + n ≤ intMax
    unfold intMax
    omega
  · rw [body_of_not_half hhalf]
    unfold intMax at hhalf hlimit
    show m.position + (encodeVarint n).length + n ≤ m.limit
    omega

/-- A coded stream that is rebuilt has room from then on. -/
theorem full_next_of_half {m : Meter} (hhalf : (intMax / 2 : Int) < m.readBytes) {n : Nat}
    (hn : n ≤ maxBody) : (m.next n).Full := by
  unfold maxBody at hn
  obtain ⟨hlo, hhi, -⟩ := bytesReadOf_bounds (n := n) (by omega)
  have hbmod : ((0 : Int) + bytesReadOf n).bmod (2 ^ 32) = bytesReadOf n := by
    rw [Int.zero_add, Int.bmod_eq_of_le (by omega) (by omega)]
  rw [Meter.next, body_of_half hhalf]
  refine ⟨rfl, ?_, ?_, ?_⟩
  all_goals simp only [hbmod]
  all_goals omega

/-- And so has what it is behind that record. -/
theorem Full.next {m : Meter} (h : m.Full) {n : Nat} (hn : n ≤ maxBody) : (m.next n).Full := by
  by_cases hhalf : (intMax / 2 : Int) < m.readBytes
  · exact full_next_of_half hhalf hn
  · unfold maxBody at hn
    have hlen := length_encodeVarint_le_five (n := n) (by omega)
    obtain ⟨hlo, hhi, hcount⟩ := bytesReadOf_bounds (n := n) (by omega)
    obtain ⟨hlimit, h0, hlt, hpos⟩ := h
    rw [Meter.next, body_of_not_half hhalf]
    unfold intMax at hhalf
    have hbmod : (m.readBytes + bytesReadOf n).bmod (2 ^ 32) = m.readBytes + bytesReadOf n := by
      rw [Int.bmod_eq_of_le (by omega) (by omega)]
    refine ⟨hlimit, ?_, ?_, ?_⟩
    all_goals simp only [hbmod]
    all_goals omega

end Meter

namespace InputStream

/-- The stream stands at offset `pos` with `rest` ahead of it. The size of the
next record may have been read already; `vs` is what that consumed. -/
structure At (s : InputStream) (pos : Nat) (rest : Bytes) (m : Meter) : Prop where
  offset_eq : s.offset = pos
  readBytes_eq : s.codedInputStreamReadBytes = m.readBytes
  limit_eq : s.cis.totalBytesLimit = m.limit
  ahead : ∃ vs, rest = vs ++ s.cis.rest ∧ s.cis.position = m.position + vs.length ∧
    if s.haveNextSize then Item readVarint32 vs s.nextSize else vs = []

/-- The stream has read the size `n` of the next record, and `ahead` follows. -/
structure Peeked (s : InputStream) (pos n : Nat) (ahead : Bytes) (m : Meter) : Prop where
  offset_eq : s.offset = pos
  readBytes_eq : s.codedInputStreamReadBytes = m.readBytes
  limit_eq : s.cis.totalBytesLimit = m.limit
  have_next : s.haveNextSize = true
  next_eq : s.nextSize = UInt32.ofNat n
  rest_eq : s.cis.rest = ahead
  position_eq : s.cis.position = m.position + (encodeVarint n).length

theorem nextEnvelopeSize_of_have {s : InputStream} (h : s.haveNextSize = true) :
    s.nextEnvelopeSize = (s.nextSize, s) :=
  if_pos h

theorem Peeked.at {s : InputStream} {pos n : Nat} {ahead : Bytes} {m : Meter} (hn : n < 2 ^ 32)
    (h : s.Peeked pos n ahead m) : s.At pos (encodeVarint n ++ ahead) m where
  offset_eq := h.offset_eq
  readBytes_eq := h.readBytes_eq
  limit_eq := h.limit_eq
  ahead := by
    refine ⟨encodeVarint n, by rw [h.rest_eq], h.position_eq, ?_⟩
    rw [if_pos h.have_next, h.next_eq]
    exact item_readVarint32 (Nat.lt_trans hn (by decide))

/-- `NextEnvelopeSize` in front of a record. -/
theorem At.nextEnvelopeSize {s : InputStream} {pos n : Nat} {ahead : Bytes} {m : Meter}
    (h : s.At pos (encodeVarint n ++ ahead) m) (hn : n < 2 ^ 32)
    (hroom : m.position + (encodeVarint n).length ≤ m.limit) :
    ∃ s', s.nextEnvelopeSize = (UInt32.ofNat n, s') ∧ s'.Peeked pos n ahead m ∧
      s'.file = s.file := by
  have hitem : Item readVarint32 (encodeVarint n) (UInt32.ofNat n) :=
    item_readVarint32 (Nat.lt_trans hn (by decide))
  obtain ⟨vs, hrest, hpos, hvs⟩ := h.ahead
  by_cases hnext : s.haveNextSize = true
  · -- the size that was read ahead is the one in front
    rw [if_pos hnext] at hvs
    obtain ⟨rfl, hsize, hahead⟩ := hitem.unique hvs hrest
    refine ⟨s, ?_, ⟨h.offset_eq, h.readBytes_eq, h.limit_eq, hnext, hsize.symm, hahead.symm, hpos⟩,
      rfl⟩
    rw [nextEnvelopeSize_of_have hnext, hsize]
  · rw [if_neg hnext] at hvs
    subst hvs
    rw [List.nil_append] at hrest
    rw [List.length_nil, Nat.add_zero] at hpos
    have hwindow : s.cis.window = encodeVarint n ++
        ahead.take (m.limit - m.position - (encodeVarint n).length) := by
      rw [CodedInputStream.window, ← hrest, h.limit_eq, hpos, List.take_append,
        List.take_of_length_le (by omega)]
    have hread : s.cis.readVarint32 =
        some (UInt32.ofNat n, s.cis.skip (encodeVarint n).length) := by
      rw [CodedInputStream.readVarint32, hwindow, hitem, Option.map_some]
      rw [List.length_append, Nat.add_sub_cancel]
    refine ⟨{ s with
        cis := s.cis.skip (encodeVarint n).length
        nextSize := UInt32.ofNat n
        haveNextSize := true }, ?_, ⟨h.offset_eq, h.readBytes_eq, h.limit_eq, rfl, rfl, ?_, ?_⟩, rfl⟩
    · rw [InputStream.nextEnvelopeSize, if_neg hnext, hread]
    · show s.cis.rest.drop _ = ahead
      rw [← hrest, List.drop_left]
    · show s.cis.position + min _ s.cis.rest.length = _
      rw [hpos, ← hrest, List.length_append, Nat.min_eq_left (Nat.le_add_right _ _)]

/-- Reading ahead does not change what `ReadEnvelope` does. -/
theorem readEnvelope_of_peeked {s s' : InputStream} {n : UInt32}
    (h : s.nextEnvelopeSize = (n, s')) (hnext : s'.haveNextSize = true) (hn : s'.nextSize = n) :
    s.readEnvelope = s'.readEnvelope := by
  unfold readEnvelope
  rw [h, nextEnvelopeSize_of_have hnext, hn]

/-- The coded stream a body is read from. -/
theorem Peeked.rebuildIfHalfRead {s : InputStream} {pos n : Nat} {ahead : Bytes} {m : Meter}
    (h : s.Peeked pos n ahead m) :
    s.rebuildIfHalfRead = { s with
      cis := ⟨ahead, (m.body n).position, (m.body n).limit⟩
      codedInputStreamReadBytes := (m.body n).readBytes } := by
  unfold InputStream.rebuildIfHalfRead Meter.body
  rw [h.readBytes_eq]
  by_cases hhalf : (intMax / 2 : Int) < m.readBytes
  · rw [if_pos hhalf, if_pos hhalf, rebuildCodedInputStream, h.rest_eq]
  · rw [if_neg hhalf, if_neg hhalf]
    show s = { s with
      cis := ⟨ahead, m.position + (encodeVarint n).length, m.limit⟩
      codedInputStreamReadBytes := m.readBytes }
    rw [← h.rest_eq, ← h.position_eq, ← h.limit_eq, ← h.readBytes_eq]

/-- The size was read ahead, and the body parses. -/
theorem Peeked.readEnvelope_some {s : InputStream} {pos n : Nat} {ahead : Bytes} {m : Meter}
    (h : s.Peeked pos n ahead m) (h0 : UInt32.ofNat n ≠ 0) {e : Envelope} {cis : CodedInputStream}
    (hp : CodedInputStream.parseEnvelope ⟨ahead, (m.body n).position, (m.body n).limit⟩
      (UInt32.ofNat n) = (some e, cis)) :
    s.readEnvelope = (some e, bytesRead (UInt32.ofNat n), { s with
      cis := cis
      haveNextSize := false
      offset := s.offset + bytesReadOf n
      codedInputStreamReadBytes := ((m.body n).readBytes + bytesReadOf n).bmod (2 ^ 32) }) := by
  unfold readEnvelope
  rw [nextEnvelopeSize_of_have h.have_next, h.next_eq]
  simp only [h.rebuildIfHalfRead, if_neg h0, hp]
  rw [h.next_eq]
  rfl

/-- The size was read ahead, and the body does not parse. -/
theorem Peeked.readEnvelope_none {s : InputStream} {pos n : Nat} {ahead : Bytes} {m : Meter}
    (h : s.Peeked pos n ahead m) (h0 : UInt32.ofNat n ≠ 0) {cis : CodedInputStream}
    (hp : CodedInputStream.parseEnvelope ⟨ahead, (m.body n).position, (m.body n).limit⟩
      (UInt32.ofNat n) = (none, cis)) :
    s.readEnvelope = (none, 0, { s with
      cis := cis
      haveNextSize := false
      codedInputStreamReadBytes := (m.body n).readBytes }) := by
  unfold readEnvelope
  rw [nextEnvelopeSize_of_have h.have_next, h.next_eq]
  simp only [h.rebuildIfHalfRead, if_neg h0, hp]
  rw [h.next_eq]

/-! ## The step lemmas -/

theorem ofNat_ne_zero {n : Nat} (h0 : 0 < n) (h : n < 2 ^ 32) : UInt32.ofNat n ≠ 0 := by
  intro hz
  have hn := toNat_ofNat_uint32 h
  rw [hz] at hn
  exact absurd hn (by simpa using h0.ne)

/-- `PushLimit` and a message that ends before the total byte limit. -/
theorem parseEnvelope_complete {body : Bytes} (ahead : Bytes) {position limit : Nat}
    (hle : position + body.length ≤ limit) (hmax : limit ≤ intMax) :
    CodedInputStream.parseEnvelope ⟨body ++ ahead, position, limit⟩ (UInt32.ofNat body.length) =
      (Envelope.parse body, ⟨ahead, position + body.length, limit⟩) := by
  have hbody : body.length < 2 ^ 32 := by
    unfold intMax at hmax
    omega
  have hlimit : CodedInputStream.messageLimit ⟨body ++ ahead, position, limit⟩
      (UInt32.ofNat body.length) = position + body.length := by
    unfold CodedInputStream.messageLimit
    rw [toNat_ofNat_uint32 hbody, if_pos]
    show body.length ≤ intMax - position
    omega
  unfold CodedInputStream.parseEnvelope CodedInputStream.skip
  simp only [hlimit, Nat.add_sub_cancel_left, List.take_left, List.drop_left]
  rw [if_neg (by omega), List.length_append, Nat.min_eq_left (Nat.le_add_right _ _),
    toNat_ofNat_uint32 hbody, Envelope.parseSized_length]

/-- **Step lemma**: in front of a complete record, `ReadEnvelope` returns its
envelope and stands in front of what follows. -/
theorem At.readEnvelope {s : InputStream} {pos : Nat} {body ahead : Bytes} {m : Meter}
    {e : Envelope} (h : s.At pos (record body ++ ahead) m) (he : Envelope.parse body = some e)
    (h0 : 0 < body.length) (hroom : m.Room body.length) :
    ∃ s', s.readEnvelope = (some e, bytesRead (UInt32.ofNat body.length), s') ∧
      s'.At (pos + bytesReadOf body.length) ahead (m.next body.length) ∧
      s'.haveNextSize = false ∧ s'.file = s.file := by
  have hmax := hroom.body_limit_le
  have hlt : body.length < 2 ^ 32 := by
    have := hroom.body_le
    unfold intMax at hmax
    omega
  rw [record, List.append_assoc] at h
  obtain ⟨s₁, hs₁, hpeek, hfile⟩ := h.nextEnvelopeSize hlt hroom.length_le
  have hparse := parseEnvelope_complete ahead hroom.body_le hmax
  rw [he] at hparse
  have hread := hpeek.readEnvelope_some (ofNat_ne_zero h0 hlt) hparse
  rw [← readEnvelope_of_peeked hs₁ hpeek.have_next hpeek.next_eq] at hread
  refine ⟨_, hread, ⟨?_, rfl, rfl, [], rfl, rfl, rfl⟩, rfl, hfile⟩
  show s₁.offset + _ = _
  rw [hpeek.offset_eq]
  rfl

/-- `ReadEnvelope` in front of bytes that no size can be read from. -/
theorem readEnvelope_none_of_ahead {s : InputStream} {vs rest : Bytes}
    (hvs : rest = vs ++ s.cis.rest)
    (hnext : if s.haveNextSize then Item readVarint32 vs s.nextSize else vs = [])
    (hrest : Wire.readVarint32 rest = none) : s.readEnvelope = (none, 0, s) := by
  by_cases hhave : s.haveNextSize = true
  · rw [if_pos hhave] at hnext
    rw [hvs, hnext] at hrest
    cases hrest
  rw [if_neg hhave] at hnext
  subst hnext
  have hread : s.cis.readVarint32 = none := by
    unfold CodedInputStream.readVarint32 CodedInputStream.window
    rw [List.nil_append] at hvs
    rw [← hvs, streaming_readVarint32.take_eq_none hrest]
    rfl
  unfold InputStream.readEnvelope InputStream.nextEnvelopeSize
  rw [if_neg hhave, hread]
  rfl

/-- The same at a position that is known, as at the end of the file. -/
theorem At.readEnvelope_none {s : InputStream} {pos : Nat} {rest : Bytes} {m : Meter}
    (h : s.At pos rest m) (hrest : Wire.readVarint32 rest = none) :
    s.readEnvelope = (none, 0, s) := by
  obtain ⟨vs, hvs, -, hnext⟩ := h.ahead
  exact readEnvelope_none_of_ahead hvs hnext hrest

/-- Where a body of `n` bytes of which `k` are there stops being read: at the end
of the file, or at the byte limit of the coded stream. -/
def readable (m : Meter) (n k : Nat) : Nat := min k (intMax - (m.body n).position)

/-- A body that is not all there parses exactly when what can be read of it ends
between two fields, of its own or of an actor. -/
theorem parseEnvelope_torn {uss : List Bytes} {fs : List Field} {e : Envelope}
    (hi : Items (readField 0) uss fs) (he : Envelope.parse uss.flatten = some e) {k : Nat}
    (hk : k < uss.flatten.length) (hlen : uss.flatten.length < 2 ^ 31) (position : Nat) :
    (CodedInputStream.parseEnvelope ⟨uss.flatten.take k, position, intMax⟩
      (UInt32.ofNat uss.flatten.length)).1.isSome ↔
        Envelope.BetweenFields uss (min k (intMax - position)) := by
  have hlimit : CodedInputStream.messageLimit ⟨uss.flatten.take k, position, intMax⟩
      (UInt32.ofNat uss.flatten.length) - position =
        min uss.flatten.length (intMax - position) := by
    unfold CodedInputStream.messageLimit
    rw [toNat_ofNat_uint32 (by omega)]
    split_ifs with h
    · rw [Nat.add_sub_cancel_left, Nat.min_eq_left h]
    · rw [Nat.min_eq_right (Nat.le_of_lt (Nat.lt_of_not_le h))]
  have hmax : CodedInputStream.messageLimit ⟨uss.flatten.take k, position, intMax⟩
      (UInt32.ofNat uss.flatten.length) ≤ intMax := by
    unfold CodedInputStream.messageLimit
    rw [toNat_ofNat_uint32 (by omega)]
    split_ifs with h
    · omega
    · exact Nat.le_refl _
  have hdata : (uss.flatten.take k).take (min uss.flatten.length (intMax - position)) =
      uss.flatten.take (min k (intMax - position)) := by
    rw [List.take_take]
    congr 1
    omega
  unfold CodedInputStream.parseEnvelope
  simp only [hlimit]
  have hshort : (uss.flatten.take (min k (intMax - position))).length <
      (UInt32.ofNat uss.flatten.length).toNat := by
    rw [toNat_ofNat_uint32 (by omega), List.length_take]
    omega
  rw [if_neg (by omega), hdata, Envelope.parseSized_of_lt hshort]
  exact Envelope.parseTorn_take_isSome hi he (by omega)

/-- **Step lemma** for a record cut inside its length. -/
theorem At.readEnvelope_cut_length {s : InputStream} {pos : Nat} {body : Bytes} {m : Meter} {c : Nat}
    (h : s.At pos ((record body).take c) m) (hlen : body.length < 2 ^ 32)
    (hc : c < (encodeVarint body.length).length) : s.readEnvelope = (none, 0, s) :=
  h.readEnvelope_none (readVarint32_take_record hlen hc)

/-- **Step lemma** for a record cut inside its body: an envelope comes back
exactly when the cut falls between two fields, of its own or of an actor. -/
theorem At.readEnvelope_torn {s : InputStream} {pos : Nat} {m : Meter} {uss : List Bytes}
    {fs : List Field} {e : Envelope} {k : Nat}
    (h : s.At pos ((record uss.flatten).take ((encodeVarint uss.flatten.length).length + k)) m)
    (hm : m.Full) (hi : Items (readField 0) uss fs) (he : Envelope.parse uss.flatten = some e)
    (hk : k < uss.flatten.length) (hlen : uss.flatten.length < 2 ^ 31) :
    ∃ o n s', s.readEnvelope = (o, n, s') ∧
      (o.isSome ↔ Envelope.BetweenFields uss (readable m uss.flatten.length k)) ∧
      (o = none → s'.offset = pos) := by
  have hlt : uss.flatten.length < 2 ^ 32 := by omega
  rw [record, List.take_length_add_append] at h
  obtain ⟨s₁, hs₁, hpeek, -⟩ := h.nextEnvelopeSize hlt (hm.length_le hlt)
  have hlimit : (m.body uss.flatten.length).limit = intMax := by
    unfold Meter.body
    split
    · rfl
    · exact hm.limit_eq
  have hsome := parseEnvelope_torn hi he hk hlen (m.body uss.flatten.length).position
  rw [readEnvelope_of_peeked hs₁ hpeek.have_next hpeek.next_eq]
  have h0 := ofNat_ne_zero (Nat.lt_of_le_of_lt (Nat.zero_le k) hk) hlt
  cases hp : CodedInputStream.parseEnvelope ⟨uss.flatten.take k,
      (m.body uss.flatten.length).position, intMax⟩ (UInt32.ofNat uss.flatten.length) with
  | mk o cis =>
    rw [hp] at hsome
    rw [← hlimit] at hp
    cases o with
    | none => exact ⟨_, _, _, hpeek.readEnvelope_none h0 hp, hsome, fun _ => hpeek.offset_eq⟩
    | some e' => exact ⟨_, _, _, hpeek.readEnvelope_some h0 hp, hsome,
      fun h => absurd h (Option.some_ne_none _)⟩

/-- A record that passes the byte limit of its reader inside a field is not read. -/
theorem At.readEnvelope_long {s : InputStream} {pos : Nat} {ahead : Bytes} {m : Meter}
    {uss : List Bytes} {fs : List Field} {e : Envelope}
    (h : s.At pos (record uss.flatten ++ ahead) m) (hi : Items (readField 0) uss fs)
    (he : Envelope.parse uss.flatten = some e) (h0 : 0 < uss.flatten.length)
    (hlen : uss.flatten.length < 2 ^ 31)
    (hsize : m.position + (encodeVarint uss.flatten.length).length ≤ m.limit)
    (hlimit : (m.body uss.flatten.length).limit = intMax)
    (hlong : intMax < (m.body uss.flatten.length).position + uss.flatten.length)
    (hcut : ¬ Envelope.BetweenFields uss (intMax - (m.body uss.flatten.length).position)) :
    ∃ n s', s.readEnvelope = (none, n, s') := by
  have hlt : uss.flatten.length < 2 ^ 32 := by omega
  rw [record, List.append_assoc] at h
  obtain ⟨s₁, hs₁, hpeek, -⟩ := h.nextEnvelopeSize hlt hsize
  have hend : CodedInputStream.messageLimit ⟨uss.flatten ++ ahead,
      (m.body uss.flatten.length).position, (m.body uss.flatten.length).limit⟩
      (UInt32.ofNat uss.flatten.length) = intMax := by
    rw [CodedInputStream.messageLimit, toNat_ofNat_uint32 hlt, if_neg]
    show ¬ uss.flatten.length ≤ intMax - (m.body uss.flatten.length).position
    omega
  have hnone : Envelope.parseTorn
      (uss.flatten.take (intMax - (m.body uss.flatten.length).position)) = none := by
    rw [← Option.not_isSome_iff_eq_none, Envelope.parseTorn_take_isSome hi he (by omega)]
    exact hcut
  have hshort : (uss.flatten.take (intMax - (m.body uss.flatten.length).position)).length <
      (UInt32.ofNat uss.flatten.length).toNat := by
    rw [toNat_ofNat_uint32 hlt, List.length_take]
    omega
  have hparse : ∃ cis, CodedInputStream.parseEnvelope ⟨uss.flatten ++ ahead,
      (m.body uss.flatten.length).position, (m.body uss.flatten.length).limit⟩
      (UInt32.ofNat uss.flatten.length) = (none, cis) := by
    rw [CodedInputStream.parseEnvelope, hend, hlimit, if_neg fun hlt => Nat.lt_irrefl _ hlt.1]
    refine ⟨_, Prod.ext ?_ rfl⟩
    show Envelope.parseSized _ ((uss.flatten ++ ahead).take
      (intMax - (m.body uss.flatten.length).position)) = none
    rw [List.take_append_of_le_length (by omega), Envelope.parseSized_of_lt hshort]
    exact hnone
  obtain ⟨cis, hparse⟩ := hparse
  have hread := hpeek.readEnvelope_none (ofNat_ne_zero h0 hlt) hparse
  rw [← readEnvelope_of_peeked hs₁ hpeek.have_next hpeek.next_eq] at hread
  exact ⟨_, _, hread⟩

/-! ## Runs of reads -/

/-- The meter after a log. -/
def meterAfter (m : Meter) (bodies : List Bytes) : Meter :=
  bodies.foldl (fun m body => m.next body.length) m

/-- `bytes_read` of each record of a log. -/
def bytesReads (bodies : List Bytes) : List UInt32 :=
  bodies.map fun body => bytesRead (UInt32.ofNat body.length)

/-- The bodies are serialised envelopes. -/
abbrev Parses (bodies : List Bytes) (es : List Envelope) : Prop :=
  List.Forall₂ (fun body e => Envelope.parse body = some e) bodies es

theorem parses_map_serialize (es : List Envelope) : Parses (es.map Envelope.serialize) es := by
  induction es with
  | nil => exact .nil
  | cons e es ih => exact .cons (Envelope.parse_serialize e) ih

/-- **Run lemma**: in front of a log of complete records, reading returns their
envelopes and goes on behind the log. -/
theorem At.readsAll {bodies : List Bytes} {es : List Envelope} (hes : Parses bodies es) :
    ∀ {s : InputStream} {pos : Nat} {ahead : Bytes} {m : Meter},
      s.At pos (records bodies ++ ahead) m → m.Full →
      (∀ body ∈ bodies, 0 < body.length ∧ body.length ≤ Meter.maxBody) →
      ∃ s', s'.At (pos + (bodies.map fun body => bytesReadOf body.length).sum) ahead
          (meterAfter m bodies) ∧ (meterAfter m bodies).Full ∧ s'.file = s.file ∧
        ∀ ens s'', ReadsAll s ens s'' ↔
          ∃ ens', ens = es.zip (bytesReads bodies) ++ ens' ∧ ReadsAll s' ens' s'' := by
  induction hes with
  | nil =>
    intro s pos ahead m h hm _
    refine ⟨s, h, hm, rfl, fun ens s'' => ?_⟩
    constructor
    · intro hens
      exact ⟨ens, rfl, hens⟩
    · rintro ⟨_, rfl, hens⟩
      exact hens
  | @cons body e bodies es he _ ih =>
    intro s pos ahead m h hm hsize
    rw [records_cons, List.append_assoc] at h
    obtain ⟨h0, hmax⟩ := hsize body List.mem_cons_self
    obtain ⟨s₁, hread, hat, -, hfile⟩ := h.readEnvelope he h0 (hm.room hmax)
    obtain ⟨s', hat', hm', hfile', hrun⟩ :=
      ih hat (hm.next hmax) fun b hb => hsize b (List.mem_cons_of_mem _ hb)
    refine ⟨s', ?_, hm', hfile'.trans hfile, fun ens s'' => ?_⟩
    · rw [List.map_cons, List.sum_cons, ← Nat.add_assoc]
      exact hat'
    constructor
    · intro hens
      cases hens with
      | done hdone =>
        rw [hread] at hdone
        cases hdone
      | read hread' hrest =>
        rw [hread] at hread'
        cases hread'
        obtain ⟨ens', rfl, hens'⟩ := (hrun _ _).mp hrest
        exact ⟨ens', rfl, hens'⟩
    · rintro ⟨ens', rfl, hens'⟩
      exact .read hread ((hrun _ _).mpr ⟨ens', rfl, hens'⟩)

theorem sum_bytesReadOf {bodies : List Bytes} (h : ∀ body ∈ bodies, body.length < 2 ^ 28) :
    (bodies.map fun body => bytesReadOf body.length).sum = (records bodies).length := by
  induction bodies with
  | nil => rfl
  | cons body bodies ih =>
    rw [List.map_cons, List.sum_cons, records_cons, List.length_append,
      bytesReadOf_eq_length (h body List.mem_cons_self),
      ih fun b hb => h b (List.mem_cons_of_mem _ hb)]

/-- A stream opened at its beginning stands behind the version byte. -/
theorem ofFile_at (log : Bytes) :
    ∃ s, ofFile (some (1 :: log)) 0 = .ok s ∧ s.At 1 log ⟨1, 0, intMax⟩ ∧
      s.haveNextSize = false ∧ s.file = 1 :: log := by
  refine ⟨_, rfl, ⟨rfl, rfl, rfl, [], rfl, ?_, rfl⟩, rfl, rfl⟩
  show 0 + min 1 (log.length + 1) = 1
  omega

theorem full_begin : Meter.Full ⟨1, 0, intMax⟩ where
  limit_eq := rfl
  nonneg := Int.le_refl 0
  lt := by decide
  position_le := by decide

/-! ## Records of any size

A body from 2^28 bytes on is counted short, and one that passes the byte limit is
cut there. The count of `bytes_read` is all that the offset depends on. -/

/-- The stream stands in front of `rest`, wherever its byte limit is. -/
structure Before (s : InputStream) (rest : Bytes) : Prop where
  limit_le : s.cis.totalBytesLimit ≤ intMax
  ahead : ∃ vs, rest = vs ++ s.cis.rest ∧
    if s.haveNextSize then Item readVarint32 vs s.nextSize else vs = []

theorem At.before {s : InputStream} {pos : Nat} {rest : Bytes} {m : Meter} (h : s.At pos rest m)
    (hm : m.limit ≤ intMax) : s.Before rest := by
  obtain ⟨vs, hvs, -, hnext⟩ := h.ahead
  exact ⟨h.limit_eq ▸ hm, vs, hvs, hnext⟩

/-- The byte limit is used up. -/
def Exhausted (s : InputStream) : Prop :=
  s.haveNextSize = false ∧ s.cis.totalBytesLimit ≤ s.cis.position

theorem Exhausted.readEnvelope {s : InputStream} (h : s.Exhausted) :
    s.readEnvelope = (none, 0, s) := by
  have hread : s.cis.readVarint32 = none := by
    unfold CodedInputStream.readVarint32 CodedInputStream.window
    rw [Nat.sub_eq_zero_of_le h.2, List.take_zero]
    rfl
  unfold InputStream.readEnvelope InputStream.nextEnvelopeSize
  rw [h.1, hread]
  rfl

/-- `NextEnvelopeSize` in front of a record, if it returns a size at all. -/
theorem Before.nextEnvelopeSize {s : InputStream} {n : Nat} {ahead : Bytes}
    (h : s.Before (encodeVarint n ++ ahead)) (hn : n < 2 ^ 32) :
    s.nextEnvelopeSize = (0, s) ∨
    ∃ s', s.nextEnvelopeSize = (UInt32.ofNat n, s') ∧ s'.haveNextSize = true ∧
      s'.nextSize = UInt32.ofNat n ∧ s'.cis.rest = ahead ∧ s'.cis.totalBytesLimit ≤ intMax ∧
      s'.offset = s.offset := by
  have hitem : Item readVarint32 (encodeVarint n) (UInt32.ofNat n) :=
    item_readVarint32 (Nat.lt_trans hn (by decide))
  obtain ⟨vs, hrest, hvs⟩ := h.ahead
  -- the size was read ahead, or is read now
  by_cases hnext : s.haveNextSize = true
  · rw [if_pos hnext] at hvs
    obtain ⟨rfl, hsize, hahead⟩ := hitem.unique hvs hrest
    refine Or.inr ⟨s, ?_, hnext, hsize.symm, hahead.symm, h.limit_le, rfl⟩
    rw [nextEnvelopeSize_of_have hnext, hsize]
  rw [if_neg hnext] at hvs
  subst hvs
  rw [List.nil_append] at hrest
  by_cases hroom : s.cis.totalBytesLimit - s.cis.position < (encodeVarint n).length
  · -- the byte limit falls inside the length
    have hread : s.cis.readVarint32 = none := by
      unfold CodedInputStream.readVarint32 CodedInputStream.window
      rw [← hrest, List.take_append_of_le_length (Nat.le_of_lt hroom),
        streaming_readVarint32.item_take hitem hroom]
      rfl
    refine Or.inl ?_
    unfold InputStream.nextEnvelopeSize
    rw [if_neg hnext, hread]
  · have hwindow : s.cis.window = encodeVarint n ++
        ahead.take (s.cis.totalBytesLimit - s.cis.position - (encodeVarint n).length) := by
      rw [CodedInputStream.window, ← hrest, List.take_append,
        List.take_of_length_le (Nat.le_of_not_lt hroom)]
    have hread : s.cis.readVarint32 =
        some (UInt32.ofNat n, s.cis.skip (encodeVarint n).length) := by
      rw [CodedInputStream.readVarint32, hwindow, hitem, Option.map_some]
      rw [List.length_append, Nat.add_sub_cancel]
    refine Or.inr ⟨{ s with
        cis := s.cis.skip (encodeVarint n).length
        nextSize := UInt32.ofNat n
        haveNextSize := true }, ?_, rfl, rfl, ?_, h.limit_le, rfl⟩
    · rw [InputStream.nextEnvelopeSize, if_neg hnext, hread]
    · show s.cis.rest.drop _ = ahead
      rw [← hrest, List.drop_left]

/-- After a body was parsed the coded stream is behind it, or at its limit with more of the file
ahead. -/
theorem parseEnvelope_after {c c' : CodedInputStream} {n : Nat} {o : Option Envelope}
    (hlimit : c.totalBytesLimit ≤ intMax) (hn : n < 2 ^ 31)
    (h : c.parseEnvelope (UInt32.ofNat n) = (o, c')) :
    c'.totalBytesLimit = c.totalBytesLimit ∧
      (c'.rest = c.rest.drop n ∨ c'.totalBytesLimit ≤ c'.position ∧ c'.rest ≠ []) := by
  have hc' : c' = c.skip (c.messageLimit (UInt32.ofNat n) - c.position) := by
    unfold CodedInputStream.parseEnvelope at h
    simp only at h
    split at h <;> exact (congrArg Prod.snd h).symm
  subst hc'
  refine ⟨rfl, ?_⟩
  have htoNat : (UInt32.ofNat n).toNat = n := toNat_ofNat_uint32 (by omega)
  unfold CodedInputStream.messageLimit
  rw [htoNat]
  split_ifs with hfit
  · left
    show c.rest.drop _ = _
    rw [Nat.add_sub_cancel_left]
  · by_cases hshort : c.rest.length ≤ intMax - c.position
    · -- all that is there was read
      left
      have hlen : c.rest.length ≤ n := by omega
      show c.rest.drop _ = _
      rw [List.drop_eq_nil_of_le hlen, List.drop_eq_nil_iff]
      omega
    · right
      constructor
      · show c.totalBytesLimit ≤ c.position + min (intMax - c.position) c.rest.length
        omega
      · show c.rest.drop _ ≠ []
        rw [Ne, List.drop_eq_nil_iff]
        omega

/-- A read that fails does not move the offset. -/
theorem offset_of_readEnvelope_none {s s' : InputStream} {n : UInt32}
    (h : s.readEnvelope = (none, n, s')) : s'.offset = s.offset := by
  have hpeek : s.nextEnvelopeSize.2.offset = s.offset := by
    unfold InputStream.nextEnvelopeSize
    split
    · rfl
    · split <;> rfl
  have hrebuild : s.nextEnvelopeSize.2.rebuildIfHalfRead.offset = s.offset := by
    rw [← hpeek]
    unfold InputStream.rebuildIfHalfRead
    split <;> rfl
  unfold InputStream.readEnvelope at h
  simp only at h
  split at h
  · cases h
    exact hpeek
  · split at h
    · cases h
      exact hrebuild
    · cases h

/-- **Step lemma** for a record of any size, or the part of it that is there: what
a successful read returned. -/
theorem Before.readEnvelope {s s' : InputStream} {n : Nat} {ahead : Bytes} {e : Envelope}
    {k : UInt32} (h : s.Before (encodeVarint n ++ ahead)) (hn : n < 2 ^ 31)
    (hread : s.readEnvelope = (some e, k, s')) :
    0 < n ∧ k.toNat = bytesReadOf n ∧ s'.offset = s.offset + bytesReadOf n ∧
      (s'.Before (ahead.drop n) ∨ s'.Exhausted ∧ s'.cis.rest ≠ []) := by
  have hlt : n < 2 ^ 32 := by omega
  rcases h.nextEnvelopeSize hlt with hzero | ⟨s₁, hs₁, hhave, hnext, hrest, hlimit, hoffset⟩
  · unfold InputStream.readEnvelope at hread
    rw [hzero] at hread
    cases hread
  rw [readEnvelope_of_peeked hs₁ hhave hnext] at hread
  unfold InputStream.readEnvelope at hread
  rw [nextEnvelopeSize_of_have hhave, hnext] at hread
  by_cases h0 : UInt32.ofNat n = 0
  · simp only [if_pos h0] at hread
    cases hread
  have hpos : 0 < n := by
    rcases Nat.eq_zero_or_pos n with rfl | hpos
    · exact absurd rfl h0
    · exact hpos
  -- making the coded stream anew changes neither the place nor the limit for the worse
  have hrest₂ : s₁.rebuildIfHalfRead.cis.rest = ahead := by
    rw [← hrest]
    unfold InputStream.rebuildIfHalfRead
    split <;> rfl
  have hlimit₂ : s₁.rebuildIfHalfRead.cis.totalBytesLimit ≤ intMax := by
    unfold InputStream.rebuildIfHalfRead
    split
    · exact Nat.le_refl _
    · exact hlimit
  have hoffset₂ : s₁.rebuildIfHalfRead.offset = s.offset := by
    rw [← hoffset]
    unfold InputStream.rebuildIfHalfRead
    split <;> rfl
  simp only [if_neg h0] at hread
  cases hp : s₁.rebuildIfHalfRead.cis.parseEnvelope (UInt32.ofNat n) with
  | mk o c' =>
    rw [hp] at hread
    obtain ⟨hsame, hafter⟩ := parseEnvelope_after hlimit₂ hn hp
    rw [hrest₂] at hafter
    cases o with
    | none => cases hread
    | some e' =>
      cases hread
      refine ⟨hpos, rfl, ?_, ?_⟩
      · show s₁.rebuildIfHalfRead.offset + _ = _
        rw [hoffset₂]
        rfl
      · rcases hafter with hahead | ⟨hused, hleft⟩
        · exact Or.inl ⟨hsame ▸ hlimit₂, [], hahead.symm, rfl⟩
        · exact Or.inr ⟨⟨rfl, hused⟩, hleft⟩

end InputStream

/-- Reading is deterministic. -/
theorem ReadsAll.unique {s s₁ s₂ : InputStream} {ens₁ ens₂ : List (Envelope × UInt32)}
    (h₁ : ReadsAll s ens₁ s₁) (h₂ : ReadsAll s ens₂ s₂) : ens₁ = ens₂ ∧ s₁ = s₂ := by
  induction h₁ generalizing ens₂ with
  | done h =>
    cases h₂ with
    | done h' =>
      rw [h] at h'
      cases h'
      exact ⟨rfl, rfl⟩
    | read h' _ =>
      rw [h] at h'
      cases h'
  | read h _ ih =>
    cases h₂ with
    | done h' =>
      rw [h] at h'
      cases h'
    | read h' hs' =>
      rw [h] at h'
      cases h'
      obtain ⟨rfl, rfl⟩ := ih hs'
      exact ⟨rfl, rfl⟩

/-- **Run lemma** for records of any size: a run that reads as many envelopes as
there are records has read no empty body, and its offset is the sum of the
counts. -/
theorem ReadsAll.offset_eq {bodies : List Bytes} (hlen : ∀ body ∈ bodies, body.length < 2 ^ 31) :
    ∀ {s s' : InputStream} {ahead : Bytes} {ens : List (Envelope × UInt32)},
      ReadsAll s ens s' → s.Before (records bodies ++ ahead) → ens.length = bodies.length →
      (∀ body ∈ bodies, 0 < body.length) ∧
        s'.offset = s.offset + ((bodies.map fun body => bytesReadOf body.length).sum : Nat) := by
  induction bodies with
  | nil =>
    intro s s' ahead ens h _ hcount
    cases h with
    | done h =>
      refine ⟨fun _ hb => absurd hb List.not_mem_nil, ?_⟩
      rw [InputStream.offset_of_readEnvelope_none h]
      exact (Int.add_zero _).symm
    | read _ _ => cases hcount
  | cons body bodies ih =>
    intro s s' ahead ens h hat hcount
    cases h with
    | done _ => cases hcount
    | read hread hrest =>
      rw [records_cons, record, List.append_assoc, List.append_assoc] at hat
      obtain ⟨hpos, -, hoffset, hnext⟩ := hat.readEnvelope (hlen body List.mem_cons_self) hread
      rw [List.drop_left] at hnext
      have hcount' := Nat.succ.inj hcount
      have hlen' : ∀ b ∈ bodies, b.length < 2 ^ 31 := fun b hb =>
        hlen b (List.mem_cons_of_mem _ hb)
      -- the induction goes on with what is behind the record
      rcases hnext with hbefore | ⟨hused, -⟩
      · obtain ⟨hpos', hoffset'⟩ := ih hlen' hrest hbefore hcount'
        refine ⟨List.forall_mem_cons.mpr ⟨hpos, hpos'⟩, ?_⟩
        rw [hoffset', hoffset, List.map_cons, List.sum_cons]
        omega
      · -- the byte limit is used up, so this was the last read
        have hlast := hused.readEnvelope
        cases hrest with
        | done hdone =>
          rw [hlast] at hdone
          cases hdone
          obtain rfl : bodies = [] := List.eq_nil_of_length_eq_zero hcount'.symm
          refine ⟨List.forall_mem_cons.mpr ⟨hpos, fun _ hb => absurd hb List.not_mem_nil⟩, ?_⟩
          rw [hoffset, List.map_cons, List.map_nil, List.sum_cons, List.sum_nil, Nat.add_zero]
        | read hread' _ =>
          rw [hlast] at hread'
          cases hread'

end Zippylog
