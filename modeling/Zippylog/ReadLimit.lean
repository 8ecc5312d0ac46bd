import Zippylog.Seek

/-!
# The byte limit

A `CodedInputStream` has a limit on the bytes that it reads in all, 64 MiB unless another is set.
A stream file can be longer, so the reader counts the bytes and makes a new coded stream from time
to time. Here is which records a stream reads before its byte limit, from its beginning and after a
seek, which makes a coded stream with the limit of 64 MiB and keeps the count.

- `Meter.Default`: the byte counts of a stream that sought;
- `InputStream.At.readEnvelope_of_not_room`: the step lemma for a record that does
  not end before the limit: the read fails, and the stream stays failed;
- `InputStream.read_limit`: the runs in which every envelope is read.
-/

namespace Zippylog

open Wire

namespace Meter

/-! ## Meters of streams that sought -/

/-- The meter in front of the record that a stream sought to. The count is what it
was. -/
def sought (readBytes : Int) : Meter := ⟨0, readBytes, InputStream.defaultLimit⟩

/-- The coded stream was not rebuilt since the stream sought. -/
structure Default (m : Meter) : Prop where
  limit_eq : m.limit = InputStream.defaultLimit
  position_le : m.position ≤ m.limit

@[simp] theorem position_sought (readBytes : Int) : (sought readBytes).position = 0 := rfl

@[simp] theorem limit_sought (readBytes : Int) :
    (sought readBytes).limit = InputStream.defaultLimit := rfl

theorem default_sought (readBytes : Int) : (sought readBytes).Default := ⟨rfl, Nat.zero_le _⟩

/-- Where the coded stream is not rebuilt, the whole record is to end before the limit. -/
theorem room_iff_of_not_half {m : Meter} (hhalf : ¬ (intMax / 2 : Int) < m.readBytes)
    (hlimit : m.limit ≤ intMax) (n : Nat) :
    m.Room n ↔ m.position + (encodeVarint n).length + n ≤ m.limit := by
  have hbody := body_of_not_half hhalf n
  constructor
  · intro hroom
    have hle := hroom.body_le
    rwa [hbody] at hle
  · intro hle
    refine ⟨Nat.le_trans (Nat.le_add_right _ _) hle, ?_, hlimit⟩
    rw [hbody]
    exact hle

/-- The room behind a seek: the length of the record has to end before the limit, and the body too,
unless the coded stream is made anew in between. -/
theorem Default.room_iff {m : Meter} (h : m.Default) {n : Nat} (hn : n < 2 ^ 28) :
    m.Room n ↔ m.position + (encodeVarint n).length ≤ m.limit ∧
      ((intMax / 2 : Int) < m.readBytes ∨ m.position + (encodeVarint n).length + n ≤ m.limit) := by
  have hlimit : m.limit ≤ intMax := h.limit_eq ▸ (by decide : InputStream.defaultLimit ≤ intMax)
  by_cases hhalf : (intMax / 2 : Int) < m.readBytes
  · constructor
    · exact fun hroom => ⟨hroom.length_le, Or.inl hhalf⟩
    · rintro ⟨hlen, -⟩
      refine ⟨hlen, ?_, hlimit⟩
      rw [body_of_half hhalf]
      show 0 + n ≤ intMax
      unfold intMax
      omega
  · have hiff := room_iff_of_not_half hhalf hlimit n
    constructor
    · exact fun hroom => ⟨hroom.length_le, Or.inr (hiff.mp hroom)⟩
    · rintro ⟨-, hle⟩
      exact hiff.mpr (hle.resolve_left hhalf)

/-- The meter of a stream from its beginning, or of one that sought. -/
def Known (m : Meter) : Prop := m.Full ∨ m.Default

theorem Known.next {m : Meter} (h : m.Known) {n : Nat} (hn : n < 2 ^ 28) (hroom : m.Room n) :
    (m.next n).Known := by
  rcases h with h | h
  · exact Or.inl (h.next (le_maxBody hn))
  by_cases hhalf : (intMax / 2 : Int) < m.readBytes
  · exact Or.inl (full_next_of_half hhalf (le_maxBody hn))
  · have hle := ((h.room_iff hn).mp hroom).2.resolve_left hhalf
    rw [Meter.next, body_of_not_half hhalf]
    exact Or.inr ⟨h.limit_eq, hle⟩

/-- Every record of a log ends before the byte limit that is in force there. -/
def RoomAll : Meter → List Bytes → Prop
  | _, [] => True
  | m, body :: bodies => m.Room body.length ∧ (m.next body.length).RoomAll bodies

theorem Full.roomAll {bodies : List Bytes} (hsize : ∀ body ∈ bodies, body.length ≤ maxBody) :
    ∀ {m : Meter}, m.Full → m.RoomAll bodies := by
  induction bodies with
  | nil => exact fun _ => trivial
  | cons body bodies ih =>
    intro m h
    obtain ⟨hbody, hbodies⟩ := List.forall_mem_cons.mp hsize
    exact ⟨h.room hbody, ih hbodies (h.next hbody)⟩

/-- A log that ends before the default limit. -/
theorem Default.roomAll {bodies : List Bytes} (hsize : ∀ body ∈ bodies, body.length < 2 ^ 28) :
    ∀ {m : Meter}, m.Default → m.position + (records bodies).length ≤ m.limit →
      m.RoomAll bodies := by
  induction bodies with
  | nil => exact fun _ _ => trivial
  | cons body bodies ih =>
    intro m h hle
    obtain ⟨hbody, hbodies⟩ := List.forall_mem_cons.mp hsize
    rw [records_cons, List.length_append, record_length] at hle
    have hroom : m.Room body.length := (h.room_iff hbody).mpr ⟨by omega, Or.inr (by omega)⟩
    refine ⟨hroom, ?_⟩
    by_cases hhalf : (intMax / 2 : Int) < m.readBytes
    -- the coded stream is rebuilt, and then the limit is `INT_MAX`
    · exact (full_next_of_half hhalf (le_maxBody hbody)).roomAll fun b hb =>
        le_maxBody (hbodies b hb)
    · rw [Meter.next, body_of_not_half hhalf]
      refine ih hbodies ⟨h.limit_eq, ?_⟩ ?_
      · show m.position + (encodeVarint body.length).length + body.length ≤ m.limit
        omega
      · show m.position + (encodeVarint body.length).length + body.length + (records bodies).length ≤
          m.limit
        omega

end Meter

namespace InputStream

/-! ## Records that do not end before the limit -/

/-- The byte limit falls inside the length of the next record. -/
theorem At.nextEnvelopeSize_cut {s : InputStream} {pos n : Nat} {ahead : Bytes} {m : Meter}
    (h : s.At pos (encodeVarint n ++ ahead) m) (hnext : s.haveNextSize = false) (hn : n < 2 ^ 32)
    (hcut : m.limit < m.position + (encodeVarint n).length) : s.nextEnvelopeSize = (0, s) := by
  obtain ⟨vs, hrest, hpos, hvs⟩ := h.ahead
  rw [hnext] at hvs
  obtain rfl : vs = [] := hvs
  rw [List.nil_append] at hrest
  rw [List.length_nil, Nat.add_zero] at hpos
  have hread : s.cis.readVarint32 = none := by
    have hshort : m.limit - m.position < (encodeVarint n).length := by
      have := encodeVarint_length_pos n
      omega
    rw [CodedInputStream.readVarint32, CodedInputStream.window, ← hrest, h.limit_eq, hpos,
      List.take_append_of_le_length (Nat.le_of_lt hshort),
      streaming_readVarint32.item_take (item_readVarint32 (Nat.lt_trans hn (by decide))) hshort]
    rfl
  rw [InputStream.nextEnvelopeSize, hnext, hread]
  rfl

/-- **Step lemma** for a record that does not end before the byte limit. -/
theorem At.readEnvelope_of_not_room {s : InputStream} {pos : Nat} {body ahead : Bytes} {m : Meter}
    (h : s.At pos (record body ++ ahead) m) (hnext : s.haveNextSize = false) (hm : m.Default)
    (h0 : 0 < body.length) (hlen : body.length < 2 ^ 28) (hroom : ¬ m.Room body.length) :
    ∃ n s', s.readEnvelope = (none, n, s') := by
  have hlt : body.length < 2 ^ 32 := by omega
  rw [hm.room_iff hlen] at hroom
  rw [record, List.append_assoc] at h
  by_cases hvarint : m.position + (encodeVarint body.length).length ≤ m.limit
  · obtain ⟨hhalf, hlong⟩ := not_or.mp fun hor => hroom ⟨hvarint, hor⟩
    obtain ⟨s₁, hs₁, hpeek, -⟩ := h.nextEnvelopeSize hlt hvarint
    rw [readEnvelope_of_peeked hs₁ hpeek.have_next hpeek.next_eq]
    -- the pushed limit is behind the total byte limit, and so is the end of the file
    have hbody := Meter.body_of_not_half hhalf body.length
    have hposition := hm.position_le
    have hlimit : m.limit = 64 * 2 ^ 20 := hm.limit_eq
    have hmessage : CodedInputStream.messageLimit ⟨body ++ ahead, (m.body body.length).position,
        (m.body body.length).limit⟩ (UInt32.ofNat body.length) =
          (m.body body.length).position + body.length := by
      rw [CodedInputStream.messageLimit, toNat_ofNat_uint32 hlt, if_pos]
      rw [hbody]
      show body.length ≤ intMax - (m.position + _)
      unfold intMax
      omega
    have hparse : ∃ cis, CodedInputStream.parseEnvelope ⟨body ++ ahead,
        (m.body body.length).position, (m.body body.length).limit⟩ (UInt32.ofNat body.length) =
          (none, cis) := by
      rw [CodedInputStream.parseEnvelope, hmessage, if_pos]
      · exact ⟨_, rfl⟩
      rw [hbody]
      show m.limit < m.position + _ + body.length ∧ m.limit ≤ m.position + _ + (body ++ ahead).length
      rw [List.length_append]
      omega
    obtain ⟨cis, hparse⟩ := hparse
    exact ⟨_, _, hpeek.readEnvelope_none (ofNat_ne_zero h0 hlt) hparse⟩
  · refine ⟨0, s, ?_⟩
    rw [InputStream.readEnvelope, h.nextEnvelopeSize_cut hnext hlt (Nat.lt_of_not_le hvarint)]
    rfl

/-- A stream that sought, without a size read ahead. -/
theorem at_soughtTo {s : InputStream} (hnext : s.haveNextSize = false) (offset : Nat) :
    (s.soughtTo offset).At offset (s.file.drop offset)
      (Meter.sought s.codedInputStreamReadBytes) := by
  refine ⟨rfl, rfl, rfl, [], rfl, rfl, ?_⟩
  show if s.haveNextSize = true then _ else ([] : Bytes) = []
  rw [hnext]
  exact rfl

/-! ## Reading to the end of the file -/

/-- Where the record `k` of a stream file starts. -/
def boundaryOf (bodies : List Bytes) (k : Nat) : Nat := (streamFile (bodies.take k)).length

theorem drop_boundaryOf (bodies : List Bytes) (k : Nat) :
    (streamFile bodies).drop (boundaryOf bodies k) = records (bodies.drop k) := by
  conv_lhs => rw [← List.take_append_drop k bodies]
  rw [streamFile_append, boundaryOf, List.take_append_drop, List.drop_left]

theorem boundaryOf_succ {bodies : List Bytes} {k : Nat} {body : Bytes} {rest : List Bytes}
    (h : bodies.drop k = body :: rest) :
    boundaryOf bodies (k + 1) = boundaryOf bodies k + (record body).length := by
  have hbody : bodies[k]? = some body := by
    rw [← List.head?_drop, h]
    rfl
  rw [boundaryOf, boundaryOf, List.take_add_one, hbody, streamFile_append, List.length_append]
  simp

/-- The stream is in front of a record, and `ReadEnvelope` returns every envelope
from there to the end of the file. -/
def Complete (bodies : List Bytes) (es : List Envelope) (s : InputStream) : Prop :=
  ∃ k, k ≤ bodies.length ∧ s.offset = boundaryOf bodies k ∧
    ∃ s', ReadsAll s ((es.drop k).zip (bytesReads (bodies.drop k))) s'

/-- The stream is in front of record `k`, and the byte limit is no obstacle. -/
def Stands (bodies : List Bytes) (k : Nat) (s : InputStream) : Prop :=
  k ≤ bodies.length ∧ ∃ m, s.At (boundaryOf bodies k) (records (bodies.drop k)) m ∧
    m.RoomAll (bodies.drop k)

/-- At the end of the file there is no size. -/
theorem At.nextEnvelopeSize_nil {s : InputStream} {pos : Nat} {m : Meter} (h : s.At pos [] m) :
    s.nextEnvelopeSize = (0, s) := by
  obtain ⟨vs, hvs, -, hnext⟩ := h.ahead
  obtain ⟨rfl, hrest⟩ := List.append_eq_nil_iff.mp hvs.symm
  have hhave : ¬ s.haveNextSize = true := by
    intro hhave
    rw [if_pos hhave] at hnext
    exact absurd rfl (hnext.ne_nil progress_readVarint32)
  have hread : s.cis.readVarint32 = none := by
    rw [CodedInputStream.readVarint32, CodedInputStream.window, hrest, List.take_nil]
    rfl
  rw [InputStream.nextEnvelopeSize, if_neg hhave, hread]

/-- **The run lemma** where there is room for each record when it comes to it. -/
theorem At.readsAll_of_roomAll {bodies : List Bytes} {es : List Envelope} (hes : Parses bodies es)
    (h0 : ∀ body ∈ bodies, 0 < body.length) :
    ∀ {s : InputStream} {pos : Nat} {m : Meter}, s.At pos (records bodies) m → m.RoomAll bodies →
      ∃ s', ReadsAll s (es.zip (bytesReads bodies)) s' := by
  induction hes with
  | nil =>
    intro s pos m h _
    exact ⟨s, .done (h.readEnvelope_none rfl)⟩
  | @cons body e bodies es he _ ih =>
    intro s pos m h hroom
    obtain ⟨hbody, hbodies⟩ := List.forall_mem_cons.mp h0
    obtain ⟨s₁, hread, hat, -, -⟩ := h.readEnvelope he hbody hroom.1
    obtain ⟨s', hreads⟩ := ih hbodies hat hroom.2
    exact ⟨s', .read hread hreads⟩

section Runs

variable {bodies : List Bytes} {es : List Envelope} {s : InputStream} {k : Nat}

theorem Stands.complete (hes : Parses bodies es) (h0 : ∀ body ∈ bodies, 0 < body.length)
    (h : s.Stands bodies k) : s.Complete bodies es := by
  obtain ⟨hk, m, hat, hroom⟩ := h
  exact ⟨k, hk, hat.offset_eq, hat.readsAll_of_roomAll (List.forall₂_drop k hes)
    (fun body hb => h0 body (List.mem_of_mem_drop hb)) hroom⟩

/-- **Step lemma** for `NextEnvelopeSize`. -/
theorem Stands.nextEnvelopeSize (hsize : ∀ body ∈ bodies, body.length < 2 ^ 28)
    (h : s.Stands bodies k) : s.nextEnvelopeSize.2.Stands bodies k := by
  obtain ⟨hk, m, hat, hroom⟩ := h
  cases hdrop : bodies.drop k with
  | nil =>
    rw [hdrop] at hat hroom
    rw [hat.nextEnvelopeSize_nil]
    exact ⟨hk, m, hdrop ▸ hat, hdrop ▸ hroom⟩
  | cons body rest =>
    rw [hdrop] at hat hroom
    have hlen : body.length < 2 ^ 32 := by
      have := hsize body (List.mem_of_mem_drop (hdrop ▸ List.mem_cons_self))
      omega
    rw [records_cons, record, List.append_assoc] at hat
    obtain ⟨s', hs', hpeek, -⟩ := hat.nextEnvelopeSize hlen hroom.1.length_le
    have hat' := hpeek.at hlen
    rw [← List.append_assoc, ← record, ← records_cons] at hat'
    rw [hs']
    exact ⟨hk, m, hdrop ▸ hat', hdrop ▸ hroom⟩

/-- **Step lemma** for `ReadEnvelope`: it returns the next envelope, if there is
one. -/
theorem Stands.readEnvelope (hes : Parses bodies es)
    (hsize : ∀ body ∈ bodies, 0 < body.length ∧ body.length < 2 ^ 28) (h : s.Stands bodies k) :
    ∃ k', s.readEnvelope.2.2.Stands bodies k' := by
  obtain ⟨hk, m, hat, hroom⟩ := h
  cases hdrop : bodies.drop k with
  | nil =>
    rw [hdrop] at hat hroom
    rw [hat.readEnvelope_none rfl]
    exact ⟨k, hk, m, hdrop ▸ hat, hdrop ▸ hroom⟩
  | cons body rest =>
    have hes' := List.forall₂_drop k hes
    rw [hdrop] at hat hroom hes'
    obtain ⟨h0, hlen⟩ := hsize body (List.mem_of_mem_drop (hdrop ▸ List.mem_cons_self))
    obtain ⟨e, -, he, -, -⟩ := List.forall₂_cons_left_iff.mp hes'
    obtain ⟨s', hread, hat', -, -⟩ := hat.readEnvelope he h0 hroom.1
    rw [bytesReadOf_eq_length hlen, ← boundaryOf_succ hdrop] at hat'
    have hrest : bodies.drop (k + 1) = rest := by
      rw [← List.drop_drop, hdrop]
      rfl
    have hk' : k < bodies.length := by
      by_contra hge
      rw [List.drop_eq_nil_of_le (Nat.le_of_not_lt hge)] at hdrop
      cases hdrop
    rw [hread]
    exact ⟨k + 1, hk', _, hrest ▸ hat', hrest ▸ hroom.2⟩

/-- A stream that sought to a record, without a size read ahead. -/
theorem at_soughtTo_boundaryOf (hfile : s.file = streamFile bodies)
    (hnext : s.haveNextSize = false) :
    (s.soughtTo (boundaryOf bodies k)).At (boundaryOf bodies k) (records (bodies.drop k))
      (Meter.sought s.codedInputStreamReadBytes) := by
  rw [← drop_boundaryOf, ← hfile]
  exact at_soughtTo hnext _

theorem stands_opened (hsize : ∀ body ∈ bodies, body.length < 2 ^ 28)
    (hopen : ofFile (some (streamFile bodies)) 0 = .ok s) : s.Stands bodies 0 := by
  obtain ⟨s₀, hopen₀, hat, -, -⟩ := ofFile_at (records bodies)
  rw [show streamFile bodies = 1 :: records bodies from rfl, hopen₀] at hopen
  cases hopen
  exact ⟨Nat.zero_le _, _, hat, full_begin.roomAll fun body hb =>
    Meter.le_maxBody (hsize body hb)⟩

/-- A seek to a record: no size was read ahead, and each record from there on ends
before the byte limit in force there. That is 64 MiB behind the seek until the
count, which the seek keeps, passes half of `INT_MAX`. -/
def SeekHasRoom (bodies : List Bytes) (s : InputStream) (offset : Int) : Prop :=
  ∃ k, k ≤ bodies.length ∧ offset = boundaryOf bodies k ∧ s.haveNextSize = false ∧
    (Meter.sought s.codedInputStreamReadBytes).RoomAll (bodies.drop k)

/-- **Run lemma**: calls and seeks that have room. -/
theorem Reached.stands (hes : Parses bodies es)
    (hsize : ∀ body ∈ bodies, 0 < body.length ∧ body.length < 2 ^ 28)
    (h : Reached (streamFile bodies) (SeekHasRoom bodies) s) : ∃ k, s.Stands bodies k := by
  have hlen : ∀ body ∈ bodies, body.length < 2 ^ 28 := fun body hb => (hsize body hb).2
  induction h with
  | opened hopen => exact ⟨0, stands_opened hlen hopen⟩
  | @openedAt s s' offset h0 hopen hallowed h =>
    obtain ⟨k, hk, rfl, hnext, hroom⟩ := hallowed
    rw [show streamFile bodies = 1 :: records bodies from rfl] at hopen h
    rw [ofFile_ofNat _ (Int.natCast_pos.mp h0)] at h
    cases hopen
    cases h
    exact ⟨k, hk, _, at_soughtTo_boundaryOf rfl hnext, hroom⟩
  | nextEnvelopeSize _ ih =>
    obtain ⟨k, hstands⟩ := ih
    exact ⟨k, hstands.nextEnvelopeSize hlen⟩
  | readEnvelope _ ih =>
    obtain ⟨k, hstands⟩ := ih
    exact hstands.readEnvelope hes hsize
  | @setAbsoluteOffset s s' offset hreached hallowed hseek ih =>
    obtain ⟨k, hk, rfl, hnext, hroom⟩ := hallowed
    rw [setAbsoluteOffset_ofNat] at hseek
    cases hseek
    exact ⟨k, hk, _, at_soughtTo_boundaryOf hreached.file_eq.1 hnext, hroom⟩

/-- Without room for all records, reading ends at the first that has none. -/
theorem At.roomAll_of_readsAll {bodies : List Bytes} {es : List Envelope} (hes : Parses bodies es)
    (hsize : ∀ body ∈ bodies, 0 < body.length ∧ body.length < 2 ^ 28) :
    ∀ {s s' : InputStream} {pos : Nat} {m : Meter}, s.At pos (records bodies) m →
      s.haveNextSize = false → m.Known → ReadsAll s (es.zip (bytesReads bodies)) s' →
      m.RoomAll bodies := by
  induction hes with
  | nil => exact fun _ _ _ _ => trivial
  | @cons body e bodies es he _ ih =>
    intro s s' pos m hat hnext hm hreads
    obtain ⟨⟨h0, hlen⟩, hbodies⟩ := List.forall_mem_cons.mp hsize
    have hroom : m.Room body.length := by
      by_contra hroom
      have hnone : ∃ n s', s.readEnvelope = (none, n, s') := by
        rcases hm with hm | hm
        · exact absurd (hm.room (Meter.le_maxBody hlen)) hroom
        · exact hat.readEnvelope_of_not_room hnext hm h0 hlen hroom
      obtain ⟨n, s₁, hnone⟩ := hnone
      cases hreads with
      | read hread _ =>
        rw [hnone] at hread
        cases hread
    obtain ⟨s₁, hread, hat₁, hnext₁, -⟩ := hat.readEnvelope he h0 hroom
    refine ⟨hroom, ?_⟩
    cases hreads with
    | read hread' hrest =>
      rw [hread] at hread'
      cases hread'
      exact ih hbodies hat₁ hnext₁ (hm.next hlen hroom) hrest

/-- A record boundary determines the record. -/
theorem boundaryOf_injective {j : Nat} (hj : j ≤ bodies.length) (hk : k ≤ bodies.length)
    (h : boundaryOf bodies j = boundaryOf bodies k) : j = k := by
  have hstep : ∀ {i : Nat}, i < bodies.length → boundaryOf bodies i < boundaryOf bodies (i + 1) := by
    intro i hi
    rw [boundaryOf_succ (List.drop_eq_getElem_cons hi)]
    have := record_length_pos bodies[i]
    omega
  have hmono : ∀ {i l : Nat}, i < l → l ≤ bodies.length →
      boundaryOf bodies i < boundaryOf bodies l := by
    intro i l hil hl
    induction l with
    | zero => exact absurd hil (Nat.not_lt_zero i)
    | succ l ih =>
      rcases Nat.lt_succ_iff_lt_or_eq.mp hil with hlt | rfl
      · exact (ih hlt (Nat.le_of_succ_le hl)).trans (hstep hl)
      · exact hstep hl
  rcases Nat.lt_trichotomy j k with hlt | heq | hgt
  · exact absurd h (hmono hlt hk).ne
  · exact heq
  · exact absurd h (hmono hgt hj).ne'

/-- A seek without a size read ahead is complete exactly when it has room. -/
theorem complete_soughtTo_iff (hes : Parses bodies es)
    (hsize : ∀ body ∈ bodies, 0 < body.length ∧ body.length < 2 ^ 28)
    (hfile : s.file = streamFile bodies) (hnext : s.haveNextSize = false)
    (hk : k ≤ bodies.length) :
    (s.soughtTo (boundaryOf bodies k)).Complete bodies es ↔
      (Meter.sought s.codedInputStreamReadBytes).RoomAll (bodies.drop k) := by
  have hat := at_soughtTo_boundaryOf (k := k) hfile hnext
  constructor
  · rintro ⟨j, hj, hoffset, s', hreads⟩
    obtain rfl : j = k :=
      boundaryOf_injective hj hk (Int.ofNat.inj (hoffset.symm.trans hat.offset_eq))
    exact hat.roomAll_of_readsAll (List.forall₂_drop j hes)
      (fun body hb => hsize body (List.mem_of_mem_drop hb)) hnext
      (Or.inr (Meter.default_sought _)) hreads
  · intro hroom
    exact Stands.complete hes (fun body hb => (hsize body hb).1) ⟨hk, _, hat, hroom⟩

/-- **The byte limit** fails no read in any run whose seeks have room, and a seek without a size
read ahead has to have room. Without a seek there is no condition: the coded stream is made anew
before its own limit comes, however long the file is. The records have 1 to 2^28 - 1 bytes. -/
theorem read_limit (hes : Parses bodies es)
    (hsize : ∀ body ∈ bodies, 0 < body.length ∧ body.length < 2 ^ 28) :
    (∀ s, Reached (streamFile bodies) (SeekHasRoom bodies) s → s.Complete bodies es) ∧
    ∀ s k, Reached (streamFile bodies) (fun _ _ => True) s → s.haveNextSize = false →
      k ≤ bodies.length →
      ((s.soughtTo (boundaryOf bodies k)).Complete bodies es ↔
        SeekHasRoom bodies s (boundaryOf bodies k)) := by
  constructor
  · intro s hreached
    obtain ⟨k, hstands⟩ := hreached.stands hes hsize
    exact hstands.complete hes fun body hb => (hsize body hb).1
  · intro s k hreached hnext hk
    rw [complete_soughtTo_iff hes hsize hreached.file_eq.1 hnext hk]
    constructor
    · exact fun hroom => ⟨k, hk, rfl, hnext, hroom⟩
    · rintro ⟨j, hj, hoffset, -, hroom⟩
      rwa [boundaryOf_injective hk hj (Int.ofNat.inj hoffset)]

end Runs

/-- One of two records is read, and the stream seeks back. -/
theorem read_limit_seek_back :
    ∃ s, ofFile (some (streamFile [[40, 5], [40, 6]])) 0 = .ok s ∧
      (s.readEnvelope.2.2.soughtTo 1).Complete [[40, 5], [40, 6]]
        [Envelope.new 5, Envelope.new 6] := by
  have hes : Parses [[40, 5], [40, 6]] [Envelope.new 5, Envelope.new 6] :=
    .cons (by decide) (.cons (by decide) .nil)
  obtain ⟨s, hopen, -, -, -⟩ := ofFile_at (records [[40, 5], [40, 6]])
  have hs := hopen
  cases hopen
  refine ⟨_, hs, (read_limit hes (by decide)).1 _
    (.setAbsoluteOffset (.readEnvelope (.opened hs)) ⟨0, by decide, rfl, rfl, ?_⟩
      (setAbsoluteOffset_ofNat _ _))⟩
  exact (Meter.default_sought _).roomAll (by decide) (by decide)

/-- An envelope of 2^26 bytes and more is not read behind a seek. -/
theorem not_complete_long :
    (longEnvelope (2 ^ 26)).serialize.length < 2 ^ 28 ∧
    ∃ s, ofFile (some (streamFile [(longEnvelope (2 ^ 26)).serialize])) 1 = .ok s ∧
      ¬ s.Complete [(longEnvelope (2 ^ 26)).serialize] [longEnvelope (2 ^ 26)] := by
  have hlen : (longEnvelope (2 ^ 26)).serialize.length = 2 ^ 26 + 5 := by
    rw [length_serialize_longEnvelope (by decide),
      encodeVarint_length_eq (k := 3) (by decide) (by decide)]
    decide
  generalize longEnvelope (2 ^ 26) = e at hlen
  have hlong : ¬ 0 + (encodeVarint e.serialize.length).length + e.serialize.length ≤
      64 * 2 ^ 20 := by omega
  have hes : Parses [e.serialize] [e] := .cons (Envelope.parse_serialize e) .nil
  have hsize : ∀ body ∈ [e.serialize], 0 < body.length ∧ body.length < 2 ^ 28 := by
    intro body hb
    rw [List.mem_singleton.mp hb, hlen]
    decide
  obtain ⟨s, hopen, -, hnext, hfile⟩ := ofFile_at (records [e.serialize])
  refine ⟨by rw [hlen]; decide, _, ofFile_ofNat _ (by decide : 0 < 1), fun hcomplete => ?_⟩
  have hs := hopen
  cases hopen
  have hroom := (complete_soughtTo_iff (k := 0) hes hsize hfile hnext (Nat.zero_le _)).mp hcomplete
  have hshort := ((Meter.default_sought _).room_iff (hsize _ List.mem_cons_self).2).mp hroom.1
  have hhalf : ¬ (intMax / 2 : Int) < 0 := by decide
  have hle := hshort.2.resolve_left hhalf
  rw [Meter.position_sought, Meter.limit_sought, defaultLimit] at hle
  exact hlong hle

end InputStream

end Zippylog
