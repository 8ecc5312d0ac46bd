import Zippylog.Seek

/-!
# The sizes of records

`ReadEnvelope` reports for each envelope how many bytes its record has, and adds these counts up
to the offset of the stream. It computes a count from the size of the body, with a case for each
number of bytes that the length in front of it can take, and has no case for five.

- `InFront`: a stream in front of records, at the offset where they are in the file, as it is
  when it was opened.
- `Reads`: any calls of `ReadEnvelope` that return true, and `NextEnvelopeSize` between them.
- `Reads.countsRecords_iff`: the counts of a run are right up to the first length of five bytes.
- `At.reads`, `Reads.not_atEnd`: records are read up to the end of the file, and nobody is there
  before all of them were.
-/

namespace Zippylog

open Wire

namespace InputStream

/-! ## In front of records -/

/-- The stream stands in front of records, and its offset is their place in the file. -/
structure InFront (s : InputStream) (front : Bytes) (bodies : List Bytes) (ahead : Bytes) :
    Prop where
  file : s.file = front ++ (records bodies ++ ahead)
  offset : s.offset = front.length
  before : s.Before (records bodies ++ ahead)

/-- A stream that was opened at its beginning. -/
theorem inFront_ofFile {bodies : List Bytes} {ahead : Bytes} {s : InputStream}
    (h : ofFile (some (1 :: (records bodies ++ ahead))) 0 = .ok s) :
    s.InFront [1] bodies ahead := by
  obtain ⟨s', hopen, hat, -, hfile⟩ := ofFile_at (records bodies ++ ahead)
  rw [hopen] at h
  cases h
  exact ⟨hfile, hat.offset_eq, hat.before (Nat.le_refl _)⟩

/-! ## Calls -/

/-- Calls on a stream, of which each `ReadEnvelope` returns an envelope and `bytes_read`. -/
inductive Reads : InputStream → List (Envelope × UInt32) → InputStream → Prop where
  | nil (s : InputStream) : Reads s [] s
  | nextEnvelopeSize {s s' : InputStream} {ens : List (Envelope × UInt32)}
      (hs : Reads s.nextEnvelopeSize.2 ens s') : Reads s ens s'
  | readEnvelope {s s₁ s' : InputStream} {e : Envelope} {n : UInt32}
      {ens : List (Envelope × UInt32)} (h : s.readEnvelope = (some e, n, s₁))
      (hs : Reads s₁ ens s') : Reads s ((e, n) :: ens) s'

/-- The counts are the sizes of the records that were read, and the stream is at the place of
the next one in the file. -/
structure CountsRecords (front : Bytes) (bodies : List Bytes) (ens : List (Envelope × UInt32))
    (s' : InputStream) : Prop where
  bytes_read : ens.map (·.2.toNat) = (bodies.take ens.length).map fun body => (record body).length
  offset : s'.offset = (front ++ records (bodies.take ens.length)).length

section Calls

variable {s s' : InputStream} {ens : List (Envelope × UInt32)} {bodies : List Bytes}
  {ahead : Bytes}

/-- A size that is read ahead is that of the record in front. -/
theorem Before.next {body : Bytes} (h : s.Before (records (body :: bodies) ++ ahead))
    (hlen : body.length < 2 ^ 31) :
    s.nextEnvelopeSize.2.Before (records (body :: bodies) ++ ahead) := by
  have hlt : body.length < 2 ^ 32 := by omega
  have hsplit : records (body :: bodies) ++ ahead =
      encodeVarint body.length ++ (body ++ (records bodies ++ ahead)) := by
    rw [records_cons, record, List.append_assoc, List.append_assoc]
  rw [hsplit] at h ⊢
  rcases h.nextEnvelopeSize hlt with hzero | ⟨s₁, hs₁, hhave, hnext, hrest, hlimit, -⟩
  · rw [hzero]
    exact h
  · rw [hs₁]
    refine ⟨hlimit, encodeVarint body.length, by rw [hrest], ?_⟩
    rw [if_pos hhave, hnext]
    exact item_length hlt

theorem Exhausted.nextEnvelopeSize (h : s.Exhausted) : s.nextEnvelopeSize.2 = s := by
  have hread : s.cis.readVarint32 = none := by
    unfold CodedInputStream.readVarint32 CodedInputStream.window
    rw [Nat.sub_eq_zero_of_le h.2, List.take_zero]
    rfl
  rw [InputStream.nextEnvelopeSize, h.1, hread]
  rfl

/-- Where the byte limit is used up nothing more is read. -/
theorem Reads.of_exhausted (h : Reads s ens s') (hused : s.Exhausted) : ens = [] ∧ s' = s := by
  induction h with
  | nil s => exact ⟨rfl, rfl⟩
  | nextEnvelopeSize _ ih =>
    rw [hused.nextEnvelopeSize] at ih
    exact ih hused
  | readEnvelope hread _ _ =>
    rw [hused.readEnvelope] at hread
    cases hread

/-- Sizes that are read ahead do not move the offset. -/
theorem Reads.offset_of_nil (h : Reads s ens s') (hens : ens = []) : s'.offset = s.offset := by
  induction h with
  | nil s => rfl
  | nextEnvelopeSize _ ih => rw [ih hens, offset_nextEnvelopeSize]
  | readEnvelope _ _ _ => cases hens

/-- **Run lemma**: what is reported, for records of any size. -/
theorem Reads.bytesReadOf (h : Reads s ens s') (hlen : ∀ body ∈ bodies, body.length < 2 ^ 31)
    (hbefore : s.Before (records bodies ++ ahead)) (hcount : ens.length ≤ bodies.length) :
    ens.map (·.2.toNat) =
        (bodies.take ens.length).map (fun body => Zippylog.bytesReadOf body.length) ∧
      s'.offset = s.offset + (ens.map (·.2.toNat)).sum := by
  induction h generalizing bodies with
  | nil s =>
    refine ⟨rfl, ?_⟩
    simp
  | @nextEnvelopeSize s s' ens hs ih =>
    rw [← offset_nextEnvelopeSize s]
    cases bodies with
    | nil =>
      obtain rfl : ens = [] := List.eq_nil_of_length_eq_zero (Nat.le_zero.mp hcount)
      exact ⟨rfl, by simp [hs.offset_of_nil rfl]⟩
    | cons body bodies => exact ih hlen (hbefore.next (hlen body List.mem_cons_self)) hcount
  | @readEnvelope s s₁ s' e n ens hread hs ih =>
    cases bodies with
    | nil => exact absurd hcount (Nat.not_succ_le_zero _)
    | cons body bodies =>
      rw [records_cons, record, List.append_assoc, List.append_assoc] at hbefore
      obtain ⟨-, hn, hoffset, hnext⟩ :=
        hbefore.readEnvelope (hlen body List.mem_cons_self) hread
      rw [List.drop_left] at hnext
      have hcount' : ens.length ≤ bodies.length := Nat.le_of_succ_le_succ hcount
      have hlen' : ∀ b ∈ bodies, b.length < 2 ^ 31 := fun b hb =>
        hlen b (List.mem_cons_of_mem _ hb)
      have hrest : ens.map (·.2.toNat) =
            (bodies.take ens.length).map (fun body => Zippylog.bytesReadOf body.length) ∧
          s'.offset = s₁.offset + (ens.map (·.2.toNat)).sum := by
        rcases hnext with hbefore | ⟨hused, -⟩
        · exact ih hlen' hbefore hcount'
        · obtain ⟨rfl, rfl⟩ := hs.of_exhausted hused
          refine ⟨rfl, ?_⟩
          simp
      constructor
      · simp only [List.map_cons, List.length_cons, List.take_succ_cons, hn, hrest.1]
      · rw [hrest.2, hoffset, List.map_cons, List.sum_cons, hn]
        omega

/-! ### The end of the file -/

/-- Nothing is left to read: no byte of the file, and no size that was read ahead. -/
def AtEnd (s : InputStream) : Prop := s.haveNextSize = false ∧ s.cis.rest = []

theorem At.atEnd {pos : Nat} {m : Meter} (h : s.At pos [] m) : s.AtEnd := by
  obtain ⟨vs, hvs, -, hnext⟩ := h.ahead
  obtain ⟨rfl, hrest⟩ := List.append_eq_nil_iff.mp hvs.symm
  refine ⟨Bool.eq_false_of_not_eq_true fun hhave => ?_, hrest⟩
  rw [if_pos hhave] at hnext
  exact absurd ((hnext []).symm.trans progress_readVarint32) (Option.some_ne_none _)

/-- In front of a record there is something left. -/
theorem Before.not_atEnd {body : Bytes} (h : s.Before (records (body :: bodies) ++ ahead)) :
    ¬ s.AtEnd := by
  rintro ⟨hhave, hrest⟩
  obtain ⟨vs, hvs, hnext⟩ := h.ahead
  rw [hhave] at hnext
  rw [records_cons, hnext, hrest] at hvs
  have hlength := record_length_pos body
  rw [(List.append_eq_nil_iff.mp (List.append_eq_nil_iff.mp hvs).1).1] at hlength
  exact absurd hlength (Nat.lt_irrefl _)

/-- Records that fit the coded stream are read up to the last one. -/
theorem At.reads {es : List Envelope} (hes : Parses bodies es) :
    ∀ {s : InputStream} {pos : Nat} {m : Meter}, s.At pos (records bodies ++ ahead) m → m.Full →
      (∀ body ∈ bodies, 0 < body.length ∧ body.length ≤ Meter.maxBody) →
      ∃ s' pos' m', Reads s (es.zip (bytesReads bodies)) s' ∧ s'.At pos' ahead m' := by
  induction hes with
  | nil => exact fun h _ _ => ⟨_, _, _, .nil _, h⟩
  | @cons body e bodies es he _ ih =>
    intro s pos m h hm hsize
    rw [records_cons, List.append_assoc] at h
    obtain ⟨h0, hmax⟩ := hsize body List.mem_cons_self
    obtain ⟨s₁, hread, hat, -⟩ := h.readEnvelope he h0 (hm.room hmax)
    obtain ⟨s', pos', m', hreads, hat'⟩ :=
      ih hat (hm.next hmax) fun b hb => hsize b (List.mem_cons_of_mem _ hb)
    exact ⟨s', pos', m', .readEnvelope hread hreads, hat'⟩

/-- A reader that has returned fewer envelopes than there are records is not at the end. -/
theorem Reads.not_atEnd (h : Reads s ens s') (hlen : ∀ body ∈ bodies, body.length < 2 ^ 31)
    (hbefore : s.Before (records bodies ++ ahead)) (hcount : ens.length < bodies.length) :
    ¬ s'.AtEnd := by
  induction h generalizing bodies with
  | nil s =>
    obtain ⟨body, bodies, rfl⟩ := List.exists_cons_of_length_pos hcount
    exact hbefore.not_atEnd
  | @nextEnvelopeSize s s' ens hs ih =>
    obtain ⟨body, bodies, rfl⟩ := List.exists_cons_of_length_pos (Nat.zero_lt_of_lt hcount)
    exact ih hlen (hbefore.next (hlen body List.mem_cons_self)) hcount
  | @readEnvelope s s₁ s' e n ens hread hs ih =>
    obtain ⟨body, bodies, rfl⟩ := List.exists_cons_of_length_pos (Nat.zero_lt_of_lt hcount)
    rw [records_cons, record, List.append_assoc, List.append_assoc] at hbefore
    obtain ⟨-, -, -, hnext⟩ := hbefore.readEnvelope (hlen body List.mem_cons_self) hread
    rw [List.drop_left] at hnext
    rcases hnext with hbefore | ⟨hused, hleft⟩
    · exact ih (fun b hb => hlen b (List.mem_cons_of_mem _ hb)) hbefore
        (Nat.lt_of_succ_lt_succ hcount)
    · obtain ⟨-, rfl⟩ := hs.of_exhausted hused
      exact fun hend => hleft hend.2

end Calls

/-- **Record sizes**: the counts of any run of reads are right exactly if the length of each record
that was read takes at most four bytes. A length of five bytes is counted as one of four. -/
theorem Reads.countsRecords_iff {s s' : InputStream} {front ahead : Bytes} {bodies : List Bytes}
    {ens : List (Envelope × UInt32)} (h : Reads s ens s') (hfront : s.InFront front bodies ahead)
    (hlen : ∀ body ∈ bodies, body.length < 2 ^ 31) (hcount : ens.length ≤ bodies.length) :
    CountsRecords front bodies ens s' ↔ ∀ body ∈ bodies.take ens.length, body.length < 2 ^ 28 := by
  obtain ⟨hcounts, hoffset⟩ := h.bytesReadOf hlen hfront.before hcount
  constructor
  · intro hright body hbody
    have hsame := hright.bytes_read
    rw [hcounts, List.map_inj_left] at hsame
    by_contra hlong
    have hshort := bytesReadOf_add_one (Nat.le_of_not_lt hlong)
      (hlen body (List.mem_of_mem_take hbody))
    have := hsame body hbody
    omega
  · intro hshort
    constructor
    · rw [hcounts]
      exact List.map_congr_left fun body hbody => bytesReadOf_eq_length (hshort body hbody)
    · rw [hoffset, hcounts, sum_bytesReadOf hshort, hfront.offset, List.length_append]
      norm_cast

/-- The only record of a file is read. -/
theorem reads_single {e : Envelope} {m : Nat} (hm : e.serialize.length = m) (hpos : 0 < m)
    (hmax : m ≤ Meter.maxBody) :
    ∃ s s', ofFile (some (1 :: records [e.serialize])) 0 = .ok s ∧
      s.InFront [1] [e.serialize] [] ∧
      Reads s [(e, bytesRead (UInt32.ofNat e.serialize.length))] s' := by
  obtain ⟨s, hopen, hat, -, -⟩ := ofFile_at (records [e.serialize])
  have hfile : (1 :: records [e.serialize] : Bytes) = 1 :: (records [e.serialize] ++ []) := by
    rw [List.append_nil]
  have hrecord : records [e.serialize] = record e.serialize ++ [] := rfl
  rw [hrecord] at hat
  obtain ⟨s', hread, -⟩ := hat.readEnvelope (Envelope.parse_serialize e) (by omega)
    (full_begin.room (by omega))
  refine ⟨s, s', hopen, inFront_ofFile ?_, .readEnvelope hread (.nil _)⟩
  rw [← hfile]
  exact hopen

/-- A record of two bytes. -/
theorem countsRecords_short : ∃ s s', Reads s [(Envelope.new 5, 3)] s' ∧
    CountsRecords [1] [(Envelope.new 5).serialize] [(Envelope.new 5, 3)] s' := by
  obtain ⟨s, s', -, hfront, hreads⟩ := reads_single (e := Envelope.new 5) (m := 2) (by decide)
    (by decide) (by decide)
  exact ⟨s, s', hreads, (hreads.countsRecords_iff hfront (by decide) (by decide)).mpr (by decide)⟩

/-- A record of 2^28 bytes and more. -/
theorem not_countsRecords_long :
    (longEnvelope (2 ^ 28)).serialize.length < 2 ^ 31 ∧
    ∃ s s' ens, ofFile (some (1 :: records [(longEnvelope (2 ^ 28)).serialize])) 0 = .ok s ∧
      s.InFront [1] [(longEnvelope (2 ^ 28)).serialize] [] ∧ Reads s ens s' ∧
      ens.map Prod.fst = [longEnvelope (2 ^ 28)] ∧
      ¬ CountsRecords [1] [(longEnvelope (2 ^ 28)).serialize] ens s' := by
  have hlen : (longEnvelope (2 ^ 28)).serialize.length = 2 ^ 28 + 6 := by
    rw [length_serialize_longEnvelope (by decide),
      encodeVarint_length_eq (k := 4) (by decide) (by decide)]
    decide
  generalize longEnvelope (2 ^ 28) = e at hlen
  obtain ⟨s, s', hopen, hfront, hreads⟩ := reads_single hlen (by decide) (by decide)
  refine ⟨by rw [hlen]; decide, s, s', _, hopen, hfront, hreads, rfl, fun hright => ?_⟩
  have hsize : ∀ body ∈ [e.serialize], body.length < 2 ^ 31 := by
    intro body hb
    rw [List.mem_singleton.mp hb, hlen]
    decide
  have hcounts := (hreads.bytesReadOf hsize hfront.before le_rfl).1.symm.trans hright.bytes_read
  rw [List.length_singleton, List.take_succ_cons, List.map_cons, List.map_cons] at hcounts
  have hcount := (List.cons.inj hcounts).1
  have hshort := @bytesReadOf_add_one e.serialize (by rw [hlen]; decide)
    (by rw [hlen]; decide)
  omega

end InputStream

end Zippylog
