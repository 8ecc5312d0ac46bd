import Zippylog.Machine
import Zippylog.StreamFile

/-!
# Seeking

What `SetAbsoluteOffset` leaves as it was: a size that was read ahead, and the
count of bytes that decides when the coded stream is rebuilt. Both belong to the place that the
stream has left. A stream that was opened at the offset has neither, and reads the file as it is
there; the two are compared by all calls that come behind.

- `InputStream.seek_as_opened`: when a stream that sought reads like one that was
  opened there. The streams are related by what they have in front of them, and each call keeps the
  relation or ends both alike. Where a size was read ahead an offset is given at which the answers
  differ.
-/

namespace Zippylog

open Wire

namespace InputStream

/-! ## Calls and their results -/

/-- A call that reads. -/
inductive ReadCall where
  | nextEnvelopeSize
  | readEnvelope
  | currentEnvelopeOffset
  deriving DecidableEq

/-- What a call returns; `bytes_read` is a result of `ReadEnvelope`. -/
inductive ReadResult where
  | size (n : UInt32)
  | envelope (e : Option Envelope) (bytesRead : UInt32)
  | offset (offset : Int)
  deriving DecidableEq

def answer (s : InputStream) : ReadCall → ReadResult × InputStream
  | .nextEnvelopeSize => (.size s.nextEnvelopeSize.1, s.nextEnvelopeSize.2)
  | .readEnvelope => (.envelope s.readEnvelope.1 s.readEnvelope.2.1, s.readEnvelope.2.2)
  | .currentEnvelopeOffset => (.offset s.offset, s)

/-- The results of calls one after the other. -/
def results (s : InputStream) (calls : List ReadCall) : List ReadResult :=
  Machine.outputs answer s calls

/-- The states of a `FileInputStream` on a file: it is opened, at its beginning or
at an offset, and calls are made. `allowed` is asked for every seek. A seek that
throws is left out: only another seek can follow it, and that replaces all that
the first one changed. -/
inductive Reached (file : Bytes) (allowed : InputStream → Int → Prop) : InputStream → Prop where
  | opened {s : InputStream} (h : ofFile (some file) 0 = .ok s) : Reached file allowed s
  | openedAt {s s' : InputStream} {offset : Int} (h0 : 0 < offset)
      (hopen : ofFile (some file) 0 = .ok s) (hallowed : allowed s offset)
      (h : ofFile (some file) offset = .ok s') : Reached file allowed s'
  | nextEnvelopeSize {s : InputStream} (h : Reached file allowed s) :
      Reached file allowed s.nextEnvelopeSize.2
  | readEnvelope {s : InputStream} (h : Reached file allowed s) :
      Reached file allowed s.readEnvelope.2.2
  | setAbsoluteOffset {s s' : InputStream} {offset : Int} (h : Reached file allowed s)
      (hallowed : allowed s offset) (hseek : s.setAbsoluteOffset offset = .ok s') :
      Reached file allowed s'

/-- The stream behind `SetAbsoluteOffset`, which only throws on a negative offset. -/
def soughtTo (s : InputStream) (offset : Nat) : InputStream :=
  { s with cis := { rest := s.file.drop offset }, offset := offset }

theorem setAbsoluteOffset_ofNat (s : InputStream) (offset : Nat) :
    s.setAbsoluteOffset offset = .ok (s.soughtTo offset) := by
  rw [setAbsoluteOffset, if_neg (Int.not_lt.mpr (Int.natCast_nonneg offset))]
  rfl

/-- A stream that was just opened at an offset. -/
def openedAt (file : Bytes) (offset : Nat) : InputStream where
  file := file
  cis := { rest := file.drop offset }
  version := 1
  offset := offset

/-- Opening succeeds on a file with the version byte. -/
theorem ofFile_ofNat (log : Bytes) {offset : Nat} (h0 : 0 < offset) :
    ofFile (some (1 :: log)) offset = .ok (openedAt (1 :: log) offset) := by
  have hpos : (0 : Int) < offset := Int.natCast_pos.mpr h0
  show (if (0 : Int) < offset then _ else _) = _
  rw [if_pos hpos, setAbsoluteOffset_ofNat]
  rfl

/-- The file of a stream that could be opened has the version byte. -/
theorem exists_log_of_ofFile {file : Bytes} {s : InputStream}
    (h : ofFile (some file) 0 = .ok s) : ∃ log, file = 1 :: log := by
  cases file with
  | nil => cases h
  | cons v log =>
    by_cases hv : v = 1
    · exact ⟨log, by rw [hv]⟩
    · have hversion : readVersion (rebuildCodedInputStream
          { file := v :: log, cis := { rest := v :: log } }) = (false, _) :=
        Prod.ext (decide_eq_false hv) rfl
      rw [ofFile, hversion] at h
      cases h

/-! ## What calls keep -/

theorem file_nextEnvelopeSize (s : InputStream) : s.nextEnvelopeSize.2.file = s.file := by
  rw [InputStream.nextEnvelopeSize]
  split
  · rfl
  · split <;> rfl

theorem readBytes_nextEnvelopeSize (s : InputStream) :
    s.nextEnvelopeSize.2.codedInputStreamReadBytes = s.codedInputStreamReadBytes := by
  rw [InputStream.nextEnvelopeSize]
  split
  · rfl
  · split <;> rfl

/-- What `ReadEnvelope` makes of the parser's result, on the stream it was parsed
from. -/
def returned (s : InputStream) (size : UInt32) :
    Option Envelope × CodedInputStream → Option Envelope × UInt32 × InputStream
  | (none, cis) => (none, 0, { s with cis := cis, haveNextSize := false })
  | (some e, cis) =>
    (some e, bytesRead size, { s with
      cis := cis
      haveNextSize := false
      offset := s.offset + (bytesRead size).toNat
      codedInputStreamReadBytes :=
        (s.codedInputStreamReadBytes + (bytesRead size).toNat).bmod (2 ^ 32) })

/-- `ReadEnvelope` is `NextEnvelopeSize`, and then the body is parsed by the coded
stream that is there or by a new one. -/
theorem readEnvelope_eq (s : InputStream) :
    s.readEnvelope =
      if s.nextEnvelopeSize.1 = 0 then (none, 0, s.nextEnvelopeSize.2)
      else s.nextEnvelopeSize.2.rebuildIfHalfRead.returned s.nextEnvelopeSize.1
        (s.nextEnvelopeSize.2.rebuildIfHalfRead.cis.parseEnvelope s.nextEnvelopeSize.1) :=
  rfl

theorem file_returned (s : InputStream) (size : UInt32) (r : Option Envelope × CodedInputStream) :
    (s.returned size r).2.2.file = s.file := by
  rcases r with ⟨_ | e, cis⟩ <;> rfl

theorem file_rebuildIfHalfRead (s : InputStream) : s.rebuildIfHalfRead.file = s.file := by
  rw [InputStream.rebuildIfHalfRead]
  split <;> rfl

theorem file_readEnvelope (s : InputStream) : s.readEnvelope.2.2.file = s.file := by
  rw [readEnvelope_eq]
  split
  · exact file_nextEnvelopeSize s
  · rw [file_returned, file_rebuildIfHalfRead, file_nextEnvelopeSize]

/-- The count is an `int32`. -/
theorem le_readBytes_readEnvelope {s : InputStream} (h : -2 ^ 31 ≤ s.codedInputStreamReadBytes) :
    -2 ^ 31 ≤ s.readEnvelope.2.2.codedInputStreamReadBytes := by
  have hpeek : -2 ^ 31 ≤ s.nextEnvelopeSize.2.codedInputStreamReadBytes := by
    rwa [readBytes_nextEnvelopeSize]
  have hrebuild : -2 ^ 31 ≤
      s.nextEnvelopeSize.2.rebuildIfHalfRead.codedInputStreamReadBytes := by
    rw [InputStream.rebuildIfHalfRead]
    split
    · show (-2 ^ 31 : Int) ≤ 0
      decide
    · exact hpeek
  rw [readEnvelope_eq]
  split
  · exact hpeek
  · rcases CodedInputStream.parseEnvelope _ _ with ⟨_ | e, cis⟩
    · exact hrebuild
    · show -2 ^ 31 ≤ Int.bmod _ (2 ^ 32)
      have := Int.le_bmod (x := s.nextEnvelopeSize.2.rebuildIfHalfRead.codedInputStreamReadBytes +
        (bytesRead s.nextEnvelopeSize.1).toNat) (m := 2 ^ 32) (by decide)
      omega

section Reached

variable {file : Bytes} {allowed : InputStream → Int → Prop} {s : InputStream}

theorem file_of_setAbsoluteOffset {s' : InputStream} {offset : Int}
    (h : s.setAbsoluteOffset offset = .ok s') : s'.file = s.file ∧
      s'.codedInputStreamReadBytes = s.codedInputStreamReadBytes := by
  rw [setAbsoluteOffset] at h
  split at h
  · cases h
  · cases h
    exact ⟨rfl, rfl⟩

theorem Reached.exists_log (h : Reached file allowed s) : ∃ log, file = 1 :: log := by
  induction h with
  | opened h => exact exists_log_of_ofFile h
  | openedAt _ hopen _ _ => exact exists_log_of_ofFile hopen
  | nextEnvelopeSize _ ih => exact ih
  | readEnvelope _ ih => exact ih
  | setAbsoluteOffset _ _ _ ih => exact ih

/-- A stream reads one file for all of its life, and its count never falls below the least `int`. -/
theorem Reached.file_eq (h : Reached file allowed s) :
    s.file = file ∧ -2 ^ 31 ≤ s.codedInputStreamReadBytes := by
  induction h with
  | opened h =>
    obtain ⟨log, rfl⟩ := exists_log_of_ofFile h
    cases h
    exact ⟨rfl, (by decide : (-2 ^ 31 : Int) ≤ 0)⟩
  | @openedAt s s' offset h0 hopen _ h =>
    obtain ⟨log, rfl⟩ := exists_log_of_ofFile hopen
    obtain ⟨n, rfl⟩ := Int.eq_ofNat_of_zero_le (Int.le_of_lt h0)
    rw [ofFile_ofNat log (Int.natCast_pos.mp h0)] at h
    cases h
    exact ⟨rfl, (by decide : (-2 ^ 31 : Int) ≤ 0)⟩
  | nextEnvelopeSize _ ih =>
    rw [file_nextEnvelopeSize, readBytes_nextEnvelopeSize]
    exact ih
  | readEnvelope _ ih =>
    rw [file_readEnvelope]
    exact ⟨ih.1, le_readBytes_readEnvelope ih.2⟩
  | setAbsoluteOffset _ _ hseek ih =>
    obtain ⟨hfile, hcount⟩ := file_of_setAbsoluteOffset hseek
    rw [hfile, hcount]
    exact ih

end Reached

end InputStream

/-! ## Byte limits that are out of reach -/

namespace CodedInputStream

/-- The file ends before the byte limit. -/
structure Fits (c : CodedInputStream) : Prop where
  lt_limit : c.position + c.rest.length < c.totalBytesLimit
  limit_le : c.totalBytesLimit ≤ intMax

theorem Fits.window_eq {c : CodedInputStream} (h : c.Fits) : c.window = c.rest := by
  have := h.lt_limit
  rw [window, List.take_of_length_le (by omega)]

theorem Fits.skip {c : CodedInputStream} (h : c.Fits) (k : Nat) : (c.skip k).Fits := by
  refine ⟨?_, h.limit_le⟩
  have := h.lt_limit
  show c.position + min k c.rest.length + (c.rest.drop k).length < c.totalBytesLimit
  rw [List.length_drop]
  omega

theorem Fits.readVarint32 {c : CodedInputStream} (h : c.Fits) :
    c.readVarint32 = (Wire.readVarint32 c.rest).map fun nr =>
      (nr.1, c.skip (c.rest.length - nr.2.length)) := by
  rw [CodedInputStream.readVarint32, h.window_eq]

/-- Where the file ends before the byte limit, a body is what is there of it. -/
theorem Fits.parseEnvelope {c : CodedInputStream} (h : c.Fits) (size : UInt32) :
    ∃ c', c.parseEnvelope size = (Envelope.parseSized size.toNat (c.rest.take size.toNat), c') ∧
      c'.rest = c.rest.drop size.toNat ∧ c'.Fits := by
  have hlt := h.lt_limit
  have hle := h.limit_le
  refine ⟨c.skip (c.messageLimit size - c.position), ?_, ?_, h.skip _⟩
  · rw [CodedInputStream.parseEnvelope, if_neg fun hlong => absurd hlong.2 (by omega)]
    congr 2
    rw [messageLimit]
    split
    · rw [Nat.add_sub_cancel_left]
    · rw [List.take_of_length_le (by omega), List.take_of_length_le (by omega)]
  · show c.rest.drop _ = _
    rw [messageLimit]
    split
    · rw [Nat.add_sub_cancel_left]
    · rw [List.drop_eq_nil_of_le (by omega), List.drop_eq_nil_of_le (by omega)]

end CodedInputStream

namespace InputStream

/-- Streams at the same offset that read the same, and stay so. -/
theorem bisimulation_of_reads {R : InputStream → InputStream → Prop}
    (hoffset : ∀ s t, R s t → s.offset = t.offset)
    (hnext : ∀ s t, R s t → s.nextEnvelopeSize.1 = t.nextEnvelopeSize.1 ∧
      R s.nextEnvelopeSize.2 t.nextEnvelopeSize.2)
    (hread : ∀ s t, R s t → s.readEnvelope.1 = t.readEnvelope.1 ∧
      s.readEnvelope.2.1 = t.readEnvelope.2.1 ∧ R s.readEnvelope.2.2 t.readEnvelope.2.2) :
    Machine.Bisimulation answer answer R := by
  intro s t h call
  cases call with
  | nextEnvelopeSize =>
    obtain ⟨hsize, hnext⟩ := hnext s t h
    exact ⟨congrArg ReadResult.size hsize, hnext⟩
  | readEnvelope =>
    obtain ⟨he, hcount, hread⟩ := hread s t h
    refine ⟨?_, hread⟩
    show ReadResult.envelope _ _ = ReadResult.envelope _ _
    rw [he, hcount]
  | currentEnvelopeOffset => exact ⟨congrArg ReadResult.offset (hoffset s t h), h⟩

/-- Two streams in front of the same bytes, both of which end before the byte
limit. -/
structure SameRest (s t : InputStream) : Prop where
  offset_eq : s.offset = t.offset
  have_eq : s.haveNextSize = t.haveNextSize
  next_eq : s.haveNextSize = true → s.nextSize = t.nextSize
  rest_eq : s.cis.rest = t.cis.rest
  fits_left : s.cis.Fits
  fits_right : t.cis.Fits

/-- The size ahead depends on what is left of the file alone. -/
theorem SameRest.nextEnvelopeSize {s t : InputStream} (h : SameRest s t) :
    s.nextEnvelopeSize.1 = t.nextEnvelopeSize.1 ∧
      SameRest s.nextEnvelopeSize.2 t.nextEnvelopeSize.2 := by
  by_cases hhave : s.haveNextSize = true
  · rw [nextEnvelopeSize_of_have hhave, nextEnvelopeSize_of_have (h.have_eq ▸ hhave)]
    exact ⟨h.next_eq hhave, h⟩
  have hhave' : ¬ t.haveNextSize = true := h.have_eq ▸ hhave
  rw [InputStream.nextEnvelopeSize, InputStream.nextEnvelopeSize, if_neg hhave, if_neg hhave',
    h.fits_left.readVarint32, h.fits_right.readVarint32, h.rest_eq]
  cases hread : Wire.readVarint32 t.cis.rest with
  | none => exact ⟨rfl, h⟩
  | some nr =>
    refine ⟨rfl, h.offset_eq, rfl, fun _ => rfl, ?_, h.fits_left.skip _, h.fits_right.skip _⟩
    show s.cis.rest.drop _ = t.cis.rest.drop _
    rw [h.rest_eq]

/-- A coded stream that has room has it also when it is made anew. -/
theorem fits_rebuildIfHalfRead {s : InputStream} (h : s.cis.Fits) :
    s.rebuildIfHalfRead.cis.Fits ∧ s.rebuildIfHalfRead.cis.rest = s.cis.rest ∧
      s.rebuildIfHalfRead.offset = s.offset := by
  have hlt := h.lt_limit
  have hle := h.limit_le
  rw [InputStream.rebuildIfHalfRead]
  split
  · refine ⟨⟨?_, Nat.le_refl _⟩, rfl, rfl⟩
    show 0 + s.cis.rest.length < intMax
    omega
  · exact ⟨h, rfl, rfl⟩

/-- And so does the envelope, as long as both coded streams have room. -/
theorem SameRest.readEnvelope {s t : InputStream} (h : SameRest s t) :
    s.readEnvelope.1 = t.readEnvelope.1 ∧ s.readEnvelope.2.1 = t.readEnvelope.2.1 ∧
      SameRest s.readEnvelope.2.2 t.readEnvelope.2.2 := by
  obtain ⟨hsize, hpeek⟩ := h.nextEnvelopeSize
  rw [readEnvelope_eq, readEnvelope_eq, hsize]
  by_cases h0 : t.nextEnvelopeSize.1 = 0
  · rw [if_pos h0, if_pos h0]
    exact ⟨rfl, rfl, hpeek⟩
  rw [if_neg h0, if_neg h0]
  obtain ⟨hfits, hrest, hoffset⟩ := fits_rebuildIfHalfRead hpeek.fits_left
  obtain ⟨hfits', hrest', hoffset'⟩ := fits_rebuildIfHalfRead hpeek.fits_right
  obtain ⟨c, hparse, hc, hcfits⟩ := hfits.parseEnvelope t.nextEnvelopeSize.1
  obtain ⟨c', hparse', hc', hcfits'⟩ := hfits'.parseEnvelope t.nextEnvelopeSize.1
  have hahead : c.rest = c'.rest := by rw [hc, hc', hrest, hrest', hpeek.rest_eq]
  rw [hparse, hparse', hrest, hrest', hpeek.rest_eq]
  cases Envelope.parseSized t.nextEnvelopeSize.1.toNat
      (t.nextEnvelopeSize.2.cis.rest.take t.nextEnvelopeSize.1.toNat) with
  | none =>
    refine ⟨rfl, rfl, ?_, rfl, (fun hnext => absurd hnext Bool.false_ne_true), hahead, hcfits, hcfits'⟩
    exact hoffset.trans (hpeek.offset_eq.trans hoffset'.symm)
  | some e =>
    refine ⟨rfl, rfl, ?_, rfl, (fun hnext => absurd hnext Bool.false_ne_true), hahead, hcfits, hcfits'⟩
    show _ + _ = _ + _
    rw [hoffset, hoffset', hpeek.offset_eq]

theorem bisimulation_sameRest : Machine.Bisimulation answer answer SameRest :=
  bisimulation_of_reads (fun _ _ h => h.offset_eq) (fun _ _ h => h.nextEnvelopeSize)
    fun _ _ h => h.readEnvelope

/-! ## Counts that stay low

After a seek the coded stream has the default limit until it is rebuilt. As long as
the count stays low, it is not rebuilt before the file or the limit ends. -/

/-- The length a varint was written with covers what `bytes_read` adds for it. -/
theorem bytesRead_le (n : Nat) :
    (bytesRead (UInt32.ofNat n)).toNat ≤ (UInt32.ofNat n).toNat + (encodeVarint n).length := by
  have hmod : (UInt32.ofNat n).toNat ≤ n := by
    rw [UInt32.toNat_ofNat']
    exact Nat.mod_le _ _
  have hadd : ∀ k : UInt32, (UInt32.ofNat n + k).toNat ≤ (UInt32.ofNat n).toNat + k.toNat := by
    intro k
    rw [UInt32.toNat_add]
    exact Nat.mod_le _ _
  have hgt : ∀ k : UInt32, ¬ UInt32.ofNat n ≤ k → k.toNat + 1 ≤ n := by
    intro k hk
    rw [UInt32.le_iff_toNat_le] at hk
    omega
  rw [bytesRead]
  split
  · have := encodeVarint_length_pos n
    exact (hadd 1).trans (Nat.add_le_add_left this _)
  split
  · rename_i h1 _
    have := lt_encodeVarint_length (k := 1) (hgt 0x7f h1)
    exact (hadd 2).trans (Nat.add_le_add_left this _)
  split
  · rename_i _ h2 _
    have := lt_encodeVarint_length (k := 2) (hgt 0x3fff h2)
    exact (hadd 3).trans (Nat.add_le_add_left this _)
  · rename_i _ _ h3
    have := lt_encodeVarint_length (k := 3) (hgt 0x1fffff h3)
    exact (hadd 4).trans (Nat.add_le_add_left this _)

/-- A varint that is read takes bytes of the window, and what is counted for its record is at most
its value and those bytes. -/
theorem readVarint32_eq_some {c c' : CodedInputStream} {n : UInt32}
    (h : c.readVarint32 = some (n, c')) :
    ∃ k, c' = c.skip k ∧ k ≤ c.window.length ∧ (bytesRead n).toNat ≤ n.toNat + k := by
  obtain ⟨⟨n', rest⟩, hread, heq⟩ := Option.map_eq_some_iff.mp h
  cases heq
  obtain ⟨m, hdecode, rfl, -⟩ := decodeVarint_of_readVarint32 hread
  have hlen := length_encodeVarint_le hdecode
  have hcount := bytesRead_le m
  refine ⟨_, rfl, Nat.sub_le _ _, ?_⟩
  show (bytesRead (UInt32.ofNat m)).toNat ≤
    (UInt32.ofNat m).toNat + (c.window.length - rest.length)
  omega

/-- The byte limit of a stream that sought. -/
def defaultLimit : Nat := 64 * 2 ^ 20

/-- The count does not pass half of `INT_MAX` before the byte limit is reached,
unless the file ends first. -/
structure Low (s : InputStream) : Prop where
  limit_eq : s.cis.totalBytesLimit = defaultLimit
  le_readBytes : -2 ^ 31 ≤ s.codedInputStreamReadBytes
  low : s.haveNextSize = false ∧ s.cis.rest = [] ∨
    s.codedInputStreamReadBytes + (defaultLimit - s.cis.position : Nat) ≤ (intMax / 2 : Int) ∧
      (s.haveNextSize = true →
        s.codedInputStreamReadBytes + (defaultLimit - s.cis.position : Nat) +
          (bytesRead s.nextSize).toNat ≤ (intMax / 2 : Int) + s.nextSize.toNat)

/-- A size that is read ahead is not counted before its envelope is. -/
theorem Low.nextEnvelopeSize {s : InputStream} (h : s.Low) : s.nextEnvelopeSize.2.Low := by
  by_cases hhave : s.haveNextSize = true
  · rw [nextEnvelopeSize_of_have hhave]
    exact h
  rw [InputStream.nextEnvelopeSize, if_neg hhave]
  cases hread : s.cis.readVarint32 with
  | none => exact h
  | some nc =>
    obtain ⟨n, c⟩ := nc
    obtain ⟨k, rfl, hk, hcount⟩ := readVarint32_eq_some hread
    have hrest : s.cis.rest ≠ [] := by
      intro hnil
      rw [CodedInputStream.readVarint32, CodedInputStream.window, hnil, List.take_nil,
        progress_readVarint32] at hread
      cases hread
    have hlow := (h.low.resolve_left fun hnil => hrest hnil.2).1
    -- the length lies before the limit
    rw [CodedInputStream.window, List.length_take, h.limit_eq] at hk
    have hposition : (s.cis.skip k).position = s.cis.position + k := by
      show s.cis.position + min k s.cis.rest.length = _
      omega
    refine ⟨h.limit_eq, h.le_readBytes, Or.inr ⟨?_, fun _ => ?_⟩⟩
    · show s.codedInputStreamReadBytes + (defaultLimit - (s.cis.skip k).position : Nat) ≤ _
      rw [hposition]
      omega
    · show s.codedInputStreamReadBytes + (defaultLimit - (s.cis.skip k).position : Nat) +
        (bytesRead n).toNat ≤ _ + n.toNat
      rw [hposition]
      omega

theorem Low.rebuildIfHalfRead {s : InputStream} (h : s.Low) (hhave : s.haveNextSize = true) :
    s.rebuildIfHalfRead = s := by
  obtain ⟨hlow, -⟩ := h.low.resolve_left fun hend => by rw [hhave] at hend; cases hend.1
  rw [InputStream.rebuildIfHalfRead, if_neg]
  omega

/-- What `ReadEnvelope` counts lies before the limit, too. -/
theorem Low.returned {s : InputStream} (h : s.Low) (hhave : s.haveNextSize = true) :
    (s.returned s.nextSize (s.cis.parseEnvelope s.nextSize)).2.2.Low := by
  obtain ⟨hlow, hnext⟩ := h.low.resolve_left fun hend => by rw [hhave] at hend; cases hend.1
  have hnext := hnext hhave
  have hge := h.le_readBytes
  have hlimit := h.limit_eq
  cases hparse : s.cis.parseEnvelope s.nextSize with
  | mk o c =>
    obtain rfl : c = s.cis.skip (s.cis.messageLimit s.nextSize - s.cis.position) := by
      rw [CodedInputStream.parseEnvelope] at hparse
      split at hparse <;> exact (congrArg Prod.snd hparse).symm
    cases o with
    | none =>
      refine ⟨hlimit, hge, Or.inr ⟨?_, (fun hnext => absurd hnext Bool.false_ne_true)⟩⟩
      show s.codedInputStreamReadBytes +
        (defaultLimit - (s.cis.position + min _ s.cis.rest.length) : Nat) ≤ _
      omega
    | some e =>
      refine ⟨hlimit, ?_, ?_⟩
      · show -2 ^ 31 ≤ Int.bmod _ (2 ^ 32)
        have := Int.le_bmod (x := s.codedInputStreamReadBytes + (bytesRead s.nextSize).toNat)
          (m := 2 ^ 32) (by decide)
        omega
      by_cases hend : s.cis.rest.length ≤ s.cis.messageLimit s.nextSize - s.cis.position
      · exact Or.inl ⟨rfl, List.drop_eq_nil_of_le hend⟩
      -- the body ends before the limit
      have hbody : s.cis.messageLimit s.nextSize ≤ defaultLimit := by
        rw [CodedInputStream.parseEnvelope] at hparse
        split at hparse
        · cases hparse
        · rename_i hlong
          rw [hlimit] at hlong
          omega
      have hsize : s.cis.messageLimit s.nextSize = s.cis.position + s.nextSize.toNat := by
        rw [CodedInputStream.messageLimit] at hbody ⊢
        split
        · rfl
        · rename_i hlong
          rw [if_neg hlong] at hbody
          exact absurd hbody (by decide)
      have hcount : (bytesRead s.nextSize).toNat ≤ s.nextSize.toNat + 5 := by
        have := bytesRead_le s.nextSize.toNat
        rw [UInt32.ofNat_toNat] at this
        have := Meter.length_encodeVarint_le_five s.nextSize.toNat_lt
        omega
      refine Or.inr ⟨?_, (fun hnext => absurd hnext Bool.false_ne_true)⟩
      show Int.bmod _ (2 ^ 32) +
        (defaultLimit - (s.cis.position + min _ s.cis.rest.length) : Nat) ≤ _
      rw [hsize] at hbody hend ⊢
      unfold intMax at hlow hnext ⊢
      unfold defaultLimit at hbody hlow hnext ⊢
      rw [Int.bmod_eq_of_le (by omega) (by omega)]
      omega

/-- Two streams with one coded stream, which neither of them rebuilds. -/
structure SameStream (s t : InputStream) : Prop where
  offset_eq : s.offset = t.offset
  have_eq : s.haveNextSize = t.haveNextSize
  next_eq : s.haveNextSize = true → s.nextSize = t.nextSize
  cis_eq : s.cis = t.cis
  low_left : s.Low
  low_right : t.Low

/-- Two streams in the same place, whose counts differ, read the same size. -/
theorem SameStream.nextEnvelopeSize {s t : InputStream} (h : SameStream s t) :
    s.nextEnvelopeSize.1 = t.nextEnvelopeSize.1 ∧
      SameStream s.nextEnvelopeSize.2 t.nextEnvelopeSize.2 := by
  have hlow := h.low_left.nextEnvelopeSize
  have hlow' := h.low_right.nextEnvelopeSize
  by_cases hhave : s.haveNextSize = true
  · rw [nextEnvelopeSize_of_have hhave, nextEnvelopeSize_of_have (h.have_eq ▸ hhave)]
    exact ⟨h.next_eq hhave, h⟩
  have hhave' : ¬ t.haveNextSize = true := h.have_eq ▸ hhave
  rw [InputStream.nextEnvelopeSize, if_neg hhave] at hlow ⊢
  rw [InputStream.nextEnvelopeSize, if_neg hhave'] at hlow' ⊢
  rw [h.cis_eq] at hlow ⊢
  cases hread : t.cis.readVarint32 with
  | none => exact ⟨rfl, h⟩
  | some nc =>
    rw [hread] at hlow hlow'
    exact ⟨rfl, h.offset_eq, rfl, fun _ => rfl, rfl, hlow, hlow'⟩

/-- A size that is not zero was read ahead. -/
theorem haveNextSize_of_ne_zero {s : InputStream} (h0 : s.nextEnvelopeSize.1 ≠ 0) :
    s.nextEnvelopeSize.2.haveNextSize = true ∧
      s.nextEnvelopeSize.2.nextSize = s.nextEnvelopeSize.1 := by
  by_cases hhave : s.haveNextSize = true
  · rw [nextEnvelopeSize_of_have hhave]
    exact ⟨hhave, rfl⟩
  rw [InputStream.nextEnvelopeSize, if_neg hhave] at h0 ⊢
  cases hread : s.cis.readVarint32 with
  | none =>
    rw [hread] at h0
    exact absurd rfl h0
  | some nc => exact ⟨rfl, rfl⟩

/-- And the same envelope: the counts would have to be on both sides of the bound for one coded
stream to be made anew and not the other. -/
theorem SameStream.readEnvelope {s t : InputStream} (h : SameStream s t) :
    s.readEnvelope.1 = t.readEnvelope.1 ∧ s.readEnvelope.2.1 = t.readEnvelope.2.1 ∧
      SameStream s.readEnvelope.2.2 t.readEnvelope.2.2 := by
  obtain ⟨hsize, hpeek⟩ := h.nextEnvelopeSize
  rw [readEnvelope_eq, readEnvelope_eq]
  by_cases h0 : s.nextEnvelopeSize.1 = 0
  · rw [if_pos h0, if_pos (hsize ▸ h0)]
    exact ⟨rfl, rfl, hpeek⟩
  rw [if_neg h0, if_neg (hsize ▸ h0)]
  obtain ⟨hhave, hnext⟩ := haveNextSize_of_ne_zero h0
  obtain ⟨hhave', hnext'⟩ := haveNextSize_of_ne_zero (hsize ▸ h0 : t.nextEnvelopeSize.1 ≠ 0)
  have hlow := hpeek.low_left.returned hhave
  have hlow' := hpeek.low_right.returned hhave'
  rw [hnext] at hlow
  rw [hnext'] at hlow'
  rw [hpeek.low_left.rebuildIfHalfRead hhave, hpeek.low_right.rebuildIfHalfRead hhave', hsize,
    hpeek.cis_eq]
  rw [hsize, hpeek.cis_eq] at hlow
  rcases hparse : t.nextEnvelopeSize.2.cis.parseEnvelope t.nextEnvelopeSize.1 with ⟨_ | e, c⟩
  · rw [hparse] at hlow hlow'
    exact ⟨rfl, rfl, hpeek.offset_eq, rfl, (fun hnext => absurd hnext Bool.false_ne_true), rfl, hlow, hlow'⟩
  · rw [hparse] at hlow hlow'
    refine ⟨rfl, rfl, ?_, rfl, (fun hnext => absurd hnext Bool.false_ne_true), rfl, hlow, hlow'⟩
    exact congrArg (· + _) hpeek.offset_eq

theorem bisimulation_sameStream : Machine.Bisimulation answer answer SameStream :=
  bisimulation_of_reads (fun _ _ h => h.offset_eq) (fun _ _ h => h.nextEnvelopeSize)
    fun _ _ h => h.readEnvelope

/-! ## Streams that have ended -/

/-- The size in front of the stream is zero, or there is none. -/
def Ended (s : InputStream) : Prop := s.nextEnvelopeSize.1 = 0

/-- A size that was read is read again. -/
theorem nextEnvelopeSize_nextEnvelopeSize (s : InputStream) :
    s.nextEnvelopeSize.2.nextEnvelopeSize = s.nextEnvelopeSize := by
  by_cases hhave : s.haveNextSize = true
  · rw [nextEnvelopeSize_of_have hhave, nextEnvelopeSize_of_have hhave]
  cases hread : s.cis.readVarint32 with
  | none =>
    have hs : s.nextEnvelopeSize = (0, s) := by
      rw [InputStream.nextEnvelopeSize, if_neg hhave, hread]
    rw [hs, hs]
  | some nc =>
    have hs : s.nextEnvelopeSize =
        (nc.1, { s with cis := nc.2, nextSize := nc.1, haveNextSize := true }) := by
      rw [InputStream.nextEnvelopeSize, if_neg hhave, hread]
    rw [hs, nextEnvelopeSize_of_have rfl]

theorem Ended.nextEnvelopeSize {s : InputStream} (h : s.Ended) : s.nextEnvelopeSize.2.Ended := by
  rw [Ended, nextEnvelopeSize_nextEnvelopeSize]
  exact h

theorem offset_nextEnvelopeSize (s : InputStream) : s.nextEnvelopeSize.2.offset = s.offset := by
  rw [InputStream.nextEnvelopeSize]
  split
  · rfl
  · split <;> rfl

/-- At the end of the file every call answers that there is nothing, for ever. -/
theorem bisimulation_ended :
    Machine.Bisimulation answer answer fun s t => s.Ended ∧ t.Ended ∧ s.offset = t.offset := by
  have hnext : ∀ s t : InputStream, s.Ended ∧ t.Ended ∧ s.offset = t.offset →
      s.nextEnvelopeSize.1 = t.nextEnvelopeSize.1 ∧ s.nextEnvelopeSize.2.Ended ∧
        t.nextEnvelopeSize.2.Ended ∧ s.nextEnvelopeSize.2.offset = t.nextEnvelopeSize.2.offset := by
    rintro s t ⟨hs, ht, hoffset⟩
    refine ⟨Eq.trans hs (Eq.symm ht), hs.nextEnvelopeSize, ht.nextEnvelopeSize, ?_⟩
    rw [offset_nextEnvelopeSize, offset_nextEnvelopeSize, hoffset]
  refine bisimulation_of_reads (fun _ _ h => h.2.2) hnext fun s t h => ?_
  have hread : ∀ {s : InputStream}, s.Ended → s.readEnvelope = (none, 0, s.nextEnvelopeSize.2) :=
    fun h => if_pos h
  rw [hread h.1, hread h.2.1]
  exact ⟨rfl, rfl, (hnext s t h).2⟩

/-! ## Seeking and opening -/

/-- After `SetAbsoluteOffset` the stream reads like a new `FileInputStream` at that
offset. -/
def SeeksAsOpened (s : InputStream) (offset : Int) : Prop :=
  ∃ t f, s.setAbsoluteOffset offset = .ok t ∧ ofFile (some s.file) offset = .ok f ∧
    ∀ calls, t.results calls = f.results calls

/-- The size that a new stream reads at an offset. -/
def sizeAt (file : Bytes) (offset : Int) : UInt32 :=
  match Wire.readVarint32 (file.drop offset.toNat) with
  | none => 0
  | some (n, _) => n

/-- A size read ahead is zero, and so is the one at the offset. -/
def SizeAheadMatches (s : InputStream) (offset : Int) : Prop :=
  s.haveNextSize = true → s.nextSize = 0 ∧ sizeAt s.file offset = 0

/-- The count does not come to half of `INT_MAX` within the default limit, or the
file does not reach that limit. -/
def CountMatches (s : InputStream) (offset : Int) : Prop :=
  s.codedInputStreamReadBytes + defaultLimit ≤ (intMax / 2 : Int) ∨
    s.file.length < offset.toNat + defaultLimit

/-- The size that a new stream reads at an offset. -/
theorem nextEnvelopeSize_openedAt (file : Bytes) (offset : Nat) :
    (openedAt file offset).nextEnvelopeSize.1 = sizeAt file offset := by
  have hwindow : (openedAt file offset).cis.window = (file.drop offset).take defaultLimit := rfl
  have hread : (openedAt file offset).cis.readVarint32.map Prod.fst =
      (Wire.readVarint32 (file.drop offset)).map Prod.fst := by
    rw [CodedInputStream.readVarint32, hwindow]
    cases hfile : Wire.readVarint32 (file.drop offset) with
    | none =>
      rw [streaming_readVarint32.take_eq_none hfile]
      rfl
    | some nr =>
      obtain ⟨us, hus, hitem⟩ := streaming_readVarint32 hfile
      obtain ⟨-, -, -, hten⟩ := decodeVarint_of_readVarint32 hfile
      rw [hus, List.length_append, Nat.add_sub_cancel] at hten
      rw [hus, List.take_append, List.take_of_length_le (hten.trans (by decide)), hitem]
      rfl
  rw [InputStream.nextEnvelopeSize, if_neg (by simp [openedAt]), sizeAt, Int.toNat_natCast]
  cases hl : (openedAt file offset).cis.readVarint32 with
  | none =>
    rw [hl] at hread
    cases hr : Wire.readVarint32 (file.drop offset) with
    | none => rfl
    | some nr =>
      rw [hr] at hread
      cases hread
  | some nc =>
    rw [hl] at hread
    cases hr : Wire.readVarint32 (file.drop offset) with
    | none =>
      rw [hr] at hread
      cases hread
    | some nr =>
      rw [hr] at hread
      exact Option.some.inj hread

theorem setAbsoluteOffset_openedAt {file : Bytes} {allowed : InputStream → Int → Prop}
    {s : InputStream} (h : Reached file allowed s) {offset : Nat} (h0 : 0 < offset) :
    s.setAbsoluteOffset offset = .ok (s.soughtTo offset) ∧
      ofFile (some s.file) offset = .ok (openedAt s.file offset) := by
  obtain ⟨log, rfl⟩ := h.exists_log
  rw [h.file_eq.1]
  exact ⟨setAbsoluteOffset_ofNat s offset, ofFile_ofNat log h0⟩

theorem low_openedAt (file : Bytes) (offset : Nat) : (openedAt file offset).Low where
  limit_eq := rfl
  le_readBytes := (by decide : (-2 ^ 31 : Int) ≤ 0)
  low := Or.inr ⟨(by decide : (0 : Int) + (defaultLimit - 0 : Nat) ≤ (intMax / 2 : Int)),
    (fun hnext => absurd hnext Bool.false_ne_true)⟩

/-- A size that was read ahead is what the stream that sought returns first. -/
theorem SeeksAsOpened.size_eq {file : Bytes} {allowed : InputStream → Int → Prop}
    {s : InputStream} (h : Reached file allowed s) {offset : Nat} (h0 : 0 < offset)
    (hopened : s.SeeksAsOpened offset) (hhave : s.haveNextSize = true) :
    s.nextSize = sizeAt s.file offset := by
  obtain ⟨hseek, hopen⟩ := setAbsoluteOffset_openedAt h h0
  obtain ⟨t, f, ht, hf, hresults⟩ := hopened
  rw [hseek] at ht
  rw [hopen] at hf
  cases ht
  cases hf
  have hfirst := (List.cons.inj (hresults [.nextEnvelopeSize])).1
  have hsize : (s.soughtTo offset).nextEnvelopeSize.1 = s.nextSize :=
    congrArg Prod.fst (nextEnvelopeSize_of_have (s := s.soughtTo offset) hhave)
  rw [← hsize, ← nextEnvelopeSize_openedAt]
  exact ReadResult.size.inj hfirst

/-- **Seek equals fresh open** where no size was read ahead, or zero in front of zero, and the count
does not get a coded stream rebuilt that a new stream keeps: every sequence of calls behind the seek
has the results that it has on a stream opened there. A size that was read ahead spoils the seek to
some offset in any other case. The stream is any that calls and seeks have led to. -/
theorem seek_as_opened {file : Bytes} {s : InputStream} (h : Reached file (fun _ _ => True) s) :
    (∀ offset, 0 < offset → s.SizeAheadMatches offset → s.CountMatches offset →
      s.SeeksAsOpened offset) ∧
    ((∀ offset, 0 < offset → s.SeeksAsOpened offset) →
      ∀ offset, 0 < offset → s.SizeAheadMatches offset) := by
  constructor
  · intro offset h0 hahead hcount
    obtain ⟨n, rfl⟩ := Int.eq_ofNat_of_zero_le (Int.le_of_lt h0)
    have hn : 0 < n := Int.natCast_pos.mp h0
    obtain ⟨hseek, hopen⟩ := setAbsoluteOffset_openedAt h hn
    refine ⟨_, _, hseek, hopen, fun calls => ?_⟩
    by_cases hhave : s.haveNextSize = true
    · -- the stream that sought keeps its zero, and the new one reads zero
      obtain ⟨hzero, hsize⟩ := hahead hhave
      refine bisimulation_ended.outputs_eq calls ⟨?_, ?_, rfl⟩
      · exact (congrArg Prod.fst (nextEnvelopeSize_of_have
          (s := s.soughtTo n) hhave)).trans hzero
      · exact (nextEnvelopeSize_openedAt s.file n).trans hsize
    · have hnext : (s.soughtTo n).haveNextSize = false := Bool.eq_false_iff.mpr hhave
      rcases hcount with hcount | hshort
      · refine bisimulation_sameStream.outputs_eq calls
          ⟨rfl, hnext, fun hnext' => absurd hnext' hhave, rfl, ?_, low_openedAt _ _⟩
        exact ⟨rfl, h.file_eq.2, Or.inr ⟨hcount, fun hnext' => absurd hnext' hhave⟩⟩
      · have hfits : CodedInputStream.Fits { rest := s.file.drop n } := by
          refine ⟨?_, (by decide : defaultLimit ≤ intMax)⟩
          have hlimit : 0 < defaultLimit := by decide
          show 0 + (s.file.drop n).length < defaultLimit
          rw [List.length_drop]
          rw [Int.toNat_natCast] at hshort
          omega
        exact bisimulation_sameRest.outputs_eq calls
          ⟨rfl, hnext, fun hnext' => absurd hnext' hhave, rfl, hfits, hfits⟩
  · intro hopened offset h0 hhave
    obtain ⟨n, rfl⟩ := Int.eq_ofNat_of_zero_le (Int.le_of_lt h0)
    have hsize := (hopened n h0).size_eq h (Int.natCast_pos.mp h0) hhave
    -- behind the end of the file there is no size
    have hend := (hopened (s.file.length + 1 : Nat) (Int.natCast_pos.mpr (Nat.succ_pos _))).size_eq
      h (Nat.succ_pos _) hhave
    have hzero : sizeAt s.file (s.file.length + 1 : Nat) = 0 := by
      rw [sizeAt, Int.toNat_natCast, List.drop_eq_nil_of_le (Nat.le_succ _)]
      rfl
    rw [hzero] at hend
    exact ⟨hend, hsize ▸ hend⟩

/-- One record: its size is read, and the stream seeks back behind the version byte. -/
theorem seek_as_opened_after_read :
    ∃ s, ofFile (some [1, 2, 40, 5]) 0 = .ok s ∧ s.readEnvelope.2.2.SeeksAsOpened 1 := by
  obtain ⟨s, hopen, -, -, hfile⟩ := ofFile_at [2, 40, 5]
  have hs := hopen
  cases hopen
  exact ⟨_, hs, (seek_as_opened (Reached.opened hs).readEnvelope).1 1 (by decide)
    (fun hnext => absurd hnext Bool.false_ne_true) (Or.inr (by decide))⟩

/-- A size that was read ahead is returned behind the end of the file, too. -/
theorem not_seeksAsOpened_sizeAhead :
    ∃ s, ofFile (some [1, 2, 40, 5]) 0 = .ok s ∧ ¬ s.nextEnvelopeSize.2.SeeksAsOpened 4 := by
  obtain ⟨s, hopen, -, -, -⟩ := ofFile_at [2, 40, 5]
  have hs := hopen
  cases hopen
  refine ⟨_, hs, ?_⟩
  rintro ⟨t, f, ht, hf, hresults⟩
  cases ht
  cases hf
  exact absurd (hresults [.nextEnvelopeSize]) (by decide)

end InputStream

end Zippylog
