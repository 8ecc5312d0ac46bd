import Zippylog.StreamFile

/-!
# The Python stream reader

`Stream` of `stream.py`, as far as it reads: the version byte, then records, each from four
bytes that are fetched first. The varint of the length is decoded from these four, and what is
left of the record is read behind them: a read of a negative length goes to the end of the file,
as Python has it, and a varint of five bytes is not in the four.

- A file handle is what is behind its position.
- The varint decoder of the protobuf library is a parameter, with `DecodesVarint` for what
  the reader needs of it: that it returns the value of a varint it is given, with its length, and
  raises an exception where the bytes end inside it.
- `readEnvelopes_writeData_iff`: which records are read back as they were written.
- `readFile_runSession_iff`: the same of a file that a session of the C++ writer has written.
-/

namespace Zippylog

open Wire

/-- Python exceptions raised by the modelled code. -/
inductive PyExn where
  | pbException (message : String)
  | typeError
  | indexError
  | attributeError
  | valueError
  deriving DecidableEq

namespace PyStream

/-- `fh.read(n)`: what is read, and the handle behind it. A negative size reads to the end
of the file. -/
def read (fh : Bytes) (n : Int) : Bytes × Bytes :=
  if n < 0 then (fh, []) else (fh.take n.toNat, fh.drop n.toNat)

/-- `_DecodeVarint(buffer, pos)`: the value, and the position behind it. -/
abbrev VarintDecoder := Bytes → Nat → Except PyExn (Nat × Nat)

/-- `Stream`, without what only the writing methods use. -/
structure Stream where
  fh : Bytes
  deriving DecidableEq

/-- `Stream.__init__`. -/
def new (fh : Bytes) (version : Int) (beginning : Bool) : Except PyExn Stream :=
  if version ≠ 1 then .error (.pbException "only version 1 streams are supported")
  else if beginning then
    match read fh 1 with
    | ([], _) => .error .typeError
    | (version :: _, fh) =>
      if version ≠ 1 then .error (.pbException s!"stream version {version} not supported")
      else .ok ⟨fh⟩
  else .ok ⟨fh⟩

/-- `Stream.read_envelope`: what `Envelope` is constructed of, or `None`. -/
def readEnvelope (decode : VarintDecoder) (s : Stream) : Except PyExn (Option Bytes × Stream) :=
  let (buf, fh) := read s.fh 4
  if buf.isEmpty then .ok (none, ⟨fh⟩)
  else
    match decode buf 0 with
    | .error e => .error e
    | .ok (size, pos) =>
      let (more, fh) := read fh (size - 4 + pos)
      .ok (some (buf.drop pos ++ more), ⟨fh⟩)

/-- So many calls of `read_envelope`, one after the other. -/
def readEnvelopes (decode : VarintDecoder) : Nat → Stream → Except PyExn (List (Option Bytes))
  | 0, _ => .ok []
  | n + 1, s =>
    match readEnvelope decode s with
    | .error e => .error e
    | .ok (envelope, s) => (readEnvelopes decode n s).map (envelope :: ·)

/-- What is known of the decoder: it decodes varints, and raises an exception where the
buffer ends inside one. -/
structure DecodesVarint (decode : VarintDecoder) : Prop where
  encoded {n : Nat} (h : n < 2 ^ 64) (rest : Bytes) :
    decode (encodeVarint n ++ rest) 0 = .ok (n, (encodeVarint n).length)
  cut {n k : Nat} (h : n < 2 ^ 64) (hk : k < (encodeVarint n).length) :
    ∃ e, decode ((encodeVarint n).take k) 0 = .error e

/-! ## One record -/

variable {decode : VarintDecoder}

theorem read_natCast (fh : Bytes) (n : Nat) : read fh n = (fh.take n, fh.drop n) := by
  rw [read, if_neg (by omega), Int.toNat_natCast]

theorem readEnvelope_nil : readEnvelope decode ⟨[]⟩ = .ok (none, ⟨[]⟩) := rfl

theorem read_neg {fh : Bytes} {n : Int} (h : n < 0) : read fh n = (fh, []) := if_pos h

/-- The four bytes that are fetched of a record. -/
theorem read_record {body : Bytes} (hlen : body.length < 2 ^ 28) (rest : Bytes) :
    read (record body ++ rest) 4 =
      (encodeVarint body.length ++ (body ++ rest).take (4 - (encodeVarint body.length).length),
        (body ++ rest).drop (4 - (encodeVarint body.length).length)) := by
  have hle : (encodeVarint body.length).length ≤ 4 := encodeVarint_length_le (k := 3) hlen
  rw [show (4 : Int) = (4 : Nat) from rfl, read_natCast, record, List.append_assoc,
    List.take_append, List.drop_append, List.take_of_length_le hle, List.drop_of_length_le hle]
  rfl

/-- With a length that takes four bytes or less, the rest of the record is read next. -/
theorem readEnvelope_decoded (h : DecodesVarint decode) {body : Bytes}
    (hlen : body.length < 2 ^ 28) (rest : Bytes) :
    readEnvelope decode ⟨record body ++ rest⟩ =
      let n := 4 - (encodeVarint body.length).length
      let (more, fh) := read ((body ++ rest).drop n)
        (body.length - 4 + (encodeVarint body.length).length)
      .ok (some ((body ++ rest).take n ++ more), ⟨fh⟩) := by
  have hne : (encodeVarint body.length ++
      (body ++ rest).take (4 - (encodeVarint body.length).length)).isEmpty = false := by
    rw [List.isEmpty_eq_false_iff]
    exact List.append_ne_nil_of_left_ne_nil (encodeVarint_ne_nil _) _
  rw [readEnvelope, read_record hlen]
  dsimp only
  rw [hne, h.encoded (by omega)]
  dsimp only
  rw [List.drop_left]
  rfl

/-- From 2^28 bytes on the varint is not in the four bytes, and the decoder raises an error. -/
theorem readEnvelope_long (h : DecodesVarint decode) {body : Bytes}
    (hge : 2 ^ 28 ≤ body.length) (hlt : body.length < 2 ^ 31) (rest : Bytes) :
    ∃ e, readEnvelope decode ⟨record body ++ rest⟩ = .error e := by
  have hfour : 4 < (encodeVarint body.length).length := lt_encodeVarint_length hge
  have hbuf : (record body ++ rest).take 4 = (encodeVarint body.length).take 4 := by
    rw [record, List.append_assoc, List.take_append_of_le_length hfour.le]
  have hne : ((encodeVarint body.length).take 4).isEmpty = false := by
    rw [List.isEmpty_eq_false_iff, ← List.length_pos_iff, List.length_take]
    omega
  obtain ⟨e, he⟩ := h.cut (n := body.length) (by omega) hfour
  refine ⟨e, ?_⟩
  rw [readEnvelope, show (4 : Int) = (4 : Nat) from rfl, read_natCast, hbuf]
  dsimp only
  rw [hne, he]
  rfl

/-- A record of which four bytes are not more than the whole. -/
theorem readEnvelope_record (h : DecodesVarint decode) {body : Bytes} (h3 : 3 ≤ body.length)
    (hlen : body.length < 2 ^ 28) (rest : Bytes) :
    readEnvelope decode ⟨record body ++ rest⟩ = .ok (some body, ⟨rest⟩) := by
  have hle : (encodeVarint body.length).length ≤ 4 := encodeVarint_length_le (k := 3) hlen
  have hpos := encodeVarint_length_pos body.length
  obtain ⟨k, hk⟩ : ∃ k : Nat, (body.length : Int) - 4 + (encodeVarint body.length).length = k :=
    Int.eq_ofNat_of_zero_le (by omega)
  have hsum : 4 - (encodeVarint body.length).length + k = body.length := by omega
  rw [readEnvelope_decoded h hlen]
  dsimp only
  rw [hk, read_natCast]
  dsimp only
  rw [← List.take_add, List.drop_drop, hsum, List.take_left, List.drop_left]

/-- A shorter record takes everything behind it along. -/
theorem readEnvelope_short (h : DecodesVarint decode) {body : Bytes} (h3 : body.length < 3)
    (rest : Bytes) :
    readEnvelope decode ⟨record body ++ rest⟩ = .ok (some (body ++ rest), ⟨[]⟩) := by
  have hone : (encodeVarint body.length).length = 1 := by
    rw [encodeVarint_of_lt (by omega)]
    rfl
  rw [readEnvelope_decoded h (by omega)]
  dsimp only
  rw [read_neg (by omega)]
  dsimp only
  rw [List.take_append_drop]

/-! ## A file -/

theorem readEnvelopes_nil (n : Nat) :
    readEnvelopes decode n ⟨[]⟩ = .ok (List.replicate n none) := by
  induction n with
  | zero => rfl
  | succ n ih =>
    rw [readEnvelopes, readEnvelope_nil]
    dsimp only
    rw [ih]
    rfl

/-- What the reader gets right: lengths of four bytes at most, and no record but the last
shorter than what is fetched first. -/
def Readable (bodies : List Bytes) : Prop :=
  (∀ body ∈ bodies, body.length < 2 ^ 28) ∧ ∀ body ∈ bodies.dropLast, 3 ≤ body.length

/-- What is asked of the first record, and of the others. -/
theorem readable_cons {body : Bytes} {bodies : List Bytes} :
    Readable (body :: bodies) ↔
      body.length < 2 ^ 28 ∧ (bodies ≠ [] → 3 ≤ body.length) ∧ Readable bodies := by
  cases bodies with
  | nil => simp [Readable]
  | cons next bodies =>
    simp only [Readable, List.dropLast_cons_cons, List.forall_mem_cons]
    constructor
    · rintro ⟨⟨hlen, hlens⟩, h3, h3s⟩
      exact ⟨hlen, fun _ => h3, hlens, h3s⟩
    · rintro ⟨hlen, h3, hlens, h3s⟩
      exact ⟨⟨hlen, hlens⟩, h3 (List.cons_ne_nil _ _), h3s⟩

theorem map_cons_eq_ok {e e' : Option Bytes} {es es' : List (Option Bytes)}
    {result : Except PyExn (List (Option Bytes))} (hresult : result = .ok es) :
    result.map (e :: ·) = .ok (e' :: es') ↔ e = e' ∧ es = es' := by
  rw [hresult]
  show Except.ok (e :: es) = _ ↔ _
  rw [Except.ok.injEq, List.cons.injEq]

/-- By induction on the records: a short one takes the rest of the file, so everything behind it is
missing. -/
theorem readEnvelopes_records_iff (h : DecodesVarint decode) {bodies : List Bytes}
    (hlen : ∀ body ∈ bodies, body.length < 2 ^ 31) :
    readEnvelopes decode (bodies.length + 1) ⟨records bodies⟩ =
      .ok (bodies.map some ++ [none]) ↔ Readable bodies := by
  induction bodies with
  | nil => exact ⟨fun _ => ⟨nofun, nofun⟩, fun _ => readEnvelopes_nil 1⟩
  | cons body bodies ih =>
    obtain ⟨hbody, hlen⟩ := List.forall_mem_cons.mp hlen
    rw [readable_cons, ← ih hlen, records_cons, List.length_cons, readEnvelopes,
      List.map_cons, List.cons_append]
    by_cases hlong : 2 ^ 28 ≤ body.length
    · obtain ⟨e, he⟩ := readEnvelope_long h hlong hbody (records bodies)
      rw [he]
      exact ⟨nofun, fun hreadable => absurd hreadable.1 (by omega)⟩
    have hlong := Nat.lt_of_not_le hlong
    by_cases h3 : 3 ≤ body.length
    · rw [readEnvelope_record h h3 hlong]
      dsimp only
      constructor
      · intro hmap
        cases hrest : readEnvelopes decode (bodies.length + 1) ⟨records bodies⟩ with
        | error e =>
          rw [hrest] at hmap
          cases hmap
        | ok es =>
          rw [((map_cons_eq_ok hrest).mp hmap).2]
          exact ⟨hlong, fun _ => h3, rfl⟩
      · rintro ⟨-, -, hrest⟩
        exact (map_cons_eq_ok hrest).mpr ⟨rfl, rfl⟩
    · rw [readEnvelope_short h (Nat.lt_of_not_le h3)]
      dsimp only
      rw [map_cons_eq_ok (readEnvelopes_nil _)]
      cases bodies with
      | nil =>
        exact ⟨fun _ => ⟨hlong, nofun, readEnvelopes_nil 1⟩,
          fun _ => ⟨congrArg some (List.append_nil _), rfl⟩⟩
      | cons next bodies =>
        -- nothing is left for the next record
        constructor
        · rintro ⟨-, hrest⟩
          cases hrest
        · rintro ⟨-, hshort, -⟩
          exact absurd (hshort (List.cons_ne_nil _ _)) h3

/-- `Stream(fh, read_mode='beginning')` of a file, and so many calls of `read_envelope`. -/
def readFile (decode : VarintDecoder) (file : Bytes) (calls : Nat) :
    Except PyExn (List (Option Bytes)) :=
  match new file 1 true with
  | .error e => .error e
  | .ok s => readEnvelopes decode calls s

theorem readFile_streamFile (bodies : List Bytes) (calls : Nat) :
    readFile decode (streamFile bodies) calls = readEnvelopes decode calls ⟨records bodies⟩ := rfl

/-- **The Python reader returns what the C++ writer wrote**, and then `None`, if and only if every
envelope is shorter than 2^28 bytes and every one but the last has three bytes or more. The file is
that of one session on an empty file, with any calls of the writer and any division into writes. -/
theorem readFile_runSession_iff (h : DecodesVarint decode) {bodies : List Bytes}
    (hbodies : ∀ body ∈ bodies, body ≠ [] ∧ body.length < 2 ^ 31) :
    readFile decode (runSession none (bodies.map .writeData)) (bodies.length + 1) =
      .ok (bodies.map some ++ [none]) ↔ Readable bodies := by
  have hwritten : written (bodies.map .writeData) = bodies := by
    rw [written, List.filterMap_map]
    exact List.filterMap_some
  have hfile : runSession none (bodies.map .writeData) = streamFile bodies := by
    have hempty : (FileOutputStream.ofFile none).Holds [] :=
      FileOutputStream.holds_ofFile_empty rfl
    rw [runSession_eq hempty, hwritten, List.nil_append]
    rw [hwritten]
    exact fun body hbody => (hbodies body hbody).2.trans (by decide)
  rw [hfile, readFile_streamFile]
  exact readEnvelopes_records_iff h fun body hbody => (hbodies body hbody).2

/-! ## A decoder -/

/-- A decoder by the format of varints. -/
def formatDecoder : VarintDecoder := fun buffer pos =>
  match decodeVarint (buffer.drop pos) with
  | none => .error .indexError
  | some (n, rest) => .ok (n, buffer.length - rest.length)

theorem decodesVarint_formatDecoder : DecodesVarint formatDecoder where
  encoded {n} h rest := by
    rw [formatDecoder, List.drop_zero, item_encodeVarint n rest]
    dsimp only
    rw [List.length_append, Nat.add_sub_cancel]
  cut {n k} h hk := by
    refine ⟨.indexError, ?_⟩
    rw [formatDecoder, List.drop_zero, streaming_decodeVarint.item_take (item_encodeVarint n) hk]

theorem readFile_formatDecoder :
    readFile formatDecoder (runSession none (List.map .writeData [[8, 1, 16], [8, 2]])) 3 =
      .ok ([[8, 1, 16], [8, 2]].map some ++ [none]) ↔ Readable [[8, 1, 16], [8, 2]] :=
  readFile_runSession_iff decodesVarint_formatDecoder (by decide)

/-- Of two envelopes of two bytes, the first takes the second along. -/
theorem not_readFile_short : ¬ ∀ decode, DecodesVarint decode → ∀ bodies : List Bytes,
    (∀ body ∈ bodies, body ≠ [] ∧ body.length < 2 ^ 31) →
      readFile decode (runSession none (bodies.map .writeData)) (bodies.length + 1) =
        .ok (bodies.map some ++ [none]) := by
  intro h
  have hread := h formatDecoder decodesVarint_formatDecoder [[8, 1], [8, 2]] (by decide)
  have hshort : readFile formatDecoder (runSession none (List.map .writeData [[8, 1], [8, 2]])) 3 =
      .ok [some [8, 1, 2, 8, 2], none, none] := by decide +kernel
  cases hshort.symm.trans hread

end PyStream

end Zippylog
