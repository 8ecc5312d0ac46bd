import Mathlib.Data.List.Infix
import Zippylog.ReadLimit
import Zippylog.Responses

/-!
# Stream segments

What `ProcessGetStream` reads from a stream file, and what a client that asks
again from where a segment ended receives. The file can be written to meanwhile: each request is
answered from the file as it is then, and what follows is about whole runs of requests (`Fetch`).

- `Meter.Sound`: the byte counts of a reader at the beginning of a file, and of
  one that sought. In front of a record such a reader returns it or fails;
- `getStreamLoop_reads`: the loop reads some of the records in front of it, and
  its two counts and the offset of the stream agree;
- `processGetStream_segment`: the response from a record boundary. The offset behind the last record
  is again one, so a client can go on from there;
- `segments_resume`: the segments of a run of requests are the stream.

At the end of the file, and in front of an empty record, there is nothing to send, which is answered
with an error (`INVALID_STREAM_OFFSET`) and not with an empty segment.
-/

namespace Zippylog

open Wire

theorem record_length_lt {body : Bytes} (h : body.length < 2 ^ 28) :
    (record body).length < 2 ^ 29 := by
  have := Meter.length_encodeVarint_le_five (n := body.length) (by omega)
  rw [record_length]
  omega

/-! ## Streams that sought -/

namespace Meter

/-- The meter of a stream that `SetAbsoluteOffset` moved: the default byte limit
is never raised, as the coded stream is rebuilt only behind it. -/
structure Sought (m : Meter) : Prop where
  limit_eq : m.limit = 64 * 2 ^ 20
  readBytes_eq : m.readBytes = m.position
  position_le : m.position ≤ m.limit

theorem Sought.default {m : Meter} (h : m.Sought) : m.Default := ⟨h.limit_eq, h.position_le⟩

/-- A meter that segments are read with. -/
def Sound (m : Meter) : Prop := m.Full ∨ m.Sought

/-- The limit comes before the coded stream is rebuilt. -/
theorem Sought.not_half {m : Meter} (h : m.Sought) : ¬ (intMax / 2 : Int) < m.readBytes := by
  have hle := h.position_le
  rw [h.limit_eq] at hle
  rw [h.readBytes_eq]
  unfold intMax
  omega

theorem Sought.limit_le {m : Meter} (h : m.Sought) : m.limit ≤ intMax := by
  rw [h.limit_eq]
  decide

theorem Sought.room_iff {m : Meter} (h : m.Sought) (n : Nat) :
    m.Room n ↔ m.position + (encodeVarint n).length + n ≤ m.limit :=
  room_iff_of_not_half h.not_half h.limit_le n

/-- A reader that sought and read a record still counts as one. -/
theorem Sought.next {m : Meter} (h : m.Sought) {body : Bytes} (hlen : body.length < 2 ^ 28)
    (hroom : m.Room body.length) : (m.next body.length).Sought := by
  have hle := (h.room_iff _).mp hroom
  have hcount := bytesReadOf_eq_length hlen
  rw [record_length] at hcount
  have hlimit := h.limit_eq
  rw [Meter.next, body_of_not_half h.not_half]
  refine ⟨hlimit, ?_, hle⟩
  show (m.readBytes + bytesReadOf body.length).bmod (2 ^ 32) = _
  rw [h.readBytes_eq, hcount, Int.bmod_eq_of_le (by omega) (by omega)]
  push_cast
  omega

theorem Sound.limit_le {m : Meter} (h : m.Sound) : m.limit ≤ intMax := by
  rcases h with h | h
  · exact h.limit_eq.le
  · exact h.limit_le

theorem Sound.next {m : Meter} (h : m.Sound) {body : Bytes} (hlen : body.length < 2 ^ 28)
    (hroom : m.Room body.length) : (m.next body.length).Sound := by
  rcases h with h | h
  · exact Or.inl (h.next (le_maxBody hlen))
  · exact Or.inr (h.next hlen hroom)

end Meter

namespace InputStream

/-- **Step lemma** of a segment: a complete record is read, or none is. -/
theorem At.readEnvelope_or {s : InputStream} {pos : Nat} {body ahead : Bytes} {m : Meter}
    {e : Envelope} (h : s.At pos (record body ++ ahead) m) (hnext : s.haveNextSize = false)
    (hm : m.Sound) (he : Envelope.parse body = some e) (h0 : 0 < body.length)
    (hlen : body.length < 2 ^ 28) :
    (∃ s' m', s.readEnvelope = (some e, UInt32.ofNat (record body).length, s') ∧
      s'.At (pos + (record body).length) ahead m' ∧ s'.haveNextSize = false ∧ m'.Sound) ∨
    ∃ n s', s.readEnvelope = (none, n, s') := by
  by_cases hroom : m.Room body.length
  · obtain ⟨s', hread, hat, hnext', -⟩ := h.readEnvelope he h0 hroom
    have hcount := bytesReadOf_eq_length hlen
    rw [hcount] at hat
    rw [show bytesRead (UInt32.ofNat body.length) = UInt32.ofNat (record body).length by
      rw [← hcount, bytesReadOf, UInt32.ofNat_toNat]] at hread
    exact Or.inl ⟨s', _, hread, hat, hnext', hm.next hlen hroom⟩
  · rcases hm with hm | hm
    · exact absurd (hm.room (Meter.le_maxBody hlen)) hroom
    · exact Or.inr (h.readEnvelope_of_not_room hnext hm.default h0 hlen hroom)

/-- The stream reads records of less than 2^31 bytes, of which the last may be
there in part. -/
def Measured (s : InputStream) : Prop :=
  s.Exhausted ∨ ∃ bodies rest, s.Before rest ∧ rest <+: records bodies ∧
    ∀ body ∈ bodies, body.length < 2 ^ 31

/-- A prefix of a record has its whole length, or no size can be read from it. -/
theorem prefix_record_or {rest body ahead : Bytes} (hpart : rest <+: record body ++ ahead)
    (hlen : body.length < 2 ^ 31) :
    Wire.readVarint32 rest = none ∨
      ∃ rest', rest = encodeVarint body.length ++ rest' ∧ rest' <+: body ++ ahead := by
  rw [record, List.append_assoc] at hpart
  have hitem : Item readVarint32 (encodeVarint body.length) (UInt32.ofNat body.length) :=
    item_readVarint32 (Nat.lt_trans hlen (by decide))
  by_cases hshort : rest.length < (encodeVarint body.length).length
  · left
    have hle := List.prefix_of_prefix_length_le hpart (List.prefix_append _ _)
      (Nat.le_of_lt hshort)
    rw [List.prefix_iff_eq_take.mp hle]
    exact streaming_readVarint32.item_take hitem hshort
  · right
    obtain ⟨rest', rfl⟩ := List.prefix_of_prefix_length_le (List.prefix_append _ _) hpart
      (Nat.le_of_not_lt hshort)
    exact ⟨rest', rfl, (List.prefix_append_right_inj _).mp hpart⟩

/-- **Step lemma** for the counts: `bytes_read` is not zero, and hardly more than
the record. -/
theorem Measured.readEnvelope {s s' : InputStream} {e : Envelope} {k : UInt32} (h : s.Measured)
    (hread : s.readEnvelope = (some e, k, s')) :
    0 < k.toNat ∧ k.toNat < 2 ^ 31 + 4 ∧ s'.Measured := by
  rcases h with hused | ⟨bodies, rest, hbefore, hpart, hlen⟩
  · rw [hused.readEnvelope] at hread
    cases hread
  have hsize : Wire.readVarint32 rest ≠ none := by
    intro hnone
    obtain ⟨vs, hvs, hnext⟩ := hbefore.ahead
    rw [readEnvelope_none_of_ahead hvs hnext hnone] at hread
    cases hread
  rcases bodies with _ | ⟨body, bodies⟩
  · rw [List.prefix_nil.mp hpart] at hsize
    exact absurd progress_readVarint32 hsize
  obtain ⟨hbody, hbodies⟩ := List.forall_mem_cons.mp hlen
  rcases prefix_record_or hpart hbody with hnone | ⟨ahead, rfl, hahead⟩
  · exact absurd hnone hsize
  obtain ⟨hpos, hcount, -, hnext⟩ := hbefore.readEnvelope hbody hread
  obtain ⟨hge, hle, -⟩ := Meter.bytesReadOf_bounds hbody
  refine ⟨by omega, by omega, ?_⟩
  rcases hnext with hbefore' | ⟨hused, -⟩
  · refine Or.inr ⟨bodies, _, hbefore', ?_, hbodies⟩
    have hdrop := hahead.drop body.length
    rwa [List.drop_left] at hdrop
  · exact Or.inl hused

/-- A size that is read ahead of `ReadEnvelope` is the one it would read. -/
theorem readEnvelope_nextEnvelopeSize (s : InputStream) :
    s.readEnvelope = if s.nextEnvelopeSize.1 = 0 then (none, 0, s.nextEnvelopeSize.2)
      else s.nextEnvelopeSize.2.readEnvelope := by
  split_ifs with h0
  · rw [readEnvelope]
    simp only [if_pos h0]
  · obtain ⟨hhave, hnext⟩ := haveNextSize_of_ne_zero h0
    exact readEnvelope_of_peeked rfl hhave hnext

end InputStream

namespace RequestProcessor

/-! ## The loop -/

/-- One round of the loop: `NextEnvelopeSize` and `ReadEnvelope` are one read. -/
theorem getStreamLoop_succ (envelopesLeft : Nat) (bytesLeft : UInt32) (g : Segment) :
    getStreamLoop (envelopesLeft + 1) bytesLeft g =
      match g.stream.readEnvelope with
      | (none, _, stream) => { g with stream := stream }
      | (some env, size, stream) =>
        let g : Segment := ⟨stream, g.output ++ [env], g.bytesRead + size, g.envelopesRead + 1⟩
        if bytesLeft < size then g
        else if envelopesLeft = 0 then g
        else getStreamLoop envelopesLeft (bytesLeft - size) g := by
  have hread := g.stream.readEnvelope_nextEnvelopeSize
  rw [getStreamLoop]
  by_cases h0 : g.stream.nextEnvelopeSize.1 = 0
  · rw [if_pos h0] at hread
    rw [hread]
    exact if_pos h0
  · rw [if_neg h0] at hread
    rw [hread]
    exact if_neg h0

/-- A segment has read `bodies` from offset `pos` on. -/
structure Segment.Reads (g : Segment) (pos : Nat) (bodies : List Bytes) (es : List Envelope) :
    Prop where
  offset_eq : g.stream.offset = (pos + (records bodies).length : Nat)
  output_eq : g.output = es
  bytesRead_eq : g.bytesRead.toNat = (records bodies).length
  envelopesRead_eq : g.envelopesRead.toNat = bodies.length

/-- The segment can go on with the records in `ahead`. -/
structure Segment.Ahead (g : Segment) (pos : Nat) (ahead : Bytes) : Prop where
  haveNextSize_eq : g.stream.haveNextSize = false
  stands : ∃ m, g.stream.At pos ahead m ∧ m.Sound

/-- **Step lemma** of the loop: one more record is read, or the loop ends. -/
theorem Segment.Reads.readEnvelope {g : Segment} {pos : Nat} {done : List Bytes}
    {es : List Envelope} (h : g.Reads pos done es) {body ahead : Bytes} {e : Envelope}
    (hahead : g.Ahead (pos + (records done).length) (record body ++ ahead))
    (he : Envelope.parse body = some e) (hsize : 0 < body.length ∧ body.length < 2 ^ 28)
    (hbytes : (records done).length < 2 ^ 31) (hcount : done.length < 2 ^ 31) :
    (∃ stream, g.stream.readEnvelope = (some e, UInt32.ofNat (record body).length, stream) ∧
      Segment.Reads ⟨stream, g.output ++ [e], g.bytesRead + UInt32.ofNat (record body).length,
        g.envelopesRead + 1⟩ pos (done ++ [body]) (es ++ [e]) ∧
      Segment.Ahead ⟨stream, g.output ++ [e], g.bytesRead + UInt32.ofNat (record body).length,
        g.envelopesRead + 1⟩ (pos + (records (done ++ [body])).length) ahead) ∨
    ∃ n stream, g.stream.readEnvelope = (none, n, stream) ∧
      Segment.Reads { g with stream := stream } pos done es := by
  obtain ⟨hnext, m, hat, hm⟩ := hahead
  have hlength : (records (done ++ [body])).length =
      (records done).length + (record body).length := by
    rw [records_append, List.length_append, records_cons, records_nil, List.append_nil]
  have hrecord := record_length_lt hsize.2
  rcases hat.readEnvelope_or hnext hm he hsize.1 hsize.2 with
    ⟨stream, m', hread, hat', hnext', hm'⟩ | ⟨n, stream, hread⟩
  · refine Or.inl ⟨stream, hread, ⟨?_, ?_, ?_, ?_⟩, hnext', m', ?_, hm'⟩
    · show stream.offset = _
      rw [hat'.offset_eq, hlength, Nat.add_assoc]
    · exact congrArg (· ++ [e]) h.output_eq
    · show (g.bytesRead + UInt32.ofNat (record body).length).toNat = _
      rw [UInt32.toNat_add, h.bytesRead_eq, toNat_ofNat_uint32 (by omega), hlength]
      omega
    · show (g.envelopesRead + 1).toNat = _
      rw [UInt32.toNat_add, h.envelopesRead_eq, List.length_append]
      show (done.length + 1) % 2 ^ 32 = _
      rw [Nat.mod_eq_of_lt (by omega)]
      rfl
    · rw [hlength, ← Nat.add_assoc]
      exact hat'
  · refine Or.inr ⟨n, stream, hread, ⟨?_, h.output_eq, h.bytesRead_eq, h.envelopesRead_eq⟩⟩
    show stream.offset = _
    rw [InputStream.offset_of_readEnvelope_none hread, h.offset_eq]

/-- **Run lemma** of the loop: it reads some of the records ahead, whatever ends it. -/
theorem getStreamLoop_reads {todo : List Bytes} {est : List Envelope}
    (hes : InputStream.Parses todo est)
    (hsize : ∀ body ∈ todo, 0 < body.length ∧ body.length < 2 ^ 28) {pos : Nat} :
    ∀ {envelopesLeft : Nat} {bytesLeft : UInt32} {g : Segment} {done : List Bytes}
      {es : List Envelope}, g.Reads pos done es →
      g.Ahead (pos + (records done).length) (records todo) →
      (records done).length + bytesLeft.toNat < 2 ^ 31 →
      done.length + envelopesLeft < 2 ^ 31 →
      ∃ n ≤ todo.length, (getStreamLoop envelopesLeft bytesLeft g).Reads pos
        (done ++ todo.take n) (es ++ est.take n) := by
  induction hes with
  -- at the end of the file the read fails and the loop ends
  | nil =>
    intro envelopesLeft bytesLeft g done es h hahead _ _
    refine ⟨0, Nat.le_refl _, ?_⟩
    rw [List.take_nil, List.take_nil, List.append_nil, List.append_nil]
    cases envelopesLeft with
    | zero => exact h
    | succ envelopesLeft =>
      obtain ⟨-, m, hat, -⟩ := hahead
      rw [getStreamLoop_succ, hat.readEnvelope_none progress_readVarint32]
      exact h
  -- one round: the read fails, or the record is put out and the loop ends or goes on
  | @cons body e todo est he _ ih =>
    intro envelopesLeft bytesLeft g done es h hahead hbytes hcount
    cases envelopesLeft with
    | zero =>
      refine ⟨0, Nat.zero_le _, ?_⟩
      rw [List.take_zero, List.take_zero, List.append_nil, List.append_nil]
      exact h
    | succ envelopesLeft =>
      obtain ⟨hbody, htodo⟩ := List.forall_mem_cons.mp hsize
      rw [records_cons] at hahead
      rw [getStreamLoop_succ]
      rcases h.readEnvelope hahead he hbody (by omega) (by omega) with
        ⟨stream, hread, hreads, hahead'⟩ | ⟨n, stream, hread, hreads⟩
      · rw [hread]
        simp only
        have hone : ∃ n ≤ (body :: todo).length, Segment.Reads ⟨stream, g.output ++ [e],
            g.bytesRead + UInt32.ofNat (record body).length, g.envelopesRead + 1⟩ pos
            (done ++ (body :: todo).take n) (es ++ (e :: est).take n) :=
          ⟨1, Nat.succ_le_succ (Nat.zero_le _), hreads⟩
        split_ifs with hover hlast
        · exact hone
        · exact hone
        · -- what is left to send shrinks by what was sent
          have hle : UInt32.ofNat (record body).length ≤ bytesLeft := UInt32.not_lt.mp hover
          have hrecord : (UInt32.ofNat (record body).length).toNat = (record body).length :=
            toNat_ofNat_uint32 (Nat.lt_trans (record_length_lt hbody.2) (by decide))
          have hleft := UInt32.toNat_sub_of_le _ _ hle
          rw [UInt32.le_iff_toNat_le, hrecord] at hle
          rw [hrecord] at hleft
          have hbytes' : (records (done ++ [body])).length +
              (bytesLeft - UInt32.ofNat (record body).length).toNat < 2 ^ 31 := by
            rw [hleft, records_append, List.length_append, records_cons, records_nil,
              List.append_nil]
            omega
          have hcount' : (done ++ [body]).length + envelopesLeft < 2 ^ 31 := by
            rw [List.length_append, List.length_singleton]
            omega
          obtain ⟨n, hn, hrun⟩ := ih htodo hreads hahead' hbytes' hcount'
          refine ⟨n + 1, Nat.succ_le_succ hn, ?_⟩
          rw [List.take_succ_cons, List.take_succ_cons, List.append_cons done,
            List.append_cons es]
          exact hrun
      · rw [hread]
        refine ⟨0, Nat.zero_le _, ?_⟩
        rw [List.take_zero, List.take_zero, List.append_nil, List.append_nil]
        exact hreads

/-! ## The response -/

/-- A byte or envelope limit that does not overflow the counts. -/
def ValidLimit (limit : UInt32) : Prop := 1 ≤ limit.toNat ∧ limit.toNat < 2 ^ 31

instance (limit : UInt32) : Decidable (ValidLimit limit) := inferInstanceAs (Decidable (_ ∧ _))

/-- The limits of the server and of a request are from 1 to 2^31 - 1. -/
structure Limits (p : RequestProcessor) (get : GetStreamSegmentV1) : Prop where
  bytes : ValidLimit p.getStreamMaxBytes
  envelopes : ValidLimit p.getStreamMaxEnvelopes
  responseBytes : ∀ limit ∈ get.maxResponseBytes, ValidLimit limit
  responseEnvelopes : ∀ limit ∈ get.maxResponseEnvelopes, ValidLimit limit

/-- The lesser of two limits is one of them. -/
theorem ValidLimit.lowerLimit {server : UInt32} (hserver : ValidLimit server)
    {client : Option UInt32} (hclient : ∀ limit ∈ client, ValidLimit limit) :
    ValidLimit (lowerLimit server client) := by
  cases client with
  | none => exact hserver
  | some n =>
    show ValidLimit (if n < server then n else server)
    split_ifs
    · exact hclient n rfl
    · exact hserver

/-- `StreamSegmentStartV1`, the payload and `StreamSegmentEndV1`. -/
def segmentResponse (p : RequestProcessor) (request : Envelope) (get : GetStreamSegmentV1)
    (payload : List Envelope) (stop : StreamSegmentEndV1) : List Envelope :=
  (p.respond (.streamSegmentStartV1 ⟨get.path, get.startOffset⟩)).addTags request.tag ::
    payload ++ [p.respond (.streamSegmentEndV1 stop)]

theorem segmentResponse_injective {p : RequestProcessor} {request : Envelope}
    {get : GetStreamSegmentV1} {payload payload' : List Envelope} {stop stop' : StreamSegmentEndV1}
    (h : p.segmentResponse request get payload stop =
      p.segmentResponse request get payload' stop') : payload = payload' ∧ stop = stop' := by
  obtain ⟨hpayload, hstop⟩ := List.append_inj' (List.cons.inj h).2 rfl
  refine ⟨hpayload, ?_⟩
  have hget := congrArg (fun e : Envelope => e.getMessage 0) (List.cons.inj hstop).1
  simp only [respond, Envelope.getMessage_ofMessage, Option.some.injEq] at hget
  exact Message.streamSegmentEndV1.inj hget

/-- The end of a segment of the records `bodies` at offset `pos`. -/
structure Ends (stop : StreamSegmentEndV1) (pos : Nat) (bodies : List Bytes) : Prop where
  offset_eq : stop.offset.toNat = pos + (records bodies).length
  bytesSent_eq : stop.bytesSent.toNat = (records bodies).length
  envelopesSent_eq : stop.envelopesSent.toNat = bodies.length

/-- What a response says of its end is where the loop came to. -/
theorem Segment.Reads.ends {g : Segment} {pos : Nat} {bodies : List Bytes} {es : List Envelope}
    (h : g.Reads pos bodies es) (hfit : pos + (records bodies).length < 2 ^ 64) :
    Ends ⟨UInt64.ofInt g.stream.offset, g.bytesRead, g.envelopesRead⟩ pos bodies where
  offset_eq := by
    show (UInt64.ofInt g.stream.offset).toNat = _
    rw [h.offset_eq]
    show (UInt64.ofNat (((pos + (records bodies).length : Nat) : Int) % 2 ^ 64).toNat).toNat = _
    rw [Int.emod_eq_of_lt (Int.natCast_nonneg _) (by omega), Int.toNat_natCast]
    exact UInt64.toNat_ofNat_of_lt' hfit
  bytesSent_eq := h.bytesRead_eq
  envelopesSent_eq := h.envelopesRead_eq

/-- `ProcessGetStream` of an open stream whose first read fails. -/
theorem sendSegment_none {p : RequestProcessor} {request : Envelope} {get : GetStreamSegmentV1}
    {stream : InputStream} (t : Trace) (h : ∃ n s', stream.readEnvelope = (none, n, s')) :
    p.sendSegment request get stream t = p.populateErrorResponse .invalidStreamOffset
      (str "no envelopes found at requested stream offset") t := by
  obtain ⟨n, s', h⟩ := h
  rw [stream.readEnvelope_nextEnvelopeSize] at h
  rw [sendSegment]
  by_cases h0 : stream.nextEnvelopeSize.1 = 0
  · simp only [if_pos h0]
  · rw [if_neg h0] at h
    simp only [if_neg h0, h]

/-- What is read for a segment whose first envelope was read: the loop is entered
while both limits leave room. -/
def segment (p : RequestProcessor) (get : GetStreamSegmentV1) (e : Envelope) (size : UInt32)
    (stream : InputStream) : Segment :=
  let bytesLeft := lowerLimit p.getStreamMaxBytes get.maxResponseBytes
  let envelopesLeft := lowerLimit p.getStreamMaxEnvelopes get.maxResponseEnvelopes - 1
  if size < bytesLeft ∧ envelopesLeft ≠ 0 then
    getStreamLoop envelopesLeft.toNat (bytesLeft - size) ⟨stream, [e], size, 1⟩
  else ⟨stream, [e], size, 1⟩

/-- The end that is sent for what was read. -/
def Segment.stop (g : Segment) : StreamSegmentEndV1 :=
  ⟨UInt64.ofInt g.stream.offset, g.bytesRead, g.envelopesRead⟩

/-- `ProcessGetStream` of an open stream whose first read returns an envelope. -/
theorem sendSegment_read {p : RequestProcessor} (request : Envelope) (get : GetStreamSegmentV1)
    {stream s' : InputStream} (t : Trace) {e : Envelope} {size : UInt32}
    (h : stream.readEnvelope = (some e, size, s')) :
    p.sendSegment request get stream t =
      { t with
        output := t.output ++ p.segmentResponse request get (p.segment get e size s').output
          (p.segment get e size s').stop } := by
  -- the size read ahead is not zero, and `ReadEnvelope` uses it
  rw [stream.readEnvelope_nextEnvelopeSize] at h
  have h0 : stream.nextEnvelopeSize.1 ≠ 0 := by
    intro h0
    rw [if_pos h0] at h
    cases h
  rw [if_neg h0] at h
  rw [sendSegment]
  simp only [if_neg h0, h]
  rw [segmentResponse, List.append_assoc]
  rfl

/-- The payload after its first envelope. -/
theorem reads_of_first {first : Segment} {pos : Nat} {body : Bytes} {bodies : List Bytes}
    {e : Envelope} {es : List Envelope} (hreads : first.Reads pos [body] [e])
    (hahead : first.Ahead (pos + (records [body]).length) (records bodies))
    (hes : InputStream.Parses bodies es) (hlen : body.length < 2 ^ 28)
    (hsize : ∀ b ∈ bodies, 0 < b.length ∧ b.length < 2 ^ 28) {bytesLeft envelopesLeft : UInt32}
    (hbytes : ValidLimit bytesLeft) (henvelopes : ValidLimit envelopesLeft) :
    ∃ n ≤ bodies.length, Segment.Reads
      (if UInt32.ofNat (record body).length < bytesLeft ∧ envelopesLeft - 1 ≠ 0 then
        getStreamLoop (envelopesLeft - 1).toNat (bytesLeft - UInt32.ofNat (record body).length) first
      else first) pos (body :: bodies.take n) (e :: es.take n) := by
  obtain ⟨henvelopes, hcount⟩ := henvelopes
  split_ifs with hroom
  · have hrecord : (UInt32.ofNat (record body).length).toNat = (record body).length :=
      toNat_ofNat_uint32 (Nat.lt_trans (record_length_lt hlen) (by decide))
    have hleft := UInt32.toNat_sub_of_le _ _ (UInt32.le_of_lt hroom.1)
    have hlt := UInt32.lt_iff_toNat_lt.mp hroom.1
    have hone : (envelopesLeft - 1).toNat = envelopesLeft.toNat - 1 :=
      UInt32.toNat_sub_of_le _ _ (UInt32.le_iff_toNat_le.mpr henvelopes)
    rw [hrecord] at hleft hlt
    refine getStreamLoop_reads hes hsize hreads hahead ?_ ?_
    · rw [hleft, records_cons, records_nil, List.append_nil]
      have := hbytes.2
      omega
    · rw [hone, List.length_singleton]
      omega
  · exact ⟨0, Nat.zero_le _, hreads⟩

/-- `ProcessGetStream` of an open stream with a record in front that is read. -/
theorem sendSegment_some {p : RequestProcessor} (request : Envelope) {get : GetStreamSegmentV1}
    {stream : InputStream} (t : Trace) (hlimits : p.Limits get) {pos : Nat} {body : Bytes}
    {bodies : List Bytes} {e : Envelope} {es : List Envelope}
    (hahead : Segment.Ahead ⟨stream, [], 0, 0⟩ pos (record body ++ records bodies))
    (he : Envelope.parse body = some e) (hes : InputStream.Parses bodies es)
    (hsize : ∀ b ∈ body :: bodies, 0 < b.length ∧ b.length < 2 ^ 28)
    (hfit : pos + (records (body :: bodies)).length < 2 ^ 64)
    (hread : ¬ ∃ n s', stream.readEnvelope = (none, n, s')) :
    ∃ n ≤ bodies.length, ∃ stop, Ends stop pos (body :: bodies.take n) ∧
      p.sendSegment request get stream t =
        { t with output := t.output ++ p.segmentResponse request get (e :: es.take n) stop } := by
  obtain ⟨hbody, hbodies⟩ := List.forall_mem_cons.mp hsize
  obtain ⟨m, hat, hm⟩ := hahead.stands
  have hnone : Segment.Reads ⟨stream, [], 0, 0⟩ pos [] [] := ⟨hat.offset_eq, rfl, rfl, rfl⟩
  rcases hnone.readEnvelope hahead he hbody (by decide) (by decide) with
    ⟨s', hread', hreads, hahead'⟩ | ⟨n, s', hread', -⟩
  swap
  · exact absurd ⟨n, s', hread'⟩ hread
  rw [UInt32.zero_add, UInt32.zero_add] at hreads hahead'
  obtain ⟨n, hn, hrun⟩ := reads_of_first hreads hahead' hes hbody.2 hbodies
    (hlimits.bytes.lowerLimit hlimits.responseBytes)
    (hlimits.envelopes.lowerLimit hlimits.responseEnvelopes)
  have hfit' : pos + (records (body :: bodies.take n)).length < 2 ^ 64 := by
    have := records_take_length_le (body :: bodies) (n + 1)
    rw [List.take_succ_cons] at this
    omega
  refine ⟨n, hn, _, hrun.ends hfit', ?_⟩
  rw [sendSegment_read request get t hread', ← hrun.output_eq]
  rfl

/-- **Run lemma** of the loop for any stream file: the count of bytes does not
wrap to zero. -/
theorem bytesRead_getStreamLoop_ne_zero (n : Nat) :
    ∀ (bytesLeft : UInt32) (g : Segment), g.stream.Measured → 0 < g.bytesRead.toNat →
      g.bytesRead.toNat + bytesLeft.toNat + 8 ≤ 2 ^ 31 →
      (getStreamLoop n bytesLeft g).bytesRead ≠ 0 := by
  have hne : ∀ k : UInt32, 0 < k.toNat → k ≠ 0 := by
    rintro k hk rfl
    exact Nat.lt_irrefl 0 hk
  induction n with
  | zero =>
    intro bytesLeft g _ hpos _
    exact hne _ hpos
  | succ n ih =>
    intro bytesLeft g hmeasured hpos hle
    rw [getStreamLoop_succ]
    split
    · exact hne _ hpos
    · rename_i env size stream hread
      obtain ⟨hsize, hlt, hmeasured'⟩ := hmeasured.readEnvelope hread
      have hsum : (g.bytesRead + size).toNat = g.bytesRead.toNat + size.toNat := by
        rw [UInt32.toNat_add, Nat.mod_eq_of_lt (by omega)]
      have hpos' : 0 < (g.bytesRead + size).toNat := by
        rw [hsum]
        exact Nat.add_pos_left hpos _
      simp only
      split_ifs with hover hlast
      · exact hne _ hpos'
      · exact hne _ hpos'
      · have hfits : size ≤ bytesLeft := UInt32.not_lt.mp hover
        have hleft := UInt32.toNat_sub_of_le _ _ hfits
        rw [UInt32.le_iff_toNat_le] at hfits
        refine ih _ _ hmeasured' hpos' ?_
        rw [hleft]
        show (g.bytesRead + size).toNat + _ + 8 ≤ _
        omega

/-- Each round puts out one envelope at most. -/
theorem length_getStreamLoop_le (n : Nat) :
    ∀ (bytesLeft : UInt32) (g : Segment),
      (getStreamLoop n bytesLeft g).output.length ≤ g.output.length + n := by
  induction n with
  | zero =>
    intro bytesLeft g
    exact Nat.le_refl _
  | succ n ih =>
    intro bytesLeft g
    rw [getStreamLoop_succ]
    split
    · exact Nat.le_add_right _ _
    · rename_i env size stream _
      have hone : (g.output ++ [env]).length + n ≤ g.output.length + (n + 1) := by
        rw [List.length_append, List.length_singleton]
        omega
      simp only
      split_ifs
      · exact Nat.le_trans (Nat.le_add_right _ _) hone
      · exact Nat.le_trans (Nat.le_add_right _ _) hone
      · exact Nat.le_trans (ih _ _) hone

/-- The loop only adds to what was read. -/
theorem output_prefix_getStreamLoop (n : Nat) :
    ∀ (bytesLeft : UInt32) (g : Segment), g.output <+: (getStreamLoop n bytesLeft g).output := by
  induction n with
  | zero =>
    intro bytesLeft g
    exact List.prefix_refl _
  | succ n ih =>
    intro bytesLeft g
    rw [getStreamLoop_succ]
    split
    · exact List.prefix_refl _
    · rename_i env size stream _
      have hone : g.output <+: g.output ++ [env] := List.prefix_append _ _
      simp only
      split_ifs
      · exact hone
      · exact hone
      · exact hone.trans (ih _ ⟨_, _, _, _⟩)

/-- What a segment from `stream` is like, whatever is in the file. -/
structure Sends (p : RequestProcessor) (stream : InputStream) (payload : List Envelope)
    (stop : StreamSegmentEndV1) : Prop where
  payload_ne_nil : payload ≠ []
  length_le : payload.length ≤ 2 ^ 32
  bytesSent_ne_zero (hmeasured : stream.Measured)
    (hlimit : p.getStreamMaxBytes.toNat + 8 ≤ 2 ^ 31) : stop.bytesSent ≠ 0

theorem lowerLimit_le (server : UInt32) (client : Option UInt32) :
    (lowerLimit server client).toNat ≤ server.toNat := by
  cases client with
  | none => exact Nat.le_refl _
  | some n =>
    show (if n < server then n else server).toNat ≤ _
    split_ifs with hlt
    · exact Nat.le_of_lt (UInt32.lt_iff_toNat_lt.mp hlt)
    · exact Nat.le_refl _

/-- Whatever the stream is like, there is a segment or one error. -/
theorem sendSegment_or (p : RequestProcessor) (request : Envelope) (get : GetStreamSegmentV1)
    (stream : InputStream) (t : Trace) :
    p.sendSegment request get stream t = p.populateErrorResponse .invalidStreamOffset
      (str "no envelopes found at requested stream offset") t ∨
    ∃ payload stop, p.Sends stream payload stop ∧ p.sendSegment request get stream t =
      { t with output := t.output ++ p.segmentResponse request get payload stop } := by
  by_cases hread : ∃ n s', stream.readEnvelope = (none, n, s')
  · exact Or.inl (sendSegment_none t hread)
  right
  obtain ⟨e, size, s', hsome⟩ :
      ∃ e size s', stream.readEnvelope = (some e, size, s') := by
    cases h : stream.readEnvelope with
    | mk o r =>
      cases o with
      | none => exact absurd ⟨r.1, r.2, h⟩ hread
      | some e => exact ⟨e, r.1, r.2, rfl⟩
  refine ⟨_, _, ⟨?_, ?_, ?_⟩, sendSegment_read request get t hsome⟩
  · unfold segment
    dsimp only
    split_ifs
    · exact (output_prefix_getStreamLoop _ _ _).ne_nil (List.cons_ne_nil _ _)
    · exact List.cons_ne_nil _ _
  · -- one envelope, and what the loop adds
    unfold segment
    dsimp only
    split_ifs
    · refine Nat.le_trans (length_getStreamLoop_le _ _ _) ?_
      have hlimit := UInt32.toNat_lt
        (lowerLimit p.getStreamMaxEnvelopes get.maxResponseEnvelopes - 1)
      rw [List.length_singleton]
      omega
    · exact Nat.one_le_two_pow
  -- the bytes are counted in 32 bits, and do not wrap to zero
  · intro hmeasured hlimit
    obtain ⟨hpos, -, hmeasured'⟩ := hmeasured.readEnvelope hsome
    show (p.segment get e size s').bytesRead ≠ 0
    unfold segment
    dsimp only
    split_ifs with hroom
    · have hleft := UInt32.toNat_sub_of_le _ _ (UInt32.le_of_lt hroom.1)
      have hlt := UInt32.lt_iff_toNat_lt.mp hroom.1
      have hle := lowerLimit_le p.getStreamMaxBytes get.maxResponseBytes
      refine bytesRead_getStreamLoop_ne_zero _ _ _ hmeasured' hpos ?_
      rw [hleft]
      show size.toNat + _ + 8 ≤ _
      omega
    · rintro rfl
      exact Nat.lt_irrefl 0 hpos

/-! ## Requests at a boundary -/

/-- The processor serves a file under a path. -/
def Serves (p : RequestProcessor) (path content : Bytes) : Prop :=
  ∃ bucket set stream, Store.parsePath path = some (bucket, set, stream) ∧
    bucket ≠ [] ∧ set ≠ [] ∧ stream ≠ [] ∧ p.store.bucketExists bucket = true ∧
    p.store.streamSetExists bucket set = true ∧ p.store.file bucket set stream = some content

theorem Serves.checkPath {p : RequestProcessor} {path content : Bytes} (h : p.Serves path content)
    (t : Trace) : p.checkPath path t true true true = (true, t) := by
  obtain ⟨bucket, set, stream, hparse, hb, hs, hn, hbucket, hset, hfile⟩ := h
  have hstream : p.store.streamExists bucket set stream = true := by
    rw [Store.streamExists, hfile]
    rfl
  rw [RequestProcessor.checkPath, hparse]
  simp [hb, hs, hn, hbucket, hset, hstream]

/-- A path that `CheckPath` accepts as that of a stream is served. -/
theorem serves_of_checkPath {p : RequestProcessor} {path : Bytes} {t t' : Trace}
    (h : p.checkPath path t true true true = (true, t')) : ∃ content, p.Serves path content := by
  rw [RequestProcessor.checkPath] at h
  cases hparse : Store.parsePath path with
  | none =>
    rw [hparse] at h
    cases h
  | some names =>
    obtain ⟨bucket, set, stream⟩ := names
    rw [hparse] at h
    simp only [Bool.true_and, List.isEmpty_iff] at h
    split_ifs at h with hb hs hn hbucket hset hstream
    · cases h
    · cases h
    · cases h
    · cases h
    · cases h
    · cases h
    have hexists : p.store.file bucket set stream ≠ none := by
      simpa [Store.streamExists] using hstream
    obtain ⟨content, hfile⟩ := Option.ne_none_iff_exists'.mp hexists
    exact ⟨content, bucket, set, stream, hparse, hb, hs, hn, by simpa using hbucket,
      by simpa using hset, hfile⟩

theorem Serves.getInputStream {p : RequestProcessor} {path content : Bytes}
    (h : p.Serves path content) :
    p.store.getInputStream path = some (InputStream.ofFile (some content) 0) := by
  obtain ⟨bucket, set, stream, hparse, -, -, -, -, -, hfile⟩ := h
  rw [Store.getInputStream, hparse, ← hfile]
  rfl

/-- The offset, in a request or at the end of a segment, behind the given
records. The version byte can be left out. -/
def Names (offset : UInt64) (bodies : List Bytes) : Prop :=
  max offset.toNat 1 = (streamFile bodies).length

theorem toInt64_of_lt {n : UInt64} (h : n.toNat < 2 ^ 63) : toInt64 n = n.toNat := by
  have h1 : -(((2 ^ 64 : Nat) : Int) / 2) ≤ (n.toNat : Int) := by omega
  have h2 : (n.toNat : Int) < (((2 ^ 64 : Nat) : Int) + 1) / 2 := by omega
  exact Int.bmod_eq_of_le h1 h2

/-- `ProcessGetStream` opens the stream in front of the record that the offset
names. -/
theorem processGetStream_eq {p : RequestProcessor} {request : Envelope} {get : GetStreamSegmentV1}
    {before rest : List Bytes} (hget : request.getMessage 0 = some (.getStreamSegmentV1 get))
    (hserves : p.Serves get.path (streamFile (before ++ rest)))
    (hstart : Names get.startOffset before)
    (hfile : (streamFile (before ++ rest)).length < 2 ^ 63) (t : Trace) :
    ∃ stream m, p.processGetStream request t =
        (.ok .authoritative, p.sendSegment request get stream t) ∧
      stream.At (streamFile before).length (records rest) m ∧ m.Sound ∧
      stream.haveNextSize = false ∧
      ∀ n, (get.startOffset ≠ 0 → (encodeVarint n).length + n ≤ 64 * 2 ^ 20) → n < 2 ^ 28 →
        m.Room n := by
  obtain ⟨s, hopen, hat, hnext, hcontent⟩ := InputStream.ofFile_at (records (before ++ rest))
  have hstream := hserves.getInputStream
  rw [show streamFile (before ++ rest) = 1 :: records (before ++ rest) from rfl, hopen] at hstream
  rw [processGetStream, hget]
  simp only [checkPathThen, hserves.checkPath, hstream]
  by_cases h0 : get.startOffset = 0
  · -- the stream is read from its beginning
    obtain rfl : before = [] := by
      rw [Names, h0, streamFile_length] at hstart
      rcases before with _ | ⟨body, bodies⟩
      · rfl
      · have hpos := record_length_pos body
        rw [records_cons, List.length_append] at hstart
        have hmax : max (0 : UInt64).toNat 1 = 1 := rfl
        omega
    refine ⟨s, ⟨1, 0, intMax⟩, by rw [if_pos h0], hat, Or.inl InputStream.full_begin, hnext, ?_⟩
    exact fun n _ hn => InputStream.full_begin.room (Meter.le_maxBody hn)
  · have hpos : get.startOffset.toNat = (streamFile before).length := by
      have h1 : 1 ≤ get.startOffset.toNat := by
        rcases Nat.eq_zero_or_pos get.startOffset.toNat with hz | hz
        · exact absurd (UInt64.toNat_inj.mp hz) h0
        · exact hz
      rw [Names] at hstart
      omega
    have hle : (streamFile before).length ≤ (streamFile (before ++ rest)).length := by
      rw [streamFile_append, List.length_append]
      exact Nat.le_add_right _ _
    have hoffset := toInt64_of_lt (n := get.startOffset) (by omega)
    rw [hpos] at hoffset
    have hdrop : s.file.drop (streamFile before).length = records rest := by
      rw [hcontent, show 1 :: records (before ++ rest) = streamFile (before ++ rest) from rfl,
        streamFile_append, List.drop_left]
    -- nothing was read yet, so the stream counts from zero behind the seek
    have hsought : (Meter.sought s.codedInputStreamReadBytes).Sought :=
      ⟨rfl, hat.readBytes_eq, Nat.zero_le _⟩
    have hat' := InputStream.at_soughtTo hnext (streamFile before).length
    rw [hdrop] at hat'
    refine ⟨s.soughtTo (streamFile before).length, _, ?_, hat', Or.inr hsought, hnext, ?_⟩
    · rw [if_neg h0, hoffset, InputStream.setAbsoluteOffset_ofNat]
    · intro n hroom _
      rw [hsought.room_iff, Meter.position_sought, Nat.zero_add]
      exact hroom h0

theorem names_of_ends {stop : StreamSegmentEndV1} {before bodies : List Bytes}
    (h : Ends stop (streamFile before).length bodies) : Names stop.offset (before ++ bodies) := by
  rw [Names, h.offset_eq, streamFile_append, List.length_append, streamFile_length]
  omega

/-- **Step lemma**: a request at a record boundary is answered with a segment, or
with one error where there is no record or one that the coded stream has no room
for. -/
theorem processGetStream_or {p : RequestProcessor} {request : Envelope} {get : GetStreamSegmentV1}
    {before rest : List Bytes} {es : List Envelope}
    (hget : request.getMessage 0 = some (.getStreamSegmentV1 get)) (hlimits : p.Limits get)
    (hserves : p.Serves get.path (streamFile (before ++ rest)))
    (hstart : Names get.startOffset before) (hes : InputStream.Parses rest es)
    (hsize : ∀ body ∈ rest, 0 < body.length ∧ body.length < 2 ^ 28)
    (hfile : (streamFile (before ++ rest)).length < 2 ^ 63) (t : Trace) :
    (∃ n stop, 1 ≤ n ∧ n ≤ rest.length ∧ Ends stop (streamFile before).length (rest.take n) ∧
      p.processGetStream request t = (.ok .authoritative,
        { t with output := t.output ++ p.segmentResponse request get (es.take n) stop })) ∨
    (p.processGetStream request t = (.ok .authoritative,
        p.populateErrorResponse .invalidStreamOffset
          (str "no envelopes found at requested stream offset") t) ∧
      ∀ body ∈ rest.head?, get.startOffset ≠ 0 ∧ 64 * 2 ^ 20 < (record body).length) := by
  obtain ⟨stream, m, heq, hat, hm, hnext, hroom⟩ :=
    processGetStream_eq hget hserves hstart hfile t
  rw [heq]
  cases hes with
  | nil =>
    refine Or.inr ⟨?_, fun _ hb => nomatch hb⟩
    rw [sendSegment_none t ⟨_, _, hat.readEnvelope_none progress_readVarint32⟩]
  | @cons body e bodies es he hes =>
    obtain ⟨hbody, -⟩ := List.forall_mem_cons.mp hsize
    by_cases hread : ∃ n s', stream.readEnvelope = (none, n, s')
    · refine Or.inr ⟨by rw [sendSegment_none t hread], ?_⟩
      rintro _ ⟨rfl⟩
      -- with room for the record it would have been read
      by_contra hfits
      have hbodyRoom : m.Room body.length := by
        refine hroom _ (fun h0 => ?_) hbody.2
        rw [← record_length]
        exact Nat.le_of_not_lt fun hlong => hfits ⟨h0, hlong⟩
      obtain ⟨n, s', hnone⟩ := hread
      obtain ⟨s'', hsome, -⟩ := hat.readEnvelope he hbody.1 hbodyRoom
      rw [hnone] at hsome
      cases hsome
    · have hfit : (streamFile before).length + (records (body :: bodies)).length < 2 ^ 64 := by
        rw [← List.length_append, ← streamFile_append]
        omega
      obtain ⟨n, hn, stop, hends, hsend⟩ :=
        sendSegment_some request t hlimits ⟨hnext, m, hat, hm⟩ he hes hsize hfit hread
      refine Or.inl ⟨n + 1, stop, Nat.succ_le_succ (Nat.zero_le _), Nat.succ_le_succ hn, hends, ?_⟩
      rw [hsend]
      rfl

/-- Requests for segments of a stream, each from the offset where the segment
before ended, with any tags and limits: the offset of the first request, how many
there are, what they deliver, and the offset for another one. -/
inductive Fetch (p : RequestProcessor) (path : Bytes) :
    UInt64 → Nat → List Envelope → UInt64 → Prop where
  | start (offset : UInt64) : Fetch p path offset 0 [] offset
  | segment {request : Envelope} {get : GetStreamSegmentV1} {payload : List Envelope}
      {stop : StreamSegmentEndV1} {n : Nat} {es : List Envelope} {next : UInt64}
      (hget : request.getMessage 0 = some (.getStreamSegmentV1 get)) (hpath : get.path = path)
      (hlimits : p.Limits get)
      (hresponse : p.processGetStream request {} =
        (.ok .authoritative, { output := p.segmentResponse request get payload stop }))
      (h : Fetch p path stop.offset n es next) :
      Fetch p path get.startOffset (n + 1) (payload ++ es) next

/-- **Run lemma**: whatever was fetched is the next records, in order, and the
offset is behind them. -/
theorem Fetch.take {p : RequestProcessor} {path : Bytes} {start next : UInt64} {n : Nat}
    {fetched : List Envelope} (h : p.Fetch path start n fetched next) :
    ∀ {before rest : List Bytes} {es : List Envelope},
      p.Serves path (streamFile (before ++ rest)) → Names start before →
      InputStream.Parses rest es → (∀ body ∈ rest, 0 < body.length ∧ body.length < 2 ^ 28) →
      (streamFile (before ++ rest)).length < 2 ^ 63 →
      ∃ k, n ≤ k ∧ k ≤ rest.length ∧ fetched = es.take k ∧
        Names next (before ++ rest.take k) := by
  induction h with
  | start offset =>
    intro before rest es _ hstart _ _ _
    refine ⟨0, Nat.le_refl _, Nat.zero_le _, rfl, ?_⟩
    rw [List.take_zero, List.append_nil]
    exact hstart
  | @segment request get payload stop n es' next hget hpath hlimits hresponse _ ih =>
    intro before rest es hserves hstart hes hsize hfile
    subst hpath
    rcases processGetStream_or hget hlimits hserves hstart hes hsize hfile {} with
      ⟨j, stop', hpos, hj, hends, hsegment⟩ | ⟨herror, -⟩
    · rw [hresponse] at hsegment
      have houtput := congrArg (fun r : Processed => r.2.output) hsegment
      obtain ⟨rfl, rfl⟩ := segmentResponse_injective houtput
      have hsplit : before ++ rest.take j ++ rest.drop j = before ++ rest := by
        rw [List.append_assoc, List.take_append_drop]
      rw [← hsplit] at hserves hfile
      obtain ⟨k, hn, hk, rfl, hnext⟩ := ih hserves (names_of_ends hends) (List.forall₂_drop j hes)
        (fun body hb => hsize body (List.mem_of_mem_drop hb)) hfile
      rw [List.length_drop] at hk
      refine ⟨j + k, by omega, by omega, ?_, ?_⟩
      · rw [List.take_add]
      · rw [List.take_add, ← List.append_assoc]
        exact hnext
    · rw [hresponse] at herror
      have hlength := congrArg (fun r : Processed => r.2.output.length) herror
      simp [segmentResponse, populateErrorResponse, Trace.push] at hlength

/-- **Segments resume**: on a stream of records of 1 to 2^28 - 1 bytes, requests
that start at a record boundary and go on where the last segment ended have, at
any time, delivered the next records exactly once and in order. Until the end of
the file the next request is answered with at least one more envelope, and its
counts and offsets are exact. The coded stream of a request that seeks has to
have room for the first record. -/
theorem segments_resume {p : RequestProcessor} {path : Bytes} {before rest : List Bytes}
    {es : List Envelope} {start : UInt64}
    (hserves : p.Serves path (streamFile (before ++ rest))) (hstart : Names start before)
    (hes : InputStream.Parses rest es) (hsize : ∀ body ∈ rest, 1 ≤ body.length ∧ body.length < 2 ^ 28)
    (hfile : (streamFile (before ++ rest)).length < 2 ^ 63)
    (hroom : ∀ n fetched next k, p.Fetch path start n fetched next → next ≠ 0 →
      Names next (before ++ rest.take k) → ∀ body ∈ rest[k]?, (record body).length ≤ 64 * 2 ^ 20)
    {n : Nat} {fetched : List Envelope} {next : UInt64} (h : p.Fetch path start n fetched next) :
    ∃ k, n ≤ k ∧ k ≤ rest.length ∧ fetched = es.take k ∧ Names next (before ++ rest.take k) ∧
      (k < rest.length → ∀ request get, request.getMessage 0 = some (.getStreamSegmentV1 get) →
        get.path = path → get.startOffset = next → p.Limits get →
        ∃ j stop, 1 ≤ j ∧ j ≤ rest.length - k ∧
          p.processGetStream request {} = (.ok .authoritative,
            { output := p.segmentResponse request get ((es.drop k).take j) stop }) ∧
          stop.envelopesSent.toNat = j ∧
          stop.bytesSent.toNat = (records ((rest.drop k).take j)).length ∧
          stop.offset.toNat = max next.toNat 1 + stop.bytesSent.toNat ∧
          Names stop.offset (before ++ rest.take (k + j))) := by
  obtain ⟨k, hn, hk, hfetched, hnext⟩ := h.take hserves hstart hes hsize hfile
  refine ⟨k, hn, hk, hfetched, hnext, ?_⟩
  rintro hlt request get hget rfl rfl hlimits
  have hsplit : before ++ rest.take k ++ rest.drop k = before ++ rest := by
    rw [List.append_assoc, List.take_append_drop]
  rw [← hsplit] at hserves hfile
  rcases processGetStream_or hget hlimits hserves hnext (List.forall₂_drop k hes)
      (fun body hb => hsize body (List.mem_of_mem_drop hb)) hfile {} with
    ⟨j, stop, hpos, hj, hends, hresponse⟩ | ⟨-, hlong⟩
  · rw [List.length_drop] at hj
    refine ⟨j, stop, hpos, hj, hresponse, ?_, hends.bytesSent_eq, ?_, ?_⟩
    · rw [hends.envelopesSent_eq, List.length_take, List.length_drop, Nat.min_eq_left hj]
    · rw [hends.offset_eq, hends.bytesSent_eq, hnext]
    · rw [List.take_add, ← List.append_assoc]
      exact names_of_ends hends
  · -- there is a record, and it has room
    rw [List.head?_drop] at hlong
    obtain ⟨hseek, hlong⟩ := hlong rest[k] (List.getElem?_eq_getElem hlt)
    have hfits := hroom n fetched get.startOffset k h hseek hnext rest[k]
      (List.getElem?_eq_getElem hlt)
    omega

/-- A stream with one envelope is delivered by the first request. -/
theorem segments_resume_first :
    ∃ stop, (deferring [1, 2, 40, 5]).processGetStream getStream {} = (.ok .authoritative,
      { output := (deferring [1, 2, 40, 5]).segmentResponse getStream wholeStream
          [Envelope.new 5] stop }) ∧ stop.offset.toNat = 4 := by
  have hserves : (deferring [1, 2, 40, 5]).Serves (str "/bucket/set/stream")
      (streamFile ([] ++ [[40, 5]])) :=
    ⟨str "bucket", str "set", str "stream", by decide +kernel⟩
  obtain ⟨k, -, hk, hfetched, -, hmore⟩ := segments_resume hserves
    (show Names 0 [] from rfl)
    (show InputStream.Parses [[40, 5]] [Envelope.new 5] from .cons rfl .nil) (by decide) (by decide)
    (by
      rintro n fetched next (_ | k) - - - body hb
      · cases hb
        decide
      · cases hb) (.start 0)
  obtain rfl : k = 0 := by
    cases k with
    | zero => rfl
    | succ k => cases hfetched
  obtain ⟨j, stop, hpos, hj, hresponse, -, -, -, hnext⟩ := hmore (by decide) getStream wholeStream
    (by decide +kernel) rfl rfl ⟨by decide, by decide, nofun, nofun⟩
  obtain rfl : j = 1 := Nat.le_antisymm hj hpos
  have hoffset : max stop.offset.toNat 1 = 4 := hnext
  exact ⟨stop, hresponse, by omega⟩

theorem no_segment_of_length {content : Bytes}
    (h : ((deferring content).processGetStream getStream {}).2.output.length = 1) :
    ¬ ∃ payload stop, (deferring content).processGetStream getStream {} = (.ok .authoritative,
      { output := (deferring content).segmentResponse getStream wholeStream payload stop }) := by
  rintro ⟨payload, stop, hresponse⟩
  rw [hresponse] at h
  simp [segmentResponse] at h

/-- In a file that has only its version byte there is no envelope to send, and a
record without a body hides the one behind it. -/
theorem no_segment_at_zero :
    (¬ ∃ payload stop, (deferring [1]).processGetStream getStream {} = (.ok .authoritative,
      { output := (deferring [1]).segmentResponse getStream wholeStream payload stop })) ∧
    ¬ ∃ payload stop, (deferring [1, 0, 2, 40, 5]).processGetStream getStream {} =
      (.ok .authoritative, { output :=
        (deferring [1, 0, 2, 40, 5]).segmentResponse getStream wholeStream payload stop }) :=
  ⟨no_segment_of_length (by decide +kernel), no_segment_of_length (by decide +kernel)⟩

end RequestProcessor

end Zippylog
