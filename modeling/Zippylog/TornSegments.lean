import Zippylog.Segments

/-!
# Segments of a file that is written

The file of an open stream can end inside a record, as the library writes its buffer where that is
full. What `ProcessGetStream` makes of such a file is what it makes of the file up to the cut
record, as long as no envelope is read from that. (One is read where the cut is between two fields:
see `torn_tail_iff`.)

- `Unread`: the cut records that no envelope is read from;
- `Twins.readEnvelope`: a file with such an end and one without it are read alike, until the reader
  comes to the end, where both reads fail;
- `processGetStream_torn`: and so are the answers, from any offset that is a record boundary.
-/

namespace Zippylog

open Wire

namespace InputStream

/-! ## Cut records -/

/-- The first bytes of a record that is cut inside its length, or inside its body but not
between two fields of its envelope or of an actor in it. -/
inductive Unread : Bytes → Prop where
  | length {body : Bytes} {c : Nat} (hlen : body.length < 2 ^ 32)
      (hc : c < (encodeVarint body.length).length) : Unread ((record body).take c)
  | body {uss : List Bytes} {fs : List Field} {e : Envelope} {k : Nat}
      (hi : Items (readField 0) uss fs) (he : Envelope.parse uss.flatten = some e)
      (hlen : uss.flatten.length < 2 ^ 28) (hk : k < uss.flatten.length)
      (hcut : ¬ Envelope.BetweenFields uss k) :
      Unread ((record uss.flatten).take ((encodeVarint uss.flatten.length).length + k))

theorem unread_nil : Unread [] :=
  have hlen : ([] : Bytes).length < 2 ^ 32 := by decide
  have hpos : 0 < (encodeVarint ([] : Bytes).length).length := by decide
  .length hlen hpos

/-- A stream that sought, in front of a record that is cut inside a field. -/
theorem At.readEnvelope_sought_torn {s : InputStream} {pos : Nat} {m : Meter} {uss : List Bytes}
    {fs : List Field} {e : Envelope} {k : Nat}
    (h : s.At pos ((record uss.flatten).take ((encodeVarint uss.flatten.length).length + k)) m)
    (hnext : s.haveNextSize = false) (hm : m.Sought) (hi : Items (readField 0) uss fs)
    (he : Envelope.parse uss.flatten = some e) (hlen : uss.flatten.length < 2 ^ 28)
    (hk : k < uss.flatten.length) (hcut : ¬ Envelope.BetweenFields uss k) :
    ∃ n s', s.readEnvelope = (none, n, s') := by
  have hlt : uss.flatten.length < 2 ^ 32 := by omega
  rw [record, List.take_length_add_append] at h
  by_cases hvarint : m.position + (encodeVarint uss.flatten.length).length ≤ m.limit
  · obtain ⟨s₁, hs₁, hpeek, -⟩ := h.nextEnvelopeSize hlt hvarint
    rw [readEnvelope_of_peeked hs₁ hpeek.have_next hpeek.next_eq]
    have hbody := Meter.body_of_not_half hm.not_half uss.flatten.length
    have hlimit := hm.limit_eq
    -- the limit of the message is behind the end of the file
    have hmessage : CodedInputStream.messageLimit ⟨uss.flatten.take k,
        (m.body uss.flatten.length).position, (m.body uss.flatten.length).limit⟩
        (UInt32.ofNat uss.flatten.length) =
          (m.body uss.flatten.length).position + uss.flatten.length := by
      rw [CodedInputStream.messageLimit, toNat_ofNat_uint32 hlt, if_pos]
      rw [hbody]
      show uss.flatten.length ≤ intMax - (m.position + _)
      unfold intMax
      omega
    have hshort : (uss.flatten.take k).length < (UInt32.ofNat uss.flatten.length).toNat := by
      rw [toNat_ofNat_uint32 hlt, List.length_take]
      omega
    -- what is there of the body is no envelope
    have hnone : Envelope.parseSized (UInt32.ofNat uss.flatten.length).toNat (uss.flatten.take k) =
        none := by
      rw [Envelope.parseSized_of_lt hshort, ← Option.not_isSome_iff_eq_none,
        Envelope.parseTorn_take_isSome hi he (Nat.le_of_lt hk)]
      exact hcut
    have hparse : ∃ cis, CodedInputStream.parseEnvelope ⟨uss.flatten.take k,
        (m.body uss.flatten.length).position, (m.body uss.flatten.length).limit⟩
        (UInt32.ofNat uss.flatten.length) = (none, cis) := by
      rw [CodedInputStream.parseEnvelope, hmessage]
      dsimp only
      split
      · exact ⟨_, rfl⟩
      · rw [Nat.add_sub_cancel_left, List.take_take, Nat.min_eq_right (Nat.le_of_lt hk), hnone]
        exact ⟨_, rfl⟩
    obtain ⟨cis, hparse⟩ := hparse
    exact ⟨_, _, hpeek.readEnvelope_none (ofNat_ne_zero (Nat.zero_lt_of_lt hk) hlt) hparse⟩
  · refine ⟨0, s, ?_⟩
    rw [InputStream.readEnvelope, h.nextEnvelopeSize_cut hnext hlt (Nat.lt_of_not_le hvarint)]
    rfl

/-- **A cut record is not read**. -/
theorem At.readEnvelope_unread {s : InputStream} {pos : Nat} {torn : Bytes} {m : Meter}
    (h : s.At pos torn m) (hnext : s.haveNextSize = false) (hm : m.Sound) (htorn : Unread torn) :
    ∃ n s', s.readEnvelope = (none, n, s') := by
  cases htorn with
  | length hlen hc => exact ⟨_, _, h.readEnvelope_cut_length hlen hc⟩
  | @body uss fs e k hi he hlen hk hcut =>
    rcases hm with hm | hm
    · -- a limit of `INT_MAX` does not cut a short record any further
      have hreadable : readable m uss.flatten.length k = k := by
        have hroom := (hm.room (Meter.le_maxBody hlen)).body_le
        have hlimit := (hm.room (Meter.le_maxBody hlen)).body_limit_le
        rw [readable]
        omega
      obtain ⟨o, n, s', hread, hsome, -⟩ := h.readEnvelope_torn hm hi he hk (by omega)
      rw [hreadable, ← not_iff_not] at hsome
      have hnone := hsome.mpr hcut
      rw [Option.not_isSome_iff_eq_none] at hnone
      rw [hnone] at hread
      exact ⟨n, s', hread⟩
    · exact h.readEnvelope_sought_torn hnext hm hi he hlen hk hcut

/-! ## Two files -/

/-- Records of envelopes, of the sizes that are counted right. -/
def Readable (bodies : List Bytes) : Prop :=
  ∀ body ∈ bodies, (∃ e, Envelope.parse body = some e) ∧ 0 < body.length ∧ body.length < 2 ^ 28

/-- Two streams in front of the same records; the file of the first one goes on behind them. -/
structure Twins (s s' : InputStream) (pos : Nat) (bodies : List Bytes) (torn : Bytes) : Prop where
  haveNextSize : s.haveNextSize = false ∧ s'.haveNextSize = false
  stands : ∃ m, s.At pos (records bodies ++ torn) m ∧ s'.At pos (records bodies) m ∧ m.Sound

theorem Twins.offset_eq {s s' : InputStream} {pos : Nat} {bodies : List Bytes} {torn : Bytes}
    (h : Twins s s' pos bodies torn) : s.offset = s'.offset := by
  obtain ⟨m, hat, hat', -⟩ := h.stands
  exact hat.offset_eq.trans hat'.offset_eq.symm

/-- **Step lemma**: they read the same. -/
theorem Twins.readEnvelope {s s' : InputStream} {pos : Nat} {bodies : List Bytes} {torn : Bytes}
    (h : Twins s s' pos bodies torn) (htorn : Unread torn) (hreadable : Readable bodies) :
    (∃ e size stream stream' pos' bodies', s.readEnvelope = (some e, size, stream) ∧
      s'.readEnvelope = (some e, size, stream') ∧ Twins stream stream' pos' bodies' torn ∧
      Readable bodies') ∨
    (∃ n n' stream stream', s.readEnvelope = (none, n, stream) ∧
      s'.readEnvelope = (none, n', stream') ∧ stream.offset = stream'.offset) := by
  obtain ⟨hnext, hnext'⟩ := h.haveNextSize
  obtain ⟨m, hat, hat', hm⟩ := h.stands
  have hoffset := h.offset_eq
  have hnone : (∃ n stream, s.readEnvelope = (none, n, stream)) →
      (∃ n stream, s'.readEnvelope = (none, n, stream)) →
      ∃ n n' stream stream', s.readEnvelope = (none, n, stream) ∧
        s'.readEnvelope = (none, n', stream') ∧ stream.offset = stream'.offset := by
    rintro ⟨n, stream, hread⟩ ⟨n', stream', hread'⟩
    refine ⟨n, n', stream, stream', hread, hread', ?_⟩
    rw [offset_of_readEnvelope_none hread, offset_of_readEnvelope_none hread', hoffset]
  cases bodies with
  | nil =>
    exact .inr (hnone (hat.readEnvelope_unread hnext hm htorn)
      ⟨_, _, hat'.readEnvelope_none progress_readVarint32⟩)
  | cons body bodies =>
    obtain ⟨⟨⟨e, he⟩, h0, hlen⟩, hbodies⟩ := List.forall_mem_cons.mp hreadable
    rw [records_cons, List.append_assoc] at hat
    rw [records_cons] at hat'
    by_cases hroom : m.Room body.length
    · obtain ⟨stream, hread, hstream, hn, -⟩ := hat.readEnvelope he h0 hroom
      obtain ⟨stream', hread', hstream', hn', -⟩ := hat'.readEnvelope he h0 hroom
      exact .inl ⟨e, _, stream, stream', _, bodies, hread, hread',
        ⟨⟨hn, hn'⟩, _, hstream, hstream', hm.next hlen hroom⟩, hbodies⟩
    · rcases hm with hm | hm
      · exact absurd (hm.room (Meter.le_maxBody hlen)) hroom
      · exact .inr (hnone (hat.readEnvelope_of_not_room hnext hm.default h0 hlen hroom)
          (hat'.readEnvelope_of_not_room hnext' hm.default h0 hlen hroom))

end InputStream

namespace RequestProcessor

open InputStream (Unread Twins Readable)

/-! ## Two segments -/

/-- Segments that are the same but for what is behind their streams. -/
structure Segment.Alike (g g' : Segment) : Prop where
  offset : g.stream.offset = g'.stream.offset
  output : g.output = g'.output
  bytesRead : g.bytesRead = g'.bytesRead
  envelopesRead : g.envelopesRead = g'.envelopesRead

theorem Segment.Alike.stop {g g' : Segment} (h : g.Alike g') : g.stop = g'.stop := by
  rw [Segment.stop, Segment.stop, h.offset, h.bytesRead, h.envelopesRead]

section

variable {pos : Nat} {bodies : List Bytes} {torn : Bytes}

/-- **Run lemma** of the loop. -/
theorem alike_getStreamLoop (htorn : Unread torn) (n : Nat) :
    ∀ {bytesLeft : UInt32} {g g' : Segment} {pos : Nat} {bodies : List Bytes},
      Twins g.stream g'.stream pos bodies torn → Readable bodies → g.Alike g' →
      (getStreamLoop n bytesLeft g).Alike (getStreamLoop n bytesLeft g') := by
  induction n with
  | zero => exact fun _ _ h => h
  | succ n ih =>
    intro bytesLeft g g' pos bodies htwins hreadable h
    rw [getStreamLoop_succ, getStreamLoop_succ]
    rcases htwins.readEnvelope htorn hreadable with
      ⟨e, size, stream, stream', pos', bodies', hread, hread', htwins', hreadable'⟩ |
      ⟨k, k', stream, stream', hread, hread', hoffset⟩
    · rw [hread, hread']
      have hnext : Segment.Alike ⟨stream, g.output ++ [e], g.bytesRead + size, g.envelopesRead + 1⟩
          ⟨stream', g'.output ++ [e], g'.bytesRead + size, g'.envelopesRead + 1⟩ := by
        refine ⟨htwins'.offset_eq, ?_, ?_, ?_⟩
        · exact congrArg (· ++ [e]) h.output
        · exact congrArg (· + size) h.bytesRead
        · exact congrArg (· + 1) h.envelopesRead
      dsimp only
      split
      · exact hnext
      · split
        · exact hnext
        · exact ih htwins' hreadable' hnext
    · rw [hread, hread']
      exact ⟨hoffset, h.output, h.bytesRead, h.envelopesRead⟩

/-- **Two files are answered alike**. -/
theorem sendSegment_twins (p : RequestProcessor) (request : Envelope) (get : GetStreamSegmentV1)
    {stream stream' : InputStream} (h : Twins stream stream' pos bodies torn)
    (htorn : Unread torn) (hreadable : Readable bodies) (t : Trace) :
    p.sendSegment request get stream t = p.sendSegment request get stream' t := by
  rcases h.readEnvelope htorn hreadable with
    ⟨e, size, next, next', pos', bodies', hread, hread', htwins, hreadable'⟩ |
    ⟨k, k', next, next', hread, hread', -⟩
  · have halike : (p.segment get e size next).Alike (p.segment get e size next') := by
      have hfirst : Segment.Alike ⟨next, [e], size, 1⟩ ⟨next', [e], size, 1⟩ :=
        ⟨htwins.offset_eq, rfl, rfl, rfl⟩
      unfold segment
      dsimp only
      split
      · exact alike_getStreamLoop htorn _ htwins hreadable' hfirst
      · exact hfirst
    rw [sendSegment_read request get t hread, sendSegment_read request get t hread', halike.stop,
      halike.output]
  · rw [sendSegment_none t ⟨k, next, hread⟩, sendSegment_none t ⟨k', next', hread'⟩]

/-- A file of a stream that ends inside a record. -/
theorem twins_ofFile (bodies : List Bytes) (torn : Bytes) :
    ∃ s s', InputStream.ofFile (some (streamFile bodies ++ torn)) 0 = .ok s ∧
      InputStream.ofFile (some (streamFile bodies)) 0 = .ok s' ∧
      Twins s s' 1 bodies torn ∧ s.file = streamFile bodies ++ torn ∧ s'.file = streamFile bodies ∧
      s.codedInputStreamReadBytes = 0 ∧ s'.codedInputStreamReadBytes = 0 := by
  obtain ⟨s, hopen, hat, hnext, hfile⟩ := InputStream.ofFile_at (records bodies ++ torn)
  obtain ⟨s', hopen', hat', hnext', hfile'⟩ := InputStream.ofFile_at (records bodies)
  exact ⟨s, s', hopen, hopen', ⟨⟨hnext, hnext'⟩, _, hat, hat', .inl InputStream.full_begin⟩, hfile,
    hfile', hat.readBytes_eq, hat'.readBytes_eq⟩

/-- **A cut record makes no difference**: a request at a record boundary is answered from a file
that ends inside a record as from the file up to there. -/
theorem processGetStream_torn {p : RequestProcessor} {store : Store} {request : Envelope}
    {get : GetStreamSegmentV1} {before rest : List Bytes}
    (hget : request.getMessage 0 = some (.getStreamSegmentV1 get))
    (hserves : p.Serves get.path (streamFile (before ++ rest) ++ torn))
    (hserves' : { p with store := store }.Serves get.path (streamFile (before ++ rest)))
    (hstart : Names get.startOffset before) (htorn : Unread torn) (hreadable : Readable rest)
    (hfile : (streamFile (before ++ rest)).length < 2 ^ 63) (t : Trace) :
    p.processGetStream request t = { p with store := store }.processGetStream request t := by
  obtain ⟨s, s', hopen, hopen', htwins, hcontent, hcontent', hcount, hcount'⟩ :=
    twins_ofFile (before ++ rest) torn
  have hstream := hserves.getInputStream
  have hstream' := hserves'.getInputStream
  rw [hopen] at hstream
  rw [hopen'] at hstream'
  rw [processGetStream, processGetStream, hget]
  simp only [checkPathThen, hserves.checkPath, hserves'.checkPath, hstream, hstream']
  -- from the beginning the stream is as it was opened, otherwise it seeks
  by_cases h0 : get.startOffset = 0
  · obtain rfl : before = [] := by
      rw [Names, h0, streamFile_length] at hstart
      rcases before with _ | ⟨body, bodies⟩
      · rfl
      · have hpos := record_length_pos body
        rw [records_cons, List.length_append] at hstart
        have hmax : max (0 : UInt64).toNat 1 = 1 := rfl
        omega
    rw [if_pos h0, if_pos h0, sendSegment_twins p request get htwins htorn hreadable]
    rfl
  · have hpos : get.startOffset.toNat = (streamFile before).length := by
      have h1 : 1 ≤ get.startOffset.toNat := by
        rcases Nat.eq_zero_or_pos get.startOffset.toNat with hz | hz
        · exact absurd (UInt64.toNat_inj.mp hz) h0
        · exact hz
      rw [Names] at hstart
      omega
    have hle : (streamFile before).length ≤ (streamFile (before ++ rest)).length := by
      rw [streamFile_append, List.length_append]
      exact Nat.le_add_right _ _
    have hoffset := toInt64_of_lt (n := get.startOffset) (by omega)
    rw [hpos] at hoffset
    have hdrop : s.file.drop (streamFile before).length = records rest ++ torn := by
      rw [hcontent, streamFile_append, List.append_assoc, List.drop_left]
    have hdrop' : s'.file.drop (streamFile before).length = records rest := by
      rw [hcontent', streamFile_append, List.drop_left]
    have hat := InputStream.at_soughtTo htwins.haveNextSize.1 (streamFile before).length
    have hat' := InputStream.at_soughtTo htwins.haveNextSize.2 (streamFile before).length
    rw [hdrop, hcount] at hat
    rw [hdrop', hcount'] at hat'
    have hsought : (Meter.sought 0).Sought := ⟨rfl, rfl, Nat.zero_le _⟩
    have htwins' : Twins (s.soughtTo (streamFile before).length)
        (s'.soughtTo (streamFile before).length) (streamFile before).length rest torn :=
      ⟨htwins.haveNextSize, _, hat, hat', .inr hsought⟩
    rw [if_neg h0, if_neg h0, hoffset, InputStream.setAbsoluteOffset_ofNat,
      InputStream.setAbsoluteOffset_ofNat]
    dsimp only
    rw [sendSegment_twins p request get htwins' htorn hreadable]
    rfl

/-- The same directories, and another file. -/
theorem Serves.replace {p : RequestProcessor} {path content : Bytes} (h : p.Serves path content)
    (content' : Bytes) : ∃ store, { p with store := store }.Serves path content' := by
  obtain ⟨bucket, set, stream, hparse, hb, hs, hn, hbucket, hset, -⟩ := h
  exact ⟨{ p.store with file := fun _ _ _ => some content' }, bucket, set, stream, hparse, hb, hs,
    hn, hbucket, hset, rfl⟩

theorem Limits.of_store {p : RequestProcessor} {get : GetStreamSegmentV1} (h : p.Limits get)
    (store : Store) : { p with store := store }.Limits get :=
  ⟨h.bytes, h.envelopes, h.responseBytes, h.responseEnvelopes⟩

/-- **Step lemma** for a file that ends inside a record. -/
theorem processGetStream_torn_or {p : RequestProcessor} {request : Envelope}
    {get : GetStreamSegmentV1} {before rest : List Bytes} {es : List Envelope}
    (hget : request.getMessage 0 = some (.getStreamSegmentV1 get)) (hlimits : p.Limits get)
    (hserves : p.Serves get.path (streamFile (before ++ rest) ++ torn))
    (hstart : Names get.startOffset before) (htorn : Unread torn) (hes : InputStream.Parses rest es)
    (hreadable : Readable rest) (hfile : (streamFile (before ++ rest)).length < 2 ^ 63)
    (t : Trace) :
    (∃ n stop, 1 ≤ n ∧ n ≤ rest.length ∧ Ends stop (streamFile before).length (rest.take n) ∧
      p.processGetStream request t = (.ok .authoritative,
        { t with output := t.output ++ p.segmentResponse request get (es.take n) stop })) ∨
    (p.processGetStream request t = (.ok .authoritative,
        p.populateErrorResponse .invalidStreamOffset
          (str "no envelopes found at requested stream offset") t) ∧
      ∀ body ∈ rest.head?, get.startOffset ≠ 0 ∧ 64 * 2 ^ 20 < (record body).length) := by
  obtain ⟨store, hclean⟩ := hserves.replace (streamFile (before ++ rest))
  rw [processGetStream_torn hget hserves hclean hstart htorn hreadable hfile]
  exact processGetStream_or hget (hlimits.of_store store) hclean hstart hes
    (fun body hbody => (hreadable body hbody).2) hfile t

end

end RequestProcessor

end Zippylog
