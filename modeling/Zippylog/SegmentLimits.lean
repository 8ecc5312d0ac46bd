import Zippylog.Budget
import Zippylog.Outcomes

/-!
# Limits of segments

How many records and bytes a segment carries, under the limits of the server and of the
client: the lesser of the two, and at least one record so that a reader gets on. The loop of
`ProcessGetStream` pushes a record and takes its size off the budget behind that, so the last one
need not be covered.

- `readUpTo`: the records that a stream has to read;
- `getStreamLoop_eq`: the loop of `ProcessGetStream` spends a budget on them;
- `output_segment_of_lt`: so does a segment, where its first record leaves room;
- `withinBytes_iff` and `withinEnvelopes_iff`: when the two limits are kept, for every content of a
  stream and all limits of 32 bits. The counter of envelopes is one too, and wraps at a limit of 0.
-/

namespace Zippylog

open Wire

namespace InputStream

/-! ## Records -/

/-- The envelopes of the next records, at most `n`, and the sizes in front of them. -/
def readUpTo : Nat → InputStream → List (Envelope × UInt32)
  | 0, _ => []
  | n + 1, s =>
    match s.readEnvelope with
    | (none, _, _) => []
    | (some e, _, s') => (e, s.nextEnvelopeSize.1) :: readUpTo n s'

/-- The size of a record, with that of its length. -/
def encodedSize (r : Envelope × UInt32) : Nat := (encodeVarint r.2.toNat).length + r.2.toNat

/-- The size of a record as `ReadEnvelope` counts it. -/
def countedSize (r : Envelope × UInt32) : Nat := (bytesRead r.2).toNat

theorem readUpTo_of_none {s s' : InputStream} {k : UInt32} (h : s.readEnvelope = (none, k, s'))
    (n : Nat) : s.readUpTo n = [] := by
  cases n with
  | zero => rfl
  | succ n => rw [readUpTo, h]

theorem readUpTo_of_some {s s' : InputStream} {e : Envelope} {k : UInt32}
    (h : s.readEnvelope = (some e, k, s')) (n : Nat) :
    s.readUpTo (n + 1) = (e, s.nextEnvelopeSize.1) :: s'.readUpTo n := by
  rw [readUpTo, h]

/-- No more records are read than are asked for. -/
theorem length_readUpTo_le (n : Nat) : ∀ s : InputStream, (s.readUpTo n).length ≤ n := by
  induction n with
  | zero => exact fun _ => Nat.le_refl 0
  | succ n ih =>
    intro s
    rcases h : s.readEnvelope with ⟨_ | e, k, s'⟩
    · rw [readUpTo_of_none h]
      exact Nat.zero_le _
    · rw [readUpTo_of_some h]
      exact Nat.succ_le_succ (ih s')

/-- Fewer records are the first of more. -/
theorem readUpTo_eq_take {k n : Nat} (h : k ≤ n) :
    ∀ s : InputStream, s.readUpTo k = (s.readUpTo n).take k := by
  induction k generalizing n with
  | zero => exact fun _ => rfl
  | succ k ih =>
    intro s
    obtain ⟨n, rfl⟩ := Nat.exists_eq_add_of_le' (Nat.le_trans (Nat.succ_le_succ k.zero_le) h)
    rcases hread : s.readEnvelope with ⟨_ | e, m, s'⟩
    · rw [readUpTo_of_none hread, readUpTo_of_none hread, List.take_nil]
    · rw [readUpTo_of_some hread, readUpTo_of_some hread, List.take_succ_cons,
        ih (Nat.le_of_succ_le_succ h)]

/-- `ReadEnvelope` counts by the size in front of the record. -/
theorem size_of_readEnvelope {s s' : InputStream} {e : Envelope} {k : UInt32}
    (h : s.readEnvelope = (some e, k, s')) : k = bytesRead s.nextEnvelopeSize.1 := by
  rw [readEnvelope] at h
  simp only at h
  split_ifs at h
  · cases h
  · split at h
    · cases h
    · cases h
      rfl

theorem countedSize_of_readEnvelope {s s' : InputStream} {e : Envelope} {k : UInt32}
    (h : s.readEnvelope = (some e, k, s')) : countedSize (e, s.nextEnvelopeSize.1) = k.toNat :=
  congrArg UInt32.toNat (size_of_readEnvelope h).symm

/-- It never counts more than there is. -/
theorem countedSize_le (r : Envelope × UInt32) : countedSize r ≤ encodedSize r := by
  have hmod : ∀ k : UInt32, (r.2 + k).toNat ≤ r.2.toNat + k.toNat := by
    intro k
    rw [UInt32.toNat_add]
    exact Nat.mod_le _ _
  unfold countedSize encodedSize bytesRead
  split_ifs with h1 h2 h3
  · have hlength := encodeVarint_length_pos r.2.toNat
    exact Nat.le_trans (hmod 1) (by rw [show (1 : UInt32).toNat = 1 from rfl]; omega)
  · have hlarge : 128 ^ 1 ≤ r.2.toNat := UInt32.lt_iff_toNat_lt.mp (UInt32.not_le.mp h1)
    have hlength := lt_encodeVarint_length hlarge
    exact Nat.le_trans (hmod 2) (by rw [show (2 : UInt32).toNat = 2 from rfl]; omega)
  · have hlarge : 128 ^ 2 ≤ r.2.toNat := UInt32.lt_iff_toNat_lt.mp (UInt32.not_le.mp h2)
    have hlength := lt_encodeVarint_length hlarge
    exact Nat.le_trans (hmod 3) (by rw [show (3 : UInt32).toNat = 3 from rfl]; omega)
  · have hlarge : 128 ^ 3 ≤ r.2.toNat := UInt32.lt_iff_toNat_lt.mp (UInt32.not_le.mp h3)
    have hlength := lt_encodeVarint_length hlarge
    exact Nat.le_trans (hmod 4) (by rw [show (4 : UInt32).toNat = 4 from rfl]; omega)

end InputStream

namespace RequestProcessor

open InputStream

/-! ## What a segment carries -/

/-- A limit of the server, or that of the client where it is lower. -/
def limit (server : UInt32) (client : Option UInt32) : Nat :=
  match client with
  | some n => min server.toNat n.toNat
  | none => server.toNat

theorem toNat_lowerLimit (server : UInt32) (client : Option UInt32) :
    (lowerLimit server client).toNat = limit server client := by
  cases client with
  | none => rfl
  | some n =>
    show (if n < server then n else server).toNat = min server.toNat n.toNat
    split_ifs with h <;> rw [UInt32.lt_iff_toNat_lt] at h <;> omega

/-- The bytes that a segment may have. -/
def byteLimit (p : RequestProcessor) (get : GetStreamSegmentV1) : Nat :=
  limit p.getStreamMaxBytes get.maxResponseBytes

/-- The envelopes that a segment may have. -/
def envelopeLimit (p : RequestProcessor) (get : GetStreamSegmentV1) : Nat :=
  limit p.getStreamMaxEnvelopes get.maxResponseEnvelopes

/-- How many envelopes `envelopes_left` lets through: it is lowered once before it is
looked at. -/
def passes (p : RequestProcessor) (get : GetStreamSegmentV1) : Nat :=
  (lowerLimit p.getStreamMaxEnvelopes get.maxResponseEnvelopes - 1).toNat + 1

theorem passes_of_pos {p : RequestProcessor} {get : GetStreamSegmentV1}
    (h : p.envelopeLimit get ≠ 0) : p.passes get = p.envelopeLimit get := by
  unfold envelopeLimit at *
  rw [← toNat_lowerLimit] at *
  have hle : (1 : UInt32) ≤ lowerLimit p.getStreamMaxEnvelopes get.maxResponseEnvelopes :=
    UInt32.le_iff_toNat_le.mpr (Nat.one_le_iff_ne_zero.mpr h)
  have hone : (1 : UInt32).toNat = 1 := rfl
  rw [passes, UInt32.toNat_sub_of_le _ _ hle, hone]
  omega

theorem passes_of_zero {p : RequestProcessor} {get : GetStreamSegmentV1}
    (h : p.envelopeLimit get = 0) : p.passes get = 2 ^ 32 := by
  rw [envelopeLimit, ← toNat_lowerLimit] at h
  have hzero : lowerLimit p.getStreamMaxEnvelopes get.maxResponseEnvelopes = 0 :=
    UInt32.toNat_inj.mp h
  rw [passes, hzero]
  rfl

/-- **Run lemma** of the loop: it spends `bytes_left` on the next records. -/
theorem getStreamLoop_eq (n : Nat) : ∀ (bytesLeft : UInt32) (g : Segment),
    (getStreamLoop n bytesLeft g).output = g.output ++
      (Budget.spend countedSize n bytesLeft.toNat (g.stream.readUpTo n)).map Prod.fst := by
  induction n with
  | zero =>
    intro bytesLeft g
    rw [Budget.spend_zero, List.map_nil, List.append_nil]
    rfl
  | succ n ih =>
    intro bytesLeft g
    rw [getStreamLoop_succ]
    rcases hread : g.stream.readEnvelope with ⟨_ | e, size, stream⟩
    · rw [readUpTo_of_none hread, Budget.spend_nil, List.map_nil, List.append_nil]
    · have hsize := countedSize_of_readEnvelope hread
      rw [readUpTo_of_some hread, Budget.spend_cons, hsize]
      simp only [UInt32.lt_iff_toNat_lt]
      split_ifs with hover hlast
      · rfl
      · subst hlast
        rw [Budget.spend_zero]
        rfl
      · have hle : size ≤ bytesLeft := UInt32.le_iff_toNat_le.mpr (Nat.le_of_not_lt hover)
        rw [ih, UInt32.toNat_sub_of_le _ _ hle, List.map_cons, ← List.append_cons]

/-- The loop can subtract every size from `bytes_left` and add it to `bytes_read`. -/
def LoopExact : Nat → UInt32 → Segment → Prop
  | 0, _, _ => True
  | envelopesLeft + 1, bytesLeft, g =>
    match g.stream.readEnvelope with
    | (none, _, _) => True
    | (some env, size, stream) =>
      g.bytesRead.toNat + size.toNat < 2 ^ 32 ∧
        (¬ bytesLeft < size → envelopesLeft ≠ 0 →
          size.toNat ≤ bytesLeft.toNat ∧ LoopExact envelopesLeft (bytesLeft - size)
            ⟨stream, g.output ++ [env], g.bytesRead + size, g.envelopesRead + 1⟩)

/-- **Run lemma** of the loop: its counts are exact while their sum is one. -/
theorem loopExact_of_lt (n : Nat) : ∀ (bytesLeft : UInt32) (g : Segment),
    g.bytesRead.toNat +
      ((Budget.spend countedSize n bytesLeft.toNat (g.stream.readUpTo n)).map countedSize).sum <
        2 ^ 32 →
    LoopExact n bytesLeft g := by
  induction n with
  | zero => exact fun _ _ _ => trivial
  | succ n ih =>
    intro bytesLeft g h
    rw [LoopExact]
    rcases hread : g.stream.readEnvelope with ⟨_ | e, size, stream⟩
    · trivial
    have hsize := countedSize_of_readEnvelope hread
    rw [readUpTo_of_some hread, Budget.spend_cons, hsize] at h
    split_ifs at h with hover
    · rw [List.map_singleton, List.sum_singleton, hsize] at h
      exact ⟨h, fun hfits => absurd (UInt32.lt_iff_toNat_lt.mpr hover) hfits⟩
    · rw [List.map_cons, List.sum_cons, hsize] at h
      have hle : size ≤ bytesLeft := UInt32.le_iff_toNat_le.mpr (Nat.le_of_not_lt hover)
      have hread' : (g.bytesRead + size).toNat = g.bytesRead.toNat + size.toNat := by
        rw [UInt32.toNat_add, Nat.mod_eq_of_lt (by omega)]
      refine ⟨by omega, fun _ _ => ⟨Nat.le_of_not_lt hover, ih _ _ ?_⟩⟩
      rw [UInt32.toNat_sub_of_le _ _ hle]
      dsimp only
      omega

/-- What is carried where the first record is smaller than the byte limit. -/
theorem output_segment_of_lt {p : RequestProcessor} {get : GetStreamSegmentV1}
    {stream s' : InputStream} {e : Envelope} {size : UInt32}
    (hread : stream.readEnvelope = (some e, size, s')) (hlt : size.toNat < p.byteLimit get) :
    (p.segment get e size s').output =
      (Budget.spend countedSize (p.passes get) (p.byteLimit get)
        (stream.readUpTo (p.passes get))).map Prod.fst := by
  have hsize := countedSize_of_readEnvelope hread
  have hnot : ¬ p.byteLimit get < size.toNat := Nat.not_lt_of_gt hlt
  rw [passes, readUpTo_of_some hread, Budget.spend_cons, hsize, if_neg hnot, List.map_cons, segment]
  rw [byteLimit, ← toNat_lowerLimit, ← UInt32.lt_iff_toNat_lt] at hlt
  split_ifs with hroom
  · rw [getStreamLoop_eq, UInt32.toNat_sub_of_le _ _ (UInt32.le_of_lt hlt), toNat_lowerLimit]
    rfl
  · -- the counter is used up
    rw [Decidable.not_and_iff_not_or_not] at hroom
    have hzero := Decidable.not_not.mp (hroom.resolve_left (not_not_intro hlt))
    rw [hzero]
    exact congrArg (e :: ·.map Prod.fst) (Budget.spend_zero countedSize _ _).symm

/-- Otherwise the first record is all that is carried. -/
theorem output_segment_of_not_lt {p : RequestProcessor} {get : GetStreamSegmentV1}
    {s' : InputStream} {e : Envelope} {size : UInt32} (h : ¬ size.toNat < p.byteLimit get) :
    (p.segment get e size s').output = [e] := by
  rw [byteLimit, ← toNat_lowerLimit, ← UInt32.lt_iff_toNat_lt] at h
  rw [segment]
  exact congrArg Segment.output (if_neg fun hroom => h hroom.1)

theorem Opens.unique {p : RequestProcessor} {get : GetStreamSegmentV1} {s s' : InputStream}
    (h : p.Opens get s) (h' : p.Opens get s') : s = s' := by
  obtain ⟨content, t, hserves, hopen, hoffset⟩ := h
  obtain ⟨content', t', hserves', hopen', hoffset'⟩ := h'
  have heq := hserves.getInputStream.symm.trans hserves'.getInputStream
  rw [hopen, hopen'] at heq
  cases heq
  exact Except.ok.inj (hoffset.symm.trans hoffset')

/-- A response with a segment is the one of the stream that was opened. -/
theorem segment_of_output {p : RequestProcessor} {request : Envelope} {get : GetStreamSegmentV1}
    (hm : request.getMessage 0 = some (.getStreamSegmentV1 get)) {payload : List Envelope}
    {stop : StreamSegmentEndV1}
    (h : (p.processGetStream request {}).2.output = p.segmentResponse request get payload stop) :
    ∃ stream e size s', p.Opens get stream ∧ stream.readEnvelope = (some e, size, s') ∧
      payload = (p.segment get e size s').output := by
  by_cases hhas : p.HasEnvelope get
  · obtain ⟨stream, e, size, s', hopens, hread⟩ := hhas
    rw [hopens.segment hread hm] at h
    exact ⟨stream, e, size, s', hopens, hread, (segmentResponse_injective h).1.symm⟩
  · have hplain : p.Plain (p.processGetStream request {}) := by
      refine plain_processGetStream rfl ?_
      rintro ⟨get', hm', hhas'⟩
      rw [hm] at hm'
      cases hm'
      exact hhas hhas'
    have hlength : 2 ≤ (p.segmentResponse request get payload stop).length := by
      rw [segmentResponse, List.length_append, List.length_cons, List.length_singleton]
      omega
    rw [← h] at hlength
    rcases hplain with hnil | ⟨-, m, hone⟩
    · rw [hnil] at hlength
      cases hlength
    · rw [hone] at hlength
      exact absurd hlength (Nat.not_succ_le_self 1)

/-! ## The byte limit -/

/-- The records of a segment are the next ones, and where they are more than one, they
are within the byte limit. -/
def SumWithin (p : RequestProcessor) (request : Envelope) (get : GetStreamSegmentV1) : Prop :=
  ∀ stream payload stop, p.Opens get stream →
    (p.processGetStream request {}).2.output = p.segmentResponse request get payload stop →
    payload = (stream.readUpTo payload.length).map Prod.fst ∧
      (1 < payload.length →
        ((stream.readUpTo payload.length).map encodedSize).sum ≤ p.byteLimit get)

/-- `bytes_left` and `bytes_read` do not wrap. -/
def BytesExact (p : RequestProcessor) (get : GetStreamSegmentV1) : Prop :=
  ∀ stream e size s', p.Opens get stream → stream.readEnvelope = (some e, size, s') →
    let bytesLeft := lowerLimit p.getStreamMaxBytes get.maxResponseBytes
    let envelopesLeft := lowerLimit p.getStreamMaxEnvelopes get.maxResponseEnvelopes - 1
    size < bytesLeft ∧ envelopesLeft ≠ 0 →
      size.toNat ≤ bytesLeft.toNat ∧
        LoopExact envelopesLeft.toNat (bytesLeft - size) ⟨s', [e], size, 1⟩

/-- `envelopes_left` does not wrap: it is lowered by one once a record was read, and in
the loop it is not zero. -/
def EnvelopesExact (p : RequestProcessor) (get : GetStreamSegmentV1) : Prop :=
  p.HasEnvelope get →
    1 ≤ (lowerLimit p.getStreamMaxEnvelopes get.maxResponseEnvelopes).toNat

/-- **The byte limit of a segment**, and the arithmetic that sees to it. -/
structure WithinBytes (p : RequestProcessor) (request : Envelope) (get : GetStreamSegmentV1) :
    Prop where
  sumWithin : p.SumWithin request get
  bytesExact : p.BytesExact get

/-- The first record is smaller than the byte limit, and all that `envelopes_left` lets
through are larger. -/
def Overruns (p : RequestProcessor) (get : GetStreamSegmentV1) : Prop :=
  ∃ stream r rs, p.Opens get stream ∧ stream.readUpTo (p.passes get) = r :: rs ∧ rs ≠ [] ∧
    countedSize r < p.byteLimit get ∧
    p.byteLimit get < ((stream.readUpTo (p.passes get)).map encodedSize).sum

/-- What was spent is what was read. -/
theorem spend_eq_readUpTo (n left : Nat) (s : InputStream) :
    Budget.spend countedSize n left (s.readUpTo n) =
      s.readUpTo (Budget.spend countedSize n left (s.readUpTo n)).length := by
  have hlength := Budget.length_spend_le countedSize n left (s.readUpTo n)
  rw [readUpTo_eq_take hlength]
  exact List.prefix_iff_eq_take.mp (Budget.spend_prefix countedSize n left (s.readUpTo n))

/-- The records of a segment, by whether there can be more than one. -/
theorem records_segment {p : RequestProcessor} {get : GetStreamSegmentV1}
    {stream s' : InputStream} {e : Envelope} {size : UInt32}
    (hread : stream.readEnvelope = (some e, size, s')) :
    ∃ records, (p.segment get e size s').output = records.map Prod.fst ∧
      records = stream.readUpTo records.length ∧
      (size.toNat < p.byteLimit get ∧
          records = Budget.spend countedSize (p.passes get) (p.byteLimit get)
            (stream.readUpTo (p.passes get)) ∨
        ¬ size.toNat < p.byteLimit get ∧ records.length = 1) := by
  by_cases hlt : size.toNat < p.byteLimit get
  · exact ⟨_, output_segment_of_lt hread hlt, spend_eq_readUpTo _ _ _, Or.inl ⟨hlt, rfl⟩⟩
  · refine ⟨[(e, stream.nextEnvelopeSize.1)], output_segment_of_not_lt hlt, ?_,
      Or.inr ⟨hlt, rfl⟩⟩
    exact (readUpTo_of_some hread 0).symm

/-- More than one record is sent exactly where the first leaves room and more are let
through. -/
theorem one_lt_length_segment_iff {p : RequestProcessor} {get : GetStreamSegmentV1}
    {stream s' : InputStream} {e : Envelope} {size : UInt32}
    (hread : stream.readEnvelope = (some e, size, s')) :
    1 < (p.segment get e size s').output.length ↔
      size.toNat < p.byteLimit get ∧ s'.readUpTo (p.passes get - 1) ≠ [] := by
  by_cases hlt : size.toNat < p.byteLimit get
  · have hsize := countedSize_of_readEnvelope hread
    have hpasses : p.passes get = p.passes get - 1 + 1 := rfl
    rw [output_segment_of_lt hread hlt, List.length_map, hpasses, readUpTo_of_some hread,
      Budget.spend_cons, hsize, if_neg (Nat.not_lt_of_gt hlt), List.length_cons,
      Nat.lt_add_left_iff_pos, List.length_pos_iff, Budget.spend_ne_nil_iff, Nat.add_sub_cancel]
    refine ⟨fun h => ⟨hlt, h.2⟩, fun h => ⟨?_, h.2⟩⟩
    intro hzero
    rw [hzero] at h
    exact h.2 rfl
  · rw [output_segment_of_not_lt hlt]
    exact iff_of_false (Nat.lt_irrefl 1) fun h => hlt h.1

/-- Where the records that are let through are not too long together, the limit is kept. -/
theorem sumWithin_of_not_overruns {p : RequestProcessor} {request : Envelope}
    {get : GetStreamSegmentV1} (hm : request.getMessage 0 = some (.getStreamSegmentV1 get))
    (h : ¬ p.Overruns get) : p.SumWithin request get := by
  intro stream payload stop hopens houtput
  obtain ⟨stream', e, size, s', hopens', hread, rfl⟩ := segment_of_output hm houtput
  obtain rfl := hopens.unique hopens'
  obtain ⟨records, hpayload, hnext, hcase⟩ := @records_segment p get _ _ _ _ hread
  rw [hpayload, List.length_map, ← hnext]
  refine ⟨rfl, fun hmore => ?_⟩
  rcases hcase with ⟨hlt, rfl⟩ | ⟨-, hone⟩
  swap
  · exact absurd hone (Nat.ne_of_gt hmore)
  rw [Budget.sum_spend_le_iff countedSize countedSize_le _ _ (Nat.le_refl _),
    List.take_of_length_le (length_readUpTo_le _ _)]
  by_contra hover
  have hpasses : p.passes get = p.passes get - 1 + 1 := rfl
  have hall := readUpTo_of_some hread (p.passes get - 1)
  rw [← hpasses] at hall
  refine h ⟨stream, _, _, hopens, hall, ?_, ?_, Nat.lt_of_not_le hover⟩
  · rw [← @List.length_map _ _ _ Prod.fst, ← hpayload] at hmore
    exact ((one_lt_length_segment_iff hread).mp hmore).2
  · exact (countedSize_of_readEnvelope hread).trans_lt hlt

/-- And the count of bytes is the bytes that are sent. -/
theorem bytesExact_of_not_overruns {p : RequestProcessor} {get : GetStreamSegmentV1}
    (h : ¬ p.Overruns get) : p.BytesExact get := by
  rintro stream e size s' hopens hread bytesLeft envelopesLeft ⟨hlt, -⟩
  have hle := UInt32.le_of_lt hlt
  have hbytes : bytesLeft.toNat = p.byteLimit get := toNat_lowerLimit _ _
  have hsize := countedSize_of_readEnvelope hread
  refine ⟨UInt32.le_iff_toNat_le.mp hle, loopExact_of_lt _ _ _ ?_⟩
  -- what is spent is no more than all there is, and that is within the limit
  refine Nat.lt_of_le_of_lt (Nat.add_le_add_left (Budget.sum_spend_le _ _ _ _ _) _) ?_
  have hall := readUpTo_of_some hread envelopesLeft.toNat
  by_cases hnil : s'.readUpTo envelopesLeft.toNat = []
  · rw [hnil]
    exact size.toNat_lt
  · have hwithin : ((stream.readUpTo (p.passes get)).map encodedSize).sum ≤ p.byteLimit get := by
      by_contra hover
      refine h ⟨stream, _, _, hopens, hall, hnil, ?_, Nat.lt_of_not_le hover⟩
      rw [hsize, ← hbytes]
      exact UInt32.lt_iff_toNat_lt.mp hlt
    have hcounted : ((stream.readUpTo (p.passes get)).map countedSize).sum ≤
        ((stream.readUpTo (p.passes get)).map encodedSize).sum :=
      List.sum_le_sum fun r _ => countedSize_le r
    rw [show stream.readUpTo (p.passes get) = _ from hall, List.map_cons, List.sum_cons, hsize]
      at hcounted
    rw [show stream.readUpTo (p.passes get) = _ from hall] at hwithin
    have hlimit := bytesLeft.toNat_lt
    dsimp only
    omega

/-- A segment that keeps its limit has all that was let through: the loop ends at the limit only
behind the record that reaches it. -/
theorem not_overruns_of_sumWithin {p : RequestProcessor} {request : Envelope}
    {get : GetStreamSegmentV1} (hm : request.getMessage 0 = some (.getStreamSegmentV1 get))
    (h : p.SumWithin request get) : ¬ p.Overruns get := by
  rintro ⟨stream, r, rs, hopens, hall, hrs, hlt, hover⟩
  rcases hread : stream.readEnvelope with ⟨_ | e, size, s'⟩
  · rw [readUpTo_of_none hread] at hall
    cases hall
  have hpasses : p.passes get = p.passes get - 1 + 1 := rfl
  obtain ⟨rfl, htail⟩ : (e, stream.nextEnvelopeSize.1) = r ∧
      s'.readUpTo (p.passes get - 1) = rs := by
    rw [hpasses, readUpTo_of_some hread] at hall
    exact List.cons.inj hall
  have hsize := countedSize_of_readEnvelope hread
  rw [hsize] at hlt
  -- the loop is entered and takes a record
  have houtput := output_segment_of_lt hread hlt
  have hmore := (one_lt_length_segment_iff hread).mpr ⟨hlt, by rwa [htail]⟩
  have hsent : (p.processGetStream request {}).2.output = p.segmentResponse request get
      (p.segment get e size s').output (p.segment get e size s').stop := by
    rw [hopens.segment hread hm]
    rfl
  obtain ⟨-, hsum⟩ := h stream _ _ hopens hsent
  rw [houtput, List.length_map] at hmore
  rw [houtput, List.length_map, ← spend_eq_readUpTo,
    Budget.sum_spend_le_iff countedSize countedSize_le _ _ (Nat.le_refl _),
    List.take_of_length_le (length_readUpTo_le _ _)] at hsum
  exact absurd (hsum hmore) (Nat.not_le_of_gt hover)

/-- **The byte limit of a segment** is kept exactly where the records let through do not overrun it,
and `envelopes_left` is exact where its limit is not zero. The content of the stream, the offset and
the limits of both sides are any. -/
theorem withinBytes_iff {p : RequestProcessor} {request : Envelope} {get : GetStreamSegmentV1}
    (hm : request.getMessage 0 = some (.getStreamSegmentV1 get)) :
    (p.WithinBytes request get ↔ ¬ p.Overruns get) ∧
      (p.EnvelopesExact get ↔ (p.HasEnvelope get → p.envelopeLimit get ≠ 0)) := by
  refine ⟨⟨fun h => not_overruns_of_sumWithin hm h.sumWithin, fun h => ?_⟩, ?_⟩
  · exact ⟨sumWithin_of_not_overruns hm h, bytesExact_of_not_overruns h⟩
  · rw [EnvelopesExact, toNat_lowerLimit]
    exact imp_congr_right fun _ => Nat.one_le_iff_ne_zero

/-- A request for one envelope is kept to it. -/
theorem withinBytes_one :
    (deferring [1, 2, 40, 5, 2, 40, 6]).WithinBytes
      (Envelope.ofMessage 0
        (.getStreamSegmentV1 { wholeStream with maxResponseEnvelopes := some 1 }))
      { wholeStream with maxResponseEnvelopes := some 1 } := by
  refine (withinBytes_iff (by decide +kernel)).1.mpr ?_
  rintro ⟨stream, r, rs, -, hall, hrs, -⟩
  have hlength := length_readUpTo_le
    ((deferring [1, 2, 40, 5, 2, 40, 6]).passes { wholeStream with maxResponseEnvelopes := some 1 })
    stream
  rw [hall, List.length_cons] at hlength
  have hpasses : (deferring [1, 2, 40, 5, 2, 40, 6]).passes
      { wholeStream with maxResponseEnvelopes := some 1 } = 1 := by decide +kernel
  exact hrs (List.length_eq_zero_iff.mp (by omega))

/-- A stream with two records of three bytes. -/
theorem readUpTo_two_records :
    ∃ stream, InputStream.ofFile (some [1, 2, 40, 5, 2, 40, 6]) 0 = .ok stream ∧
      stream.readUpTo 1024 = [(Envelope.new 5, 2), (Envelope.new 6, 2)] := by
  obtain ⟨stream, hopen, -⟩ := InputStream.ofFile_at [2, 40, 5, 2, 40, 6]
  have hread : (InputStream.ofFile (some [1, 2, 40, 5, 2, 40, 6]) 0).toOption.map
      (·.readUpTo 1024) = some [(Envelope.new 5, 2), (Envelope.new 6, 2)] := by
    decide +kernel
  rw [hopen] at hread
  exact ⟨stream, hopen, Option.some.inj hread⟩

/-- They are sent under a limit of four bytes. -/
theorem not_withinBytes_four :
    ¬ { deferring [1, 2, 40, 5, 2, 40, 6] with getStreamMaxBytes := 4 }.WithinBytes getStream
      wholeStream := by
  intro h
  obtain ⟨stream, hopen, hread⟩ := readUpTo_two_records
  refine not_overruns_of_sumWithin (by decide +kernel) h.sumWithin ⟨stream, _, _,
    ⟨_, stream, ⟨str "bucket", str "set", str "stream", by decide +kernel⟩, hopen, rfl⟩,
    hread, List.cons_ne_nil _ _, by decide +kernel, ?_⟩
  show _ < ((stream.readUpTo 1024).map encodedSize).sum
  rw [hread]
  decide +kernel

/-! ## The envelope limit -/

/-- **The envelope limit of a segment**: it has no more than that, or one. -/
def WithinEnvelopes (p : RequestProcessor) (request : Envelope) (get : GetStreamSegmentV1) : Prop :=
  ∀ payload stop,
    (p.processGetStream request {}).2.output = p.segmentResponse request get payload stop →
    payload.length ≤ max 1 (p.envelopeLimit get)

/-- No envelope may be sent, so the counter wraps, and there are two records to send of which
the first is smaller than the byte limit. -/
def Unbounded (p : RequestProcessor) (get : GetStreamSegmentV1) : Prop :=
  p.envelopeLimit get = 0 ∧ ∃ stream r r', p.Opens get stream ∧ stream.readUpTo 2 = [r, r'] ∧
    countedSize r < p.byteLimit get

/-- A segment has at most as many envelopes as `envelopes_left` lets through. -/
theorem length_segment_le {p : RequestProcessor} {get : GetStreamSegmentV1}
    {stream s' : InputStream} {e : Envelope} {size : UInt32}
    (hread : stream.readEnvelope = (some e, size, s')) :
    (p.segment get e size s').output.length ≤ p.passes get := by
  obtain ⟨records, houtput, -, hcase⟩ := @records_segment p get _ _ _ _ hread
  rw [houtput, List.length_map]
  rcases hcase with ⟨-, rfl⟩ | ⟨-, hone⟩
  · exact Budget.length_spend_le _ _ _ _
  · rw [hone]
    exact Nat.succ_le_succ (Nat.zero_le _)

/-- Two records are there exactly where more than one of many are. -/
theorem readUpTo_two_iff {s s' : InputStream} {e : Envelope} {size : UInt32}
    (hread : s.readEnvelope = (some e, size, s')) {n : Nat} (hn : 1 ≤ n) :
    (∃ r', s.readUpTo 2 = [(e, s.nextEnvelopeSize.1), r']) ↔ s'.readUpTo n ≠ [] := by
  rw [readUpTo_of_some hread, readUpTo_eq_take hn]
  cases hall : s'.readUpTo n with
  | nil => exact iff_of_false (fun ⟨_, h⟩ => nomatch (List.cons.inj h).2) fun h => h rfl
  | cons r rs => exact iff_of_true ⟨r, rfl⟩ (List.cons_ne_nil r rs)

/-- **The envelope limit of a segment** is kept exactly where its counter does not wrap in front of
two records: where the limit is not 0, or there are not two records at the offset, or the first of
them uses up the bytes. -/
theorem withinEnvelopes_iff {p : RequestProcessor} {request : Envelope} {get : GetStreamSegmentV1}
    (hm : request.getMessage 0 = some (.getStreamSegmentV1 get)) :
    p.WithinEnvelopes request get ↔ ¬ p.Unbounded get := by
  constructor
  · rintro h ⟨hzero, stream, r, r', hopens, htwo, hlt⟩
    have hmany : 1 ≤ p.passes get - 1 := by
      rw [passes_of_zero hzero]
      decide
    rcases hread : stream.readEnvelope with ⟨_ | e, size, s'⟩
    · rw [readUpTo_of_none hread] at htwo
      cases htwo
    obtain rfl : (e, stream.nextEnvelopeSize.1) = r := by
      rw [readUpTo_of_some hread] at htwo
      exact (List.cons.inj htwo).1
    have hsize := countedSize_of_readEnvelope hread
    have hmore := (one_lt_length_segment_iff hread).mpr
      ⟨hsize.symm.trans_lt hlt, (readUpTo_two_iff hread hmany).mp ⟨r', htwo⟩⟩
    have hle := h (p.segment get e size s').output (p.segment get e size s').stop (by
      rw [hopens.segment hread hm]
      rfl)
    rw [hzero] at hle
    exact absurd hle (Nat.not_le_of_gt hmore)
  · intro h payload stop houtput
    obtain ⟨stream, e, size, s', hopens, hread, rfl⟩ := segment_of_output hm houtput
    by_cases hzero : p.envelopeLimit get = 0
    · have hmany : 1 ≤ p.passes get - 1 := by
        rw [passes_of_zero hzero]
        decide
      by_contra hover
      rw [hzero] at hover
      obtain ⟨hlt, hmore⟩ := (one_lt_length_segment_iff hread).mp (Nat.lt_of_not_le hover)
      obtain ⟨r', htwo⟩ := (readUpTo_two_iff hread hmany).mpr hmore
      have hsize := countedSize_of_readEnvelope hread
      exact h ⟨hzero, stream, _, r', hopens, htwo, hsize.trans_lt hlt⟩
    · calc (p.segment get e size s').output.length ≤ p.passes get := length_segment_le hread
        _ = p.envelopeLimit get := passes_of_pos hzero
        _ ≤ max 1 (p.envelopeLimit get) := Nat.le_max_right _ _

/-- The server of the tests keeps its limit. -/
theorem withinEnvelopes_getStream :
    (deferring [1, 2, 40, 5, 2, 40, 6]).WithinEnvelopes getStream wholeStream := by
  refine (withinEnvelopes_iff (by decide +kernel)).mpr ?_
  rintro ⟨hzero, -⟩
  exact absurd hzero (by decide +kernel)

/-- Two records are sent under a limit of no envelope. -/
theorem not_withinEnvelopes_zero :
    ¬ { deferring [1, 2, 40, 5, 2, 40, 6] with getStreamMaxEnvelopes := 0 }.WithinEnvelopes
      getStream wholeStream := by
  intro h
  have hle := h [Envelope.new 5, Envelope.new 6] ⟨7, 6, 2⟩ (by decide +kernel)
  exact absurd hle (by decide +kernel)

end RequestProcessor

end Zippylog
