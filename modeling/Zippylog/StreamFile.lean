import Zippylog.StreamProof

/-!
# Stream files

A stream file is the version byte and a log of records (`streamFile`), each the length of an
envelope's serialisation as a varint and the serialisation. A writer appends to a file that is there
already or not, through a buffer of the library that is written out when it is full, when the stream
is flushed, and when it is destroyed. Here the writer and the reader meet:

- `FileOutputStream.Holds` is the writer's invariant: the file and the buffer
  together are a stream file, however they are divided. The file alone is what a
  crash leaves, a stream file cut short (`Holds.file_eq_take`);
- `stream_file_round_trip`: what any sessions write is what is read;
- `torn_tail_iff`: reading a stream file cut short, where the reader does not
  notice a cut between two fields of an envelope.
-/

namespace Zippylog

open Wire

/-- The file of a stream with the given record bodies. -/
def streamFile (bodies : List Bytes) : Bytes := 1 :: records bodies

theorem streamFile_length (bodies : List Bytes) :
    (streamFile bodies).length = (records bodies).length + 1 := rfl

theorem streamFile_append (bodies bodies' : List Bytes) :
    streamFile (bodies ++ bodies') = streamFile bodies ++ records bodies' := by
  rw [streamFile, records_append]
  rfl

/-! ## The writer -/

namespace FileOutputStream

/-- The file and the buffer make up a stream file. -/
structure Holds (s : FileOutputStream) (bodies : List Bytes) : Prop where
  content_eq : s.file ++ s.buffer = streamFile bodies

theorem Holds.flush {s : FileOutputStream} {bodies : List Bytes} (h : s.Holds bodies) :
    s.flush.Holds bodies := by
  refine ⟨?_⟩
  show (s.file ++ s.buffer) ++ [] = _
  rw [List.append_nil, h.content_eq]

theorem Holds.spill {s : FileOutputStream} {bodies : List Bytes} (h : s.Holds bodies) (n : Nat) :
    (s.spill n).Holds bodies := by
  refine ⟨?_⟩
  show (s.file ++ s.buffer.take n) ++ s.buffer.drop n = _
  rw [List.append_assoc, List.take_append_drop, h.content_eq]

theorem Holds.writeData {s : FileOutputStream} {bodies : List Bytes} (h : s.Holds bodies)
    {data : Bytes} (hlen : data.length < 2 ^ 32) : (s.writeData data).Holds (bodies ++ [data]) := by
  refine ⟨?_⟩
  show s.file ++ (s.buffer ++ encodeVarint (UInt32.ofNat data.length).toNat ++ data) = _
  rw [toNat_ofNat_uint32 hlen, List.append_assoc, ← List.append_assoc, h.content_eq,
    streamFile_append, records_cons, records_nil, List.append_nil, record]

/-- A file without content becomes an empty stream file. -/
theorem holds_ofFile_empty {file : Option Bytes} (h : file.getD [] = []) :
    (ofFile file).Holds [] := by
  refine ⟨?_⟩
  unfold ofFile
  rw [h]
  rfl

theorem holds_ofFile (bodies : List Bytes) : (ofFile (some (streamFile bodies))).Holds bodies :=
  ⟨List.append_nil _⟩

theorem Holds.destroy {s : FileOutputStream} {bodies : List Bytes} (h : s.Holds bodies) :
    s.destroy = streamFile bodies :=
  h.content_eq

end FileOutputStream

/-- **Step lemma** of the writer. -/
theorem WriteOp.holds_run {s : FileOutputStream} {bodies : List Bytes} (h : s.Holds bodies)
    (op : WriteOp) (hlen : ∀ body ∈ op.body?, body.length < 2 ^ 32) :
    (op.run s).Holds (bodies ++ op.body?.toList) := by
  cases op with
  | writeEnvelope e => exact h.writeData (hlen _ rfl)
  | writeData data => exact h.writeData (hlen _ rfl)
  | flush =>
    show s.flush.Holds (bodies ++ [])
    rw [List.append_nil]
    exact h.flush
  | spill n =>
    show (s.spill n).Holds (bodies ++ [])
    rw [List.append_nil]
    exact h.spill n

/-- The bodies a session writes. -/
def written (ops : List WriteOp) : List Bytes := ops.filterMap WriteOp.body?

/-- **Run lemma** of the writer. -/
theorem holds_foldl_run (ops : List WriteOp) :
    ∀ {s : FileOutputStream} {bodies : List Bytes}, s.Holds bodies →
      (∀ body ∈ written ops, body.length < 2 ^ 32) →
      (ops.foldl WriteOp.run s).Holds (bodies ++ written ops) := by
  induction ops with
  | nil =>
    intro s bodies h _
    rwa [written, List.filterMap_nil, List.append_nil]
  | cons op ops ih =>
    intro s bodies h hlen
    have hwritten : written (op :: ops) = op.body?.toList ++ written ops := by
      unfold written
      cases hop : op.body? with
      | none => rw [List.filterMap_cons_none hop, Option.toList_none, List.nil_append]
      | some body =>
        rw [List.filterMap_cons_some hop, Option.toList_some, List.singleton_append]
    rw [hwritten] at hlen ⊢
    have hstep := op.holds_run h fun body hb =>
      hlen body (List.mem_append_left _ (Option.mem_toList.mpr hb))
    rw [List.foldl_cons, ← List.append_assoc]
    exact ih hstep fun body hb => hlen body (List.mem_append_right _ hb)

theorem runSession_eq {file : Option Bytes} {bodies : List Bytes}
    (h : (FileOutputStream.ofFile file).Holds bodies) {ops : List WriteOp}
    (hlen : ∀ body ∈ written ops, body.length < 2 ^ 32) :
    runSession file ops = streamFile (bodies ++ written ops) :=
  (holds_foldl_run ops h hlen).destroy

/-- Sessions on a stream file append what they write. -/
theorem runSessions_streamFile (sessions : List (List WriteOp)) :
    ∀ {bodies : List Bytes}, (∀ body ∈ written sessions.flatten, body.length < 2 ^ 32) →
      runSessions (some (streamFile bodies)) sessions =
        some (streamFile (bodies ++ written sessions.flatten)) := by
  induction sessions with
  | nil =>
    intro bodies _
    rw [List.flatten_nil, written, List.filterMap_nil, List.append_nil]
    rfl
  | cons ops sessions ih =>
    intro bodies hlen
    have hwritten : written (ops :: sessions).flatten = written ops ++ written sessions.flatten := by
      rw [List.flatten_cons, written, List.filterMap_append]
      rfl
    rw [hwritten] at hlen ⊢
    show runSessions (some (runSession _ ops)) sessions = _
    rw [runSession_eq (FileOutputStream.holds_ofFile bodies) fun body hb =>
      hlen body (List.mem_append_left _ hb)]
    rw [ih fun body hb => hlen body (List.mem_append_right _ hb), List.append_assoc]

/-! ## The reader -/

/-- A stream file of records with at most `maxBody` bytes is read back. -/
theorem readsAll_streamFile {bodies : List Bytes} {es : List Envelope}
    (hes : InputStream.Parses bodies es)
    (hsize : ∀ body ∈ bodies, 0 < body.length ∧ body.length ≤ Meter.maxBody) :
    ∃ s s', InputStream.ofFile (some (streamFile bodies)) 0 = .ok s ∧
      ReadsAll s (es.zip (InputStream.bytesReads bodies)) s' ∧
      s'.offset = 1 + ((bodies.map fun body => bytesReadOf body.length).sum : Nat) := by
  obtain ⟨s, hopen, hat, -, -⟩ := InputStream.ofFile_at (records bodies)
  have hat' : s.At 1 (records bodies ++ []) ⟨1, 0, intMax⟩ := by rwa [List.append_nil]
  obtain ⟨s', hend, -, -, hrun⟩ := hat'.readsAll hes InputStream.full_begin hsize
  have hlast := hend.readEnvelope_none progress_readVarint32
  refine ⟨s, s', hopen, ?_, ?_⟩
  · exact (hrun _ _).mpr ⟨[], (List.append_nil _).symm, .done hlast⟩
  · rw [hend.offset_eq]
    exact Int.natCast_add _ _

theorem map_fst_zip_bytesReads {bodies : List Bytes} {es : List Envelope}
    (hes : InputStream.Parses bodies es) :
    (es.zip (InputStream.bytesReads bodies)).map Prod.fst = es := by
  refine List.map_fst_zip ?_
  rw [InputStream.bytesReads, List.length_map, hes.length_eq]

theorem sum_zip_bytesReads {bodies : List Bytes} {es : List Envelope}
    (hes : InputStream.Parses bodies es) :
    ((es.zip (InputStream.bytesReads bodies)).map fun en => en.2.toNat).sum =
      (bodies.map fun body => bytesReadOf body.length).sum := by
  have hzip : (es.zip (InputStream.bytesReads bodies)).map Prod.snd =
      InputStream.bytesReads bodies := by
    refine List.map_snd_zip ?_
    rw [InputStream.bytesReads, List.length_map, hes.length_eq]
  calc ((es.zip (InputStream.bytesReads bodies)).map fun en => en.2.toNat).sum
      = (((es.zip (InputStream.bytesReads bodies)).map Prod.snd).map UInt32.toNat).sum := by
        rw [List.map_map]
        rfl
    _ = (bodies.map fun body => bytesReadOf body.length).sum := by
        rw [hzip, InputStream.bytesReads, List.map_map]
        rfl

/-- **Round trip**: whatever sessions write to an absent or empty file, and
however the library divides it into writes, the file is the version byte and the
records, and reading gives the envelopes back, counting every byte. The first
session is named because without any there is no file. -/
theorem stream_file_round_trip {file : Option Bytes} (hfile : file.getD [] = [])
    (session : List WriteOp) (sessions : List (List WriteOp)) {es : List Envelope}
    (hes : InputStream.Parses (written (session :: sessions).flatten) es)
    (hsize : ∀ body ∈ written (session :: sessions).flatten,
      1 ≤ body.length ∧ body.length ≤ 2 ^ 28 - 1) :
    ∃ content, runSessions file (session :: sessions) = some content ∧
      content = [1] ++ ((written (session :: sessions).flatten).map fun body =>
        encodeVarint body.length ++ body).flatten ∧
      ∃ s ens s', InputStream.ofFile (some content) 0 = .ok s ∧ ReadsAll s ens s' ∧
        ens.map Prod.fst = es ∧ (ens.map fun en => en.2.toNat).sum = content.length - 1 ∧
        s'.offset = content.length := by
  have hcons : written (session :: sessions).flatten =
      written session ++ written sessions.flatten := by
    rw [List.flatten_cons, written, List.filterMap_append]
    rfl
  have hlen : ∀ body ∈ written session ++ written sessions.flatten, body.length < 2 ^ 32 := by
    rw [← hcons]
    intro body hb
    have := (hsize body hb).2
    omega
  have hrun : runSessions file (session :: sessions) =
      some (streamFile (written (session :: sessions).flatten)) := by
    show runSessions (some (runSession file session)) sessions = _
    rw [runSession_eq (FileOutputStream.holds_ofFile_empty hfile) fun body hb =>
        hlen body (List.mem_append_left _ hb), List.nil_append,
      runSessions_streamFile sessions fun body hb => hlen body (List.mem_append_right _ hb), hcons]
  obtain ⟨s, s', hopen, hreads, hoffset⟩ := readsAll_streamFile hes fun body hb =>
    ⟨(hsize body hb).1, Meter.le_maxBody (Nat.lt_of_le_sub_one (by decide) (hsize body hb).2)⟩
  have hsum := InputStream.sum_bytesReadOf fun body hb =>
    Nat.lt_of_le_pred (by decide : 0 < 2 ^ 28) (hsize body hb).2
  refine ⟨_, hrun, rfl, s, _, s', hopen, hreads, map_fst_zip_bytesReads hes, ?_, ?_⟩
  · rw [sum_zip_bytesReads hes, hsum, streamFile_length, Nat.add_sub_cancel]
  · rw [hoffset, hsum, streamFile_length]
    omega

/-- Two sessions on an absent file, the first flushed inside. -/
theorem stream_file_round_trip_two_sessions :
    ∃ content, runSessions none
        [[.writeEnvelope (Envelope.new 5), .flush, .spill 1], [.writeData [8, 1]]] = some content ∧
      content = [1, 2, 40, 5, 2, 8, 1] ∧
      ∃ s ens s', InputStream.ofFile (some content) 0 = .ok s ∧ ReadsAll s ens s' ∧
        ens.map Prod.fst = [Envelope.new 5, { version := some 1 }] ∧
        (ens.map fun en => en.2.toNat).sum = content.length - 1 ∧ s'.offset = content.length :=
  stream_file_round_trip rfl [.writeEnvelope (Envelope.new 5), .flush, .spill 1]
    [[.writeData [8, 1]]] (.cons rfl (.cons rfl .nil)) (by decide)

/-! ## Torn tails -/

/-- A stream file with the given records and the first `c` bytes of one more. -/
def tornFile (bodies : List Bytes) (body : Bytes) (c : Nat) : Bytes :=
  streamFile bodies ++ (record body).take c

/-- The reader of a torn file returns the envelopes of the complete records and
then false, and its offset stays at the start of the cut record. -/
def ReadsTorn (bodies : List Bytes) (es : List Envelope) (body : Bytes) (c : Nat) : Prop :=
  ∃ s ens s', InputStream.ofFile (some (tornFile bodies body c)) 0 = .ok s ∧ ReadsAll s ens s' ∧
    ens.map Prod.fst = es ∧ s'.offset = (streamFile bodies).length ∧
    s'.offset ≤ (tornFile bodies body c).length

/-- The meter of a reader behind the complete records. -/
def meterBehind (bodies : List Bytes) : Meter := InputStream.meterAfter ⟨1, 0, intMax⟩ bodies

theorem sum_bytesReadOf_le {bodies : List Bytes} (hlen : ∀ body ∈ bodies, body.length < 2 ^ 31) :
    (bodies.map fun body => bytesReadOf body.length).sum ≤ (records bodies).length := by
  induction bodies with
  | nil => exact Nat.le_refl _
  | cons body bodies ih =>
    have hle := ih fun b hb => hlen b (List.mem_cons_of_mem _ hb)
    have hbody := bytesReadOf_le_length (hlen body List.mem_cons_self)
    rw [List.map_cons, List.sum_cons, records_cons, List.length_append]
    omega

/-- The counts add up to the file only when none of them is short. -/
theorem length_lt_of_sum_eq {bodies : List Bytes} (hlen : ∀ body ∈ bodies, body.length < 2 ^ 31)
    (h : (bodies.map fun body => bytesReadOf body.length).sum = (records bodies).length) :
    ∀ body ∈ bodies, body.length < 2 ^ 28 := by
  induction bodies with
  | nil => exact fun _ hb => absurd hb List.not_mem_nil
  | cons body bodies ih =>
    obtain ⟨hbody, hbodies⟩ := List.forall_mem_cons.mp hlen
    rw [List.map_cons, List.sum_cons, records_cons, List.length_append] at h
    have hle := sum_bytesReadOf_le hbodies
    have hle' := bytesReadOf_le_length hbody
    refine List.forall_mem_cons.mpr ⟨?_, ih hbodies (by omega)⟩
    by_contra hbig
    have := bytesReadOf_add_one (Nat.le_of_not_lt hbig) hbody
    omega

/-- What reading a torn file comes down to when the complete records are of the
sizes that are counted right: what the read at the cut record returns. -/
theorem readsTorn_iff_readEnvelope {bodies : List Bytes} {es : List Envelope}
    (hes : InputStream.Parses bodies es)
    (hsize : ∀ body ∈ bodies, 1 ≤ body.length ∧ body.length ≤ 2 ^ 28 - 1) (body : Bytes) (c : Nat) :
    ∃ s : InputStream, s.At (streamFile bodies).length ((record body).take c) (meterBehind bodies) ∧
      (meterBehind bodies).Full ∧
      (ReadsTorn bodies es body c ↔ ∃ n s', s.readEnvelope = (none, n, s')) := by
  obtain ⟨s₀, hopen, hat₀, -, -⟩ := InputStream.ofFile_at (records bodies ++ (record body).take c)
  obtain ⟨s, hat, hfull, -, hrun⟩ := hat₀.readsAll hes InputStream.full_begin fun b hb =>
    ⟨(hsize b hb).1, Meter.le_maxBody (Nat.lt_of_le_sub_one (by decide) (hsize b hb).2)⟩
  have hsum := InputStream.sum_bytesReadOf fun b hb =>
    Nat.lt_of_le_pred (by decide : 0 < 2 ^ 28) (hsize b hb).2
  have hstart : 1 + (records bodies).length = (streamFile bodies).length := Nat.add_comm _ _
  rw [hsum, hstart] at hat
  refine ⟨s, hat, hfull, ?_⟩
  constructor
  · rintro ⟨s₁, ens, s', hopen₁, hreads, hens, -, -⟩
    rw [show tornFile bodies body c = 1 :: (records bodies ++ (record body).take c) from rfl,
      hopen] at hopen₁
    cases hopen₁
    obtain ⟨ens', rfl, hrest⟩ := (hrun _ _).mp hreads
    -- nothing is left to be read after the complete records
    rw [List.map_append, map_fst_zip_bytesReads hes, List.append_right_eq_self,
      List.map_eq_nil_iff] at hens
    subst hens
    cases hrest with
    | done hdone => exact ⟨_, _, hdone⟩
  · rintro ⟨n, s', hdone⟩
    have hoffset := InputStream.offset_of_readEnvelope_none hdone
    rw [hat.offset_eq] at hoffset
    refine ⟨s₀, _, s', hopen, (hrun _ _).mpr ⟨[], (List.append_nil _).symm, .done hdone⟩,
      map_fst_zip_bytesReads hes, hoffset, ?_⟩
    rw [hoffset, tornFile, List.length_append]
    omega

/-- **Torn tails**: a reader returns exactly the complete records' envelopes and
stops at the cut record if and only if every complete record has a body of 1 to
2^28 - 1 bytes and what is there of the cut body does not end between two fields
of its envelope, or of an actor in it. The reader has no other way to notice that a
record is cut: it pushes the limit of the whole body, and the end of the file is as
good an end of a message as that limit. -/
theorem torn_tail_iff {bodies : List Bytes} {es : List Envelope}
    (hes : InputStream.Parses bodies es) (hlen : ∀ body ∈ bodies, body.length < 2 ^ 31)
    {uss : List Bytes} {fs : List Field} {e : Envelope} (hi : Items (readField 0) uss fs)
    (he : Envelope.parse uss.flatten = some e) (hcut : uss.flatten.length < 2 ^ 31) {c : Nat}
    (hc : c < (record uss.flatten).length) :
    ReadsTorn bodies es uss.flatten c ↔
      (∀ body ∈ bodies, 1 ≤ body.length ∧ body.length ≤ 2 ^ 28 - 1) ∧
      ∀ k, c = (encodeVarint uss.flatten.length).length + k →
        ¬ Envelope.BetweenFields uss
          (InputStream.readable (meterBehind bodies) uss.flatten.length k) := by
  constructor
  · intro htorn
    have hsize : ∀ body ∈ bodies, 1 ≤ body.length ∧ body.length ≤ 2 ^ 28 - 1 := by
      obtain ⟨s₀, hopen, hat₀, -, -⟩ :=
        InputStream.ofFile_at (records bodies ++ (record uss.flatten).take c)
      obtain ⟨s, ens, s', hopen', hreads, hens, hoffset, -⟩ := htorn
      rw [show tornFile bodies uss.flatten c =
        1 :: (records bodies ++ (record uss.flatten).take c) from rfl, hopen] at hopen'
      cases hopen'
      -- all bodies were read, so the offset counts what their lengths are counted as
      have hcount : ens.length = bodies.length := by
        rw [← List.length_map Prod.fst, hens, hes.length_eq]
      obtain ⟨hpos, hsum⟩ := hreads.offset_eq hlen (hat₀.before (Nat.le_refl _)) hcount
      rw [hoffset, hat₀.offset_eq, streamFile_length] at hsum
      have hsmall := length_lt_of_sum_eq hlen (by omega)
      intro body hb
      have h1 := hpos body hb
      have h2 := hsmall body hb
      omega
    refine ⟨hsize, ?_⟩
    -- at a cut between two fields the cut record would be read as well
    rintro k rfl hboundary
    obtain ⟨s, hat, hfull, hiff⟩ := readsTorn_iff_readEnvelope hes hsize uss.flatten
      ((encodeVarint uss.flatten.length).length + k)
    obtain ⟨n, s', hnone⟩ := hiff.mp htorn
    rw [record_length] at hc
    obtain ⟨o, n', s'', hread, hsome, -⟩ :=
      hat.readEnvelope_torn hfull hi he (by omega) hcut
    rw [hnone] at hread
    cases hread
    exact absurd (hsome.mpr hboundary) (by simp)
  · rintro ⟨hsize, hboundary⟩
    obtain ⟨s, hat, hfull, hiff⟩ := readsTorn_iff_readEnvelope hes hsize uss.flatten c
    refine hiff.mpr ?_
    -- the cut is in the length, where it is noticed, or in the body
    by_cases hlength : c < (encodeVarint uss.flatten.length).length
    · exact ⟨0, s, hat.readEnvelope_cut_length (by omega) hlength⟩
    · obtain ⟨k, rfl⟩ := Nat.exists_eq_add_of_le (Nat.le_of_not_lt hlength)
      rw [record_length] at hc
      obtain ⟨o, n, s', hread, hsome, -⟩ := hat.readEnvelope_torn hfull hi he (by omega) hcut
      have hnone : o = none := by
        rw [← Option.not_isSome_iff_eq_none, hsome]
        exact hboundary k rfl
      rw [hnone] at hread
      exact ⟨n, s', hread⟩

/-- A record of two fields cut inside the first one is noticed. -/
theorem torn_tail_inside_field : ReadsTorn [] [] [8, 1, 40, 5] 2 := by
  let f : Field := .ofScalar 1 (.varint 1) (by decide)
  let g : Field := .ofScalar 5 (.varint 5) (by decide)
  have hi : Items (readField 0) [[8, 1], [40, 5]] [f, g] := by
    have hencode : [f, g].map Field.encode = [[8, 1], [40, 5]] := by decide
    rw [← hencode]
    exact items_encode fun f _ => f.within_zero
  refine (torn_tail_iff .nil (by decide) hi rfl (by decide) (by decide)).mpr ⟨by decide, ?_⟩
  intro k hk
  obtain rfl : k = 1 := Nat.add_left_cancel hk.symm
  exact Envelope.not_betweenFields (j := 0) (m := 1) (f := f) ⟨rfl, by decide, by decide, rfl⟩
    (by decide)

/-- Cut behind the first field it is not: an envelope that was never written
comes back. -/
theorem torn_tail_at_field : ¬ ReadsTorn [] [] [8, 1, 40, 5] 3 := by
  rintro ⟨s, ens, s', hopen, hreads, hens, -, -⟩
  cases hopen
  obtain rfl := List.map_eq_nil_iff.mp hens
  cases hreads with
  | done h => exact absurd (show _ = false from congrArg (fun r => r.1.isSome) h) (by decide +kernel)

/-! ## Long envelopes -/

/-- An envelope with one message of `n` bytes. -/
def longEnvelope (n : Nat) : Envelope := { message := [List.replicate n 0] }

theorem fieldNumber_message : FieldNumber 2 := by decide

/-- Its only field. -/
def longField (n : Nat) : Field := .ofScalar 2 (.bytes (List.replicate n 0)) fieldNumber_message

theorem serialize_longEnvelope (n : Nat) :
    (longEnvelope n).serialize = [(longField n).encode].flatten := rfl

theorem length_serialize_longEnvelope {n : Nat} (h : n < 2 ^ 32) :
    (longEnvelope n).serialize.length = 1 + (encodeVarint n).length + n := by
  have hfield : (longField n).encode =
      encodeVarint 18 ++ (encodeLength (List.replicate n (0 : UInt8)).length ++
        List.replicate n 0) := rfl
  rw [serialize_longEnvelope, List.flatten_singleton, hfield, List.length_append,
    List.length_append, List.length_replicate, encodeLength_of_lt h,
    show (encodeVarint 18).length = 1 by decide, Nat.add_assoc]

end Zippylog
