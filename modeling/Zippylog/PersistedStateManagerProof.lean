import Zippylog.PersistedStateManager

/-!
# Persisted state: the envelopes of streams

A manager is told that a stream is longer than before, reads what is new, and gives each envelope to
the subscriptions that cover it. `ProcessStoreChangeStreamAppended` stores the new length before it
reads from the stored offset, so there is nothing left to read.

- `Streamed`: what is to be received, and where the stored offsets are to be, after any history of
  reports.
- `data_readForSubscriptions`: no callback is called, whatever there is in the stream.
- `streamed_iff`: so it is received only where nothing is to be, and the offsets are right only
  where the reports name record boundaries.
-/

namespace Zippylog

open Wire

namespace PersistedStateManager

/-! ## Streams -/

/-- A record of a stream, and the envelope in it. -/
structure StreamRecord where
  body : Bytes
  e : Envelope
  parse_eq : Envelope.parse body = some e

/-- The file with the given records. -/
def fileOf (rs : List StreamRecord) : Bytes := streamFile (rs.map StreamRecord.body)

/-- The envelopes with the offsets at which their records begin and end. -/
def extents : Nat → List StreamRecord → List (Nat × Nat × Envelope)
  | _, [] => []
  | offset, r :: rs =>
    let stop := offset + (record r.body).length
    (offset, stop, r.e) :: extents stop rs

/-- A record boundary. The start of a stream is one before its version byte as well
as behind it. -/
def Boundary (rs : List StreamRecord) (offset : Nat) : Prop :=
  offset = 0 ∨ ∃ k, offset = (fileOf (rs.take k)).length

/-- The filters of a subscription: any of them is enough, and without any of them
every envelope passes. -/
def passes (si : SubscriptionInfo) (e : Envelope) : Bool :=
  (si.envelopeFilterNamespaces.isEmpty && si.envelopeFilterEnumerations.isEmpty) ||
    e.messageNamespace.any (· ∈ si.envelopeFilterNamespaces) ||
    (e.messageNamespace.zip e.messageType).any (· ∈ si.envelopeFilterEnumerations)

/-- The envelopes that pass, of the records between two offsets. -/
def due (rs : List StreamRecord) (start stop : Nat) (si : SubscriptionInfo) : List Envelope :=
  ((extents 1 rs).filter fun x => start ≤ x.1 && x.2.1 ≤ stop && passes si x.2.2).map (·.2.2)

/-! ## Runs -/

inductive StoreChange where
  | pathAdded (path : Bytes)
  | streamAppended (path : Bytes) (length : UInt64)
  deriving DecidableEq

/-- The length that a change reports for a path. -/
def StoreChange.length? (path : Bytes) : StoreChange → Option UInt64
  | .pathAdded _ => none
  | .streamAppended p length => if p = path then some length else none

/-- A change, and the store when it is processed. -/
structure StoreEvent where
  change : StoreChange
  store : Store

/-- Streams that are written, and the changes that are reported meanwhile. -/
structure StreamHistory where
  /-- the records that each stream gets -/
  records : Bytes → List StreamRecord
  events : List StoreEvent
  written : ∀ ev ∈ events, ∀ path bucket set stream content,
    Store.parsePath path = some (bucket, set, stream) →
    ev.store.file bucket set stream = some content → content <+: fileOf (records path)
  within : ∀ ev ∈ events, ∀ path length, ev.change = .streamAppended path length →
    ∃ bucket set stream content, Store.parsePath path = some (bucket, set, stream) ∧
      ev.store.file bucket set stream = some content ∧ length.toNat ≤ content.length
  nondecreasing : events.Pairwise fun ev ev' => ∀ path length length',
    ev.change = .streamAppended path length → ev'.change = .streamAppended path length' →
      length ≤ length'

/-- A call of the callback: the stream, the subscription and the response state. -/
structure AppendedCall where
  path : Bytes
  si : SubscriptionInfo
  state : EnvelopeSubscriptionResponseState
  deriving DecidableEq

/-- A callback that changes the state, and what it was called with. -/
def recordCall (path : Bytes)
    (respond : SubscriptionInfo → EnvelopeSubscriptionResponseState →
      EnvelopeSubscriptionResponseState) : StreamAppendedCallback (List AppendedCall) :=
  fun si state calls => (respond si state, calls ++ [⟨path, si, state⟩])

section Run

variable (respond : SubscriptionInfo → EnvelopeSubscriptionResponseState →
  EnvelopeSubscriptionResponseState)

/-- One change is processed. -/
def step (s : PersistedStateManager × List AppendedCall) (ev : StoreEvent) :
    PersistedStateManager × List AppendedCall :=
  match ev.change with
  | .pathAdded path => (s.1.processStoreChangePathAdded path (some fun _ _ calls => calls) s.2).2
  | .streamAppended path length =>
    (s.1.processStoreChangeStreamAppended ev.store path length (some (recordCall path respond))
      s.2).2

def run (m : PersistedStateManager) (es : List StoreEvent) :
    PersistedStateManager × List AppendedCall :=
  es.foldl (step respond) (m, [])

/-- What a subscription receives from a stream: a call comes behind each envelope
that is added. -/
def received (calls : List AppendedCall) (path id : Bytes) : List Bytes :=
  calls.filterMap fun call =>
    if call.path = path ∧ call.si.id = id then call.state.messages.getLast? else none

/-- Where the manager starts to read a stream: at the beginning, if it does not know
it yet. -/
def startOffset (m : PersistedStateManager) (path : Bytes) : Nat :=
  ((m.streamReadOffsets path).map UInt64.toNat).getD 0

/-- The last length that is reported for a path. -/
def latest (path : Bytes) (es : List StoreEvent) : Nat :=
  ((es.filterMap fun ev => ev.change.length? path).getLast?.map UInt64.toNat).getD 0

/-- Each subscription to a stream received what it is due, and the stored offsets are
record boundaries up to which that is so. -/
structure Streamed (records : Bytes → List StreamRecord) (m : PersistedStateManager)
    (es : List StoreEvent) : Prop where
  received_eq : ∀ path, ∀ r ∈ m.subscriptions, covers .envelope path r = true →
    received (run respond m es).2 path r.id =
      (due (records path) (m.startOffset path) (latest path es) r.si).map
        Envelope.toProtocolZmqMessage
  offset_boundary : ∀ path offset, (run respond m es).1.streamReadOffsets path = some offset →
    Boundary (records path) offset.toNat ∧
      offset.toNat ≤ max (m.startOffset path) (latest path es)

end Run

/-- No subscription is due anything, and the offsets that are stored are boundaries. -/
structure NothingDue (m : PersistedStateManager) (h : StreamHistory) : Prop where
  initial : ∀ path offset, m.streamReadOffsets path = some offset →
    Boundary (h.records path) offset.toNat
  reported : ∀ ev ∈ h.events, ∀ path length, ev.change = .streamAppended path length →
    Boundary (h.records path) length.toNat ∧
      ∀ r ∈ m.subscriptions, covers .envelope path r = true →
        due (h.records path) (m.startOffset path) length.toNat r.si = []

/-! ## One change -/

section Change

variable {σ : Type}

theorem notify_eq (path : Bytes) (cb : SubscriptionInfo → Bytes → σ → σ)
    (rs : List PersistedStateManagerSubscriptionRecord) (data : σ) :
    notify path cb rs data = data := by
  induction rs with
  | nil => rfl
  | cons r rs ih =>
    rw [notify]
    split <;> exact ih

/-- Nothing is read from the end on. -/
theorem data_readFrom {streamLength offset : UInt64} (h : ¬ offset < streamLength)
    (si : SubscriptionInfo) (cb : StreamAppendedCallback σ) (fuel : Nat) (is : InputStream)
    (state : EnvelopeSubscriptionResponseState) (data : σ) :
    (readFrom si streamLength cb fuel offset is state data).2 = data := by
  cases fuel with
  | zero => rfl
  | succ fuel => rw [readFrom, if_neg h]

/-- From an earlier offset on, a record is read. -/
example : (match InputStream.ofFile (some [1, 2, 8, 1]) 0 with
    | .error _ => []
    | .ok is => (readFrom {} 4 (recordCall [] fun _ state => state) 4 1 is (.ofSubscription {})
        []).2.map fun call => call.state.messages) = [[[1, 8, 1]]] := by
  decide

/-- **The stored offset is the new end**, so no callback is called. -/
theorem data_readForSubscription {m : PersistedStateManager} {path : Bytes}
    {streamLength : UInt64} (h : m.streamReadOffsets path = some streamLength)
    (cb : StreamAppendedCallback σ) (si : SubscriptionInfo) (is : InputStream) (data : σ) :
    (m.readForSubscription path streamLength cb si is data).2 = data := by
  rw [readForSubscription]
  split
  · rfl
  · rename_i offset hoffset
    obtain rfl : offset = streamLength := Option.some.inj (hoffset.symm.trans h)
    split
    · rfl
    · rename_i is' _
      have hdata := data_readFrom (UInt64.lt_irrefl offset) si cb offset.toNat is'
        (.ofSubscription si) data
      generalize readFrom si offset cb offset.toNat offset is' (.ofSubscription si) data = read
        at hdata ⊢
      exact hdata

/-- The offset that is stored is the new length already, so nothing is read for any subscription. -/
theorem data_readForSubscriptions {m : PersistedStateManager} {path : Bytes}
    {streamLength : UInt64} (h : m.streamReadOffsets path = some streamLength)
    (cb : StreamAppendedCallback σ) (data : σ)
    (rs : List PersistedStateManagerSubscriptionRecord) :
    ∀ is : InputStream,
      (m.readForSubscriptions path streamLength cb rs is data).2 = data := by
  induction rs with
  | nil => exact fun _ => rfl
  | cons r rs ih =>
    intro is
    have hdata := data_readForSubscription h cb r.si is data
    rw [readForSubscriptions]
    split
    · exact ih is
    · split
      · rename_i hread
        rw [hread] at hdata
        exact hdata
      · rename_i is' data' hread
        rw [hread] at hdata
        obtain rfl : data' = data := hdata
        exact ih is'

/-- What a path that is added changes. -/
theorem processStoreChangePathAdded_some (m : PersistedStateManager) (path : Bytes)
    (cb : SubscriptionInfo → Bytes → σ → σ) (data : σ) :
    m.processStoreChangePathAdded path (some cb) data =
      (.ok (), if Store.isStreamPath path then
          { m with streamReadOffsets := setOffset m.streamReadOffsets path 0 }
        else m, data) := by
  rw [processStoreChangePathAdded, notify_eq]

/-- What a stream that is appended to changes. -/
theorem processStoreChangeStreamAppended_some (m : PersistedStateManager) (store : Store)
    (path : Bytes) (streamLength : UInt64) (cb : StreamAppendedCallback σ) (data : σ) :
    (m.processStoreChangeStreamAppended store path streamLength (some cb) data).2 =
      ({ m with streamReadOffsets := setOffset m.streamReadOffsets path streamLength }, data) := by
  have hoffset := setOffset_self m.streamReadOffsets path streamLength
  rw [processStoreChangeStreamAppended]
  dsimp only
  -- with subscriptions or without, with a stream or without
  split
  · rfl
  · split
    · rfl
    · rfl
    · rw [data_readForSubscriptions hoffset]

end Change

/-! ## Runs deliver nothing -/

section Run

variable {respond : SubscriptionInfo → EnvelopeSubscriptionResponseState →
  EnvelopeSubscriptionResponseState}

theorem run_append (m : PersistedStateManager) (es : List StoreEvent) (ev : StoreEvent) :
    run respond m (es ++ [ev]) = step respond (run respond m es) ev := by
  rw [run, List.foldl_append]
  rfl

theorem latest_append_self {ev : StoreEvent} {path : Bytes} {length : UInt64}
    (h : ev.change = .streamAppended path length) (es : List StoreEvent) :
    latest path (es ++ [ev]) = length.toNat := by
  have hlength : ev.change.length? path = some length := by
    rw [h, StoreChange.length?, if_pos rfl]
  simp [latest, hlength]

theorem latest_append_other {ev : StoreEvent} {path : Bytes}
    (h : ev.change.length? path = none) (es : List StoreEvent) :
    latest path (es ++ [ev]) = latest path es := by
  simp [latest, h]

/-- A step calls no callback. -/
theorem calls_step (s : PersistedStateManager × List AppendedCall) (ev : StoreEvent) :
    (step respond s ev).2 = s.2 := by
  rw [step]
  split
  · rw [processStoreChangePathAdded_some]
  · rw [processStoreChangeStreamAppended_some]

theorem calls_run (m : PersistedStateManager) (es : List StoreEvent) :
    (run respond m es).2 = [] := by
  induction es using List.reverseRecOn with
  | nil => rfl
  | append_singleton es ev ih => rw [run_append, calls_step, ih]

/-- Behind an append, the stored offset is the length that was reported. -/
theorem offset_run_appended (m : PersistedStateManager) (es : List StoreEvent) {ev : StoreEvent}
    {path : Bytes} {length : UInt64} (h : ev.change = .streamAppended path length) :
    (run respond m (es ++ [ev])).1.streamReadOffsets path = some length := by
  rw [run_append, step, h]
  dsimp only
  rw [processStoreChangeStreamAppended_some]
  exact setOffset_self _ _ _

/-- A stored offset was stored at the start, or the path was added, or it is the last
length that was reported. -/
theorem offset_run (m : PersistedStateManager) (es : List StoreEvent) :
    ∀ {path : Bytes} {offset : UInt64},
      (run respond m es).1.streamReadOffsets path = some offset →
        m.streamReadOffsets path = some offset ∨ offset = 0 ∨
          (∃ ev ∈ es, ev.change = .streamAppended path offset) ∧
            offset.toNat = latest path es := by
  induction es using List.reverseRecOn with
  | nil => exact fun h => .inl h
  | append_singleton es ev ih =>
    intro path offset h
    -- what was stored before stays so where the step does not report a length
    have hkept (hlength : ev.change.length? path = none)
        (hoffset : (run respond m es).1.streamReadOffsets path = some offset) :
        m.streamReadOffsets path = some offset ∨ offset = 0 ∨
          (∃ ev' ∈ es ++ [ev], ev'.change = .streamAppended path offset) ∧
            offset.toNat = latest path (es ++ [ev]) := by
      rw [latest_append_other hlength]
      rcases ih hoffset with hstart | hzero | ⟨⟨ev', hev', hchange⟩, hlatest⟩
      · exact .inl hstart
      · exact .inr (.inl hzero)
      · exact .inr (.inr ⟨⟨ev', List.mem_append_left _ hev', hchange⟩, hlatest⟩)
    cases hchange : ev.change with
    | pathAdded p =>
      have hlength : ev.change.length? path = none := by rw [hchange, StoreChange.length?]
      rw [run_append, step, hchange] at h
      dsimp only at h
      rw [processStoreChangePathAdded_some] at h
      dsimp only at h
      split at h
      · dsimp only at h
        by_cases hp : path = p
        · rw [hp, setOffset_self] at h
          exact .inr (.inl (Option.some.inj h).symm)
        · rw [setOffset_of_ne hp] at h
          exact hkept hlength h
      · exact hkept hlength h
    | streamAppended p length =>
      by_cases hp : path = p
      · subst hp
        rw [offset_run_appended m es hchange] at h
        obtain rfl := Option.some.inj h
        exact .inr (.inr ⟨⟨ev, List.mem_append_right _ (List.mem_singleton_self _), hchange⟩,
          (latest_append_self hchange es).symm⟩)
      · have hlength : ev.change.length? path = none := by
          rw [hchange, StoreChange.length?, if_neg (Ne.symm hp)]
        rw [run_append, step, hchange] at h
        dsimp only at h
        rw [processStoreChangeStreamAppended_some] at h
        dsimp only at h
        rw [setOffset_of_ne hp] at h
        exact hkept hlength h

/-! ## What is due -/

/-- A record starts at or behind the offset that reading started at. -/
theorem le_of_mem_extents {rs : List StreamRecord} {x : Nat × Nat × Envelope} :
    ∀ {offset : Nat}, x ∈ extents offset rs → offset ≤ x.2.1 := by
  induction rs with
  | nil => exact fun h => absurd h List.not_mem_nil
  | cons r rs ih =>
    intro offset h
    rw [extents] at h
    rcases List.mem_cons.mp h with rfl | h
    · exact Nat.le_add_right _ _
    · exact Nat.le_trans (Nat.le_add_right _ _) (ih h)

/-- No record ends at the start of a stream. -/
theorem due_zero (rs : List StreamRecord) (start : Nat) (si : SubscriptionInfo) :
    due rs start 0 si = [] := by
  have hnone : (extents 1 rs).filter
      (fun x => start ≤ x.1 && x.2.1 ≤ 0 && passes si x.2.2) = [] := by
    refine List.filter_eq_nil_iff.mpr fun x hx => ?_
    -- the version byte is in front of all records
    have hpos : 1 ≤ x.2.1 := le_of_mem_extents hx
    simp only [Bool.and_eq_true, decide_eq_true_eq]
    omega
  rw [due, hnone]
  rfl

/-- The last length of a stream is from one of the events, or it had none. -/
theorem latest_mem (path : Bytes) (es : List StoreEvent) :
    latest path es = 0 ∨
      ∃ ev ∈ es, ∃ length, ev.change = .streamAppended path length ∧
        latest path es = length.toNat := by
  induction es using List.reverseRecOn with
  | nil => exact .inl rfl
  | append_singleton es ev ih =>
    cases hlength : ev.change.length? path with
    | none =>
      rw [latest_append_other hlength]
      rcases ih with hzero | ⟨ev', hev', hreported⟩
      · exact .inl hzero
      · exact .inr ⟨ev', List.mem_append_left _ hev', hreported⟩
    | some length =>
      have hchange : ev.change = .streamAppended path length := by
        cases hc : ev.change with
        | pathAdded p =>
          rw [hc, StoreChange.length?] at hlength
          cases hlength
        | streamAppended p l =>
          rw [hc, StoreChange.length?] at hlength
          split at hlength
          · rename_i hp
            rw [hp, Option.some.inj hlength]
          · cases hlength
      exact .inr ⟨ev, List.mem_append_right _ (List.mem_singleton_self _), length, hchange,
        latest_append_self hchange es⟩

/-- **Envelopes of streams**: they are delivered in order, each once, and the stored offsets stay at
record boundaries, if and only if no complete envelope that passes the filters lies between where
reading starts and a reported length, and the lengths are record boundaries. For no envelope is ever
delivered, and a length is stored as it was reported. -/
theorem streamed_iff (m : PersistedStateManager) (h : StreamHistory)
    (respond : SubscriptionInfo → EnvelopeSubscriptionResponseState →
      EnvelopeSubscriptionResponseState) :
    (∀ n, Streamed respond h.records m (h.events.take n)) ↔ NothingDue m h := by
  constructor
  · intro hstreamed
    refine ⟨fun path offset hoffset => ((hstreamed 0).offset_boundary path offset hoffset).1, ?_⟩
    intro ev hev path length hchange
    -- the run up to this change
    obtain ⟨es, es', hsplit⟩ := List.append_of_mem hev
    have htake : h.events.take (es.length + 1) = es ++ [ev] := by
      rw [hsplit, ← List.singleton_append, ← List.append_assoc]
      exact List.take_left' (by rw [List.length_append, List.length_singleton])
    have hat := hstreamed (es.length + 1)
    rw [htake] at hat
    refine ⟨(hat.offset_boundary path length (offset_run_appended m es hchange)).1, ?_⟩
    intro r hr hcovers
    -- nothing was received, so nothing was due
    have hreceived := hat.received_eq path r hr hcovers
    rw [calls_run, latest_append_self hchange] at hreceived
    exact List.map_eq_nil_iff.mp hreceived.symm
  · intro hnothing n
    constructor
    · intro path r hr hcovers
      have hdue : due (h.records path) (m.startOffset path)
          (latest path (h.events.take n)) r.si = [] := by
        rcases latest_mem path (h.events.take n) with hzero | ⟨ev, hev, length, hchange, hlatest⟩
        · rw [hzero]
          exact due_zero _ _ _
        · rw [hlatest]
          exact (hnothing.reported ev (List.mem_of_mem_take hev) path length hchange).2 r hr hcovers
      rw [calls_run, hdue]
      rfl
    · intro path offset hoffset
      rcases offset_run m _ hoffset with hstart | rfl | ⟨⟨ev, hev, hchange⟩, hlatest⟩
      · refine ⟨hnothing.initial path offset hstart, le_max_of_le_left (Nat.le_of_eq ?_)⟩
        rw [startOffset, hstart]
        rfl
      · exact ⟨.inl rfl, Nat.zero_le _⟩
      · exact ⟨(hnothing.reported ev (List.mem_of_mem_take hev) path offset hchange).1,
          le_max_of_le_right (Nat.le_of_eq hlatest)⟩

end Run

/-! ## A stream with one record -/

/-- A store with one stream. -/
def oneStream (content : Bytes) : Store where
  bucketNames := [str "b"]
  streamSetNames _ := [str "s"]
  streamNames _ _ := [str "n"]
  file bucket set stream :=
    if bucket = str "b" ∧ set = str "s" ∧ stream = str "n" then some content else none

/-- A record is appended to the stream, which is empty at first. -/
def oneAppended : StreamHistory where
  records _ := [⟨[8, 1], { version := some 1 }, rfl⟩]
  events := [⟨.streamAppended (str "/b/s/n") 4, oneStream [1, 2, 8, 1]⟩]
  written := by
    intro ev hev path bucket set stream content _ hfile
    obtain rfl := List.mem_singleton.mp hev
    rw [oneStream] at hfile
    dsimp only at hfile
    split at hfile
    · obtain rfl := Option.some.inj hfile
      exact List.prefix_refl _
    · cases hfile
  within := by
    intro ev hev path length hchange
    obtain rfl := List.mem_singleton.mp hev
    cases hchange
    exact ⟨str "b", str "s", str "n", [1, 2, 8, 1], by decide, rfl, by decide⟩
  nondecreasing := List.pairwise_singleton _ _

/-- A manager of that stream with a subscription to everything. -/
def oneSubscription : PersistedStateManager :=
  let m := new (oneStream [1]) 60000
  let r := m.newRecord 0 { type := .envelope, id := str "i", paths := [str "/"] }
  { m with subscriptions := [r], nodup := List.nodup_singleton _ }

/-- The subscription does not receive the envelope. -/
theorem not_streamed_one :
    ¬ Streamed (fun _ state => state) oneAppended.records oneSubscription
      (oneAppended.events.take 1) := by
  intro h
  have hreceived := h.received_eq (str "/b/s/n") _ (List.mem_singleton_self _) (by decide)
  rw [calls_run] at hreceived
  have hdue : (due (oneAppended.records (str "/b/s/n")) 1 4
      { type := .envelope, id := str "i", paths := [str "/"] }).length = 1 := by decide
  have hlength := congrArg List.length hreceived
  rw [List.length_map] at hlength
  exact absurd (hlength.trans hdue) (by decide)

end PersistedStateManager

end Zippylog
