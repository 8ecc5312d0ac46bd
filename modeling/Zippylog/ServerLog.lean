import Zippylog.RecordSizes
import Zippylog.ZeroMQ

/-!
# The log of the server

What `Server::Pump` does with the messages on the logger socket: every frame becomes a record of
the log stream of the hour. Whether such a stream can be read back depends on the frames, and these
on how the sender calls `SendEnvelope`. The components use two overloads of it, by the type of
their socket variable: a reference sends the envelope, and a pointer an empty frame in front of it,
which the reader takes for the end of the stream.

- `LogSource`: the senders, and the overload that each of them uses.
- `Holds.step`, `Holds.run`: the open stream of an hour has one record for every frame that was
  received in that hour, whatever is flushed and whatever the library writes out.
- `log_reads_back`: for which messages the log can be read.

A write succeeds, and the log streams are new.
-/

namespace Zippylog

open Wire

/-- Who sends to the logger socket. -/
inductive LogSource where
  /-- `LOG_MESSAGE` of `server.cpp` -/
  | server
  /-- `LOG_MESSAGE` of `request_processor.cpp` -/
  | requestProcessor
  /-- `StoreWatcher` -/
  | storeWatcher
  /-- `Watcher::SendChangeMessage` -/
  | watcher
  deriving DecidableEq

/-- The socket variable of the sender is a pointer, and it is not dereferenced. -/
def LogSource.byPointer : LogSource → Bool
  | server | watcher => true
  | requestProcessor | storeWatcher => false

/-- An envelope that is sent to the logger socket, and the hour at which each of its
frames is written. A message has been added to it. -/
structure LogMessage where
  source : LogSource
  e : Envelope
  ne_nil : e.message ≠ []
  hours : Nat → Int

/-- The frames of a log message. -/
def LogMessage.frames (m : LogMessage) : List Frame :=
  if m.source.byPointer then ZeroMQ.sendEnvelopePtr m.e false
  else ZeroMQ.sendEnvelope m.e false false

/-- The log streams that are open, by hour. -/
structure ServerLog where
  writeLogs : Bool
  streams : Int → Option FileOutputStream := fun _ => none

namespace ServerLog

/-- `store->WriteEnvelope(log_bucket, log_stream_set, data, length)`: the stream of
the hour is opened when it is not. -/
def writeEnvelope (log : ServerLog) (hour : Int) (data : Bytes) : ServerLog :=
  let stream := (log.streams hour).getD (FileOutputStream.ofFile none)
  { log with streams := fun h => if h = hour then some (stream.writeData data) else log.streams h }

/-- The logger branch of `Pump`, at frame `i` of a message. -/
def receive (hours : Nat → Int) : Nat → List Frame → ServerLog → ServerLog
  | _, [], log => log
  | i, f :: fs, log =>
    let log := if log.writeLogs then log.writeEnvelope (hours i) f.data else log
    if f.more then receive hours (i + 1) fs log else log

/-- What happens to the log: `Pump` takes a message or flushes the streams, or the
library writes out a part of a buffer. -/
inductive Step where
  | receive (m : LogMessage)
  | flushOutputStreams
  | spill (hour : Int) (n : Nat)

def step (log : ServerLog) : Step → ServerLog
  | .receive m => receive m.hours 0 m.frames log
  | .flushOutputStreams => { log with streams := fun h => (log.streams h).map .flush }
  | .spill hour n =>
    { log with
      streams := fun h => if h = hour then (log.streams h).map (·.spill n) else log.streams h }

def run (log : ServerLog) (steps : List Step) : ServerLog := steps.foldl step log

/-- The file of an hour, once its stream is closed. -/
def file (log : ServerLog) (hour : Int) : Option Bytes :=
  (log.streams hour).map FileOutputStream.destroy

/-! ## What is written -/

/-- The envelope that a step writes in an hour, in the last frame of a message. -/
def Step.logged? (hour : Int) : Step → Option Envelope
  | .receive m => if m.hours (m.frames.length - 1) = hour then some m.e else none
  | .flushOutputStreams | .spill _ _ => none

/-- The envelopes that are written in an hour, in the order they are received. -/
def logged (hour : Int) (steps : List Step) : List Envelope :=
  steps.filterMap (Step.logged? hour)

/-- The bodies that a step writes in an hour. -/
def Step.bodies (hour : Int) : Step → List Bytes
  | .receive m => (m.frames.mapIdx fun i f => if m.hours i = hour then [f.data] else []).flatten
  | .flushOutputStreams | .spill _ _ => []

/-- A log file reads back as the given envelopes: they are what `ReadEnvelope` returns, and then
nothing is left of the file. -/
def ReadsBack (file : Option Bytes) (es : List Envelope) : Prop :=
  (file = none ∧ es = []) ∨
    ∃ content s ens s', file = some content ∧ InputStream.ofFile (some content) 0 = .ok s ∧
      InputStream.Reads s ens s' ∧ ens.map Prod.fst = es ∧ s'.AtEnd

/-- No message is sent by the overload for pointers. -/
def ByReference (steps : List Step) : Prop :=
  ∀ m, .receive m ∈ steps → m.source.byPointer = false

/-- Every envelope is shorter than `n` bytes. -/
def Shorter (n : Nat) (steps : List Step) : Prop :=
  ∀ m, .receive m ∈ steps → m.e.serialize.length < n

/-- The stream of an hour has these records. -/
def Holds (log : ServerLog) (hour : Int) (bodies : List Bytes) : Prop :=
  (log.streams hour = none ∧ bodies = []) ∨ ∃ s, log.streams hour = some s ∧ s.Holds bodies

/-! ## The writer -/

section Writing

variable {log : ServerLog} {hour : Int} {bodies : List Bytes}

/-- **The step lemma**: a payload goes to the file of its hour, and to no other. -/
theorem Holds.writeEnvelope (h : log.Holds hour bodies) (hour' : Int) {data : Bytes}
    (hlen : data.length < 2 ^ 31) :
    (log.writeEnvelope hour' data).Holds hour (bodies ++ if hour' = hour then [data] else []) := by
  have hlen : data.length < 2 ^ 32 := hlen.trans (by decide)
  by_cases hhour : hour' = hour
  · subst hhour
    rw [if_pos rfl]
    rcases h with ⟨hnone, rfl⟩ | ⟨s, hsome, hs⟩
    · refine .inr ⟨_, if_pos rfl, ?_⟩
      rw [hnone, Option.getD_none]
      exact (FileOutputStream.holds_ofFile_empty rfl).writeData hlen
    · refine .inr ⟨_, if_pos rfl, ?_⟩
      rw [hsome, Option.getD_some]
      exact hs.writeData hlen
  -- a write in another hour
  · have hsame : (log.writeEnvelope hour' data).streams hour = log.streams hour :=
      if_neg fun h => hhour h.symm
    rw [if_neg hhour, List.append_nil, Holds, hsame]
    exact h

/-- By reference the envelope is the only frame. -/
theorem sendEnvelope_frames (e : Envelope) :
    ZeroMQ.sendEnvelope e false false = [⟨e.serialize, false⟩] := by
  simp [ZeroMQ.sendEnvelope, ZeroMQ.encode, Envelope.toZmqMessage]

/-- By pointer an empty frame is in front of it. -/
theorem sendEnvelopePtr_frames (e : Envelope) :
    ZeroMQ.sendEnvelopePtr e false = [⟨[], true⟩, ⟨e.serialize, false⟩] := by
  simp [ZeroMQ.sendEnvelopePtr, ZeroMQ.sendEnvelopeTo, ZeroMQ.encode, Envelope.toZmqMessage]

theorem receive_reference (hlogs : log.writeLogs = true) (hours : Nat → Int) (e : Envelope) :
    receive hours 0 (ZeroMQ.sendEnvelope e false false) log =
      log.writeEnvelope (hours 0) e.serialize := by
  rw [sendEnvelope_frames, receive, hlogs]
  rfl

theorem receive_pointer (hlogs : log.writeLogs = true) (hours : Nat → Int) (e : Envelope) :
    receive hours 0 (ZeroMQ.sendEnvelopePtr e false) log =
      (log.writeEnvelope (hours 0) []).writeEnvelope (hours 1) e.serialize := by
  have hlogs' : (log.writeEnvelope (hours 0) []).writeLogs = true := hlogs
  rw [sendEnvelopePtr_frames, receive, hlogs]
  simp only [if_true]
  rw [receive, hlogs']
  rfl

/-- The bodies of a message by its overload. -/
theorem bodies_receive (hour : Int) (m : LogMessage) :
    (Step.receive m).bodies hour =
      if m.source.byPointer then
        (if m.hours 0 = hour then [[]] else []) ++
          (if m.hours 1 = hour then [m.e.serialize] else [])
      else if m.hours 0 = hour then [m.e.serialize] else [] := by
  rw [Step.bodies, LogMessage.frames]
  split
  · simp [sendEnvelopePtr_frames]
  · simp [sendEnvelope_frames]

/-- **Step lemma**. -/
theorem Holds.step (h : log.Holds hour bodies) (hlogs : log.writeLogs = true) (s : Step)
    (hlen : ∀ m, s = .receive m → m.e.serialize.length < 2 ^ 31) :
    (log.step s).Holds hour (bodies ++ s.bodies hour) ∧ (log.step s).writeLogs = true := by
  cases s with
  | receive m =>
    have hlength := hlen m rfl
    rw [ServerLog.step, bodies_receive, LogMessage.frames]
    split
    -- the delimiter is written as a record too
    · rw [receive_pointer hlogs, ← List.append_assoc]
      have hempty : ([] : Bytes).length < 2 ^ 31 := Nat.two_pow_pos 31
      have hdelimiter := h.writeEnvelope (m.hours 0) hempty
      exact ⟨hdelimiter.writeEnvelope _ hlength, hlogs⟩
    · rw [receive_reference hlogs]
      exact ⟨h.writeEnvelope _ hlength, hlogs⟩
  | flushOutputStreams =>
    rw [Step.bodies, List.append_nil]
    refine ⟨?_, hlogs⟩
    rcases h with ⟨hnone, rfl⟩ | ⟨s, hsome, hs⟩
    · exact .inl ⟨congrArg (Option.map FileOutputStream.flush) hnone, rfl⟩
    · exact .inr ⟨s.flush, congrArg (Option.map FileOutputStream.flush) hsome, hs.flush⟩
  | spill hour' n =>
    rw [Step.bodies, List.append_nil]
    refine ⟨?_, hlogs⟩
    by_cases hhour : hour = hour'
    · have hspill : (log.step (.spill hour' n)).streams hour = (log.streams hour).map (·.spill n) :=
        if_pos hhour
      rw [Holds, hspill]
      rcases h with ⟨hnone, rfl⟩ | ⟨s, hsome, hs⟩
      · exact .inl ⟨congrArg (Option.map (·.spill n)) hnone, rfl⟩
      · exact .inr ⟨s.spill n, congrArg (Option.map (·.spill n)) hsome, hs.spill n⟩
    · have hsame : (log.step (.spill hour' n)).streams hour = log.streams hour := if_neg hhour
      rw [Holds, hsame]
      exact h

/-- **Run lemma**. -/
theorem Holds.run (steps : List Step) (hlen : Shorter (2 ^ 31) steps) :
    ∀ {log : ServerLog} {bodies : List Bytes}, log.Holds hour bodies → log.writeLogs = true →
      (log.run steps).Holds hour (bodies ++ steps.flatMap (Step.bodies hour)) := by
  induction steps with
  | nil =>
    intro log bodies h _
    rwa [List.flatMap_nil, List.append_nil]
  | cons s steps ih =>
    intro log bodies h hlogs
    obtain ⟨hstep, hlogs'⟩ := h.step hlogs s fun m hm => hlen m (hm ▸ List.mem_cons_self)
    rw [List.flatMap_cons, ← List.append_assoc]
    exact ih (fun m hm => hlen m (List.mem_cons_of_mem _ hm)) hstep hlogs'

end Writing

theorem holds_start (hour : Int) : Holds { writeLogs := true } hour [] := .inl ⟨rfl, rfl⟩

/-- The file of an hour is absent and empty, or has the records. -/
theorem Holds.file_eq {log : ServerLog} {hour : Int} {bodies : List Bytes}
    (h : log.Holds hour bodies) :
    (log.file hour = none ∧ bodies = []) ∨ log.file hour = some (streamFile bodies) := by
  rcases h with ⟨hnone, rfl⟩ | ⟨s, hsome, hs⟩
  · exact .inl ⟨congrArg (Option.map FileOutputStream.destroy) hnone, rfl⟩
  · refine .inr ?_
    rw [file, hsome, Option.map_some, hs.destroy]

/-! ## The reader -/

theorem serialize_pos (m : LogMessage) : 0 < m.e.serialize.length :=
  List.length_pos_of_ne_nil (Envelope.serialize_ne_nil m.ne_nil)

theorem logged_cons (hour : Int) (s : Step) (steps : List Step) :
    logged hour (s :: steps) = (s.logged? hour).toList ++ logged hour steps := by
  rw [logged, List.filterMap_cons]
  split <;> simp_all [logged]

/-- The envelope of a message is in its first frame, or behind the delimiter. -/
theorem logged?_receive (hour : Int) (m : LogMessage) :
    (Step.receive m).logged? hour =
      if m.hours (if m.source.byPointer then 1 else 0) = hour then some m.e else none := by
  rw [Step.logged?, LogMessage.frames]
  split <;> rfl

/-- The records of messages that are sent by reference. -/
theorem bodies_of_byReference {steps : List Step} (h : ByReference steps) (hour : Int) :
    steps.flatMap (Step.bodies hour) = (logged hour steps).map Envelope.serialize := by
  induction steps with
  | nil => rfl
  | cons s steps ih =>
    have hrest := ih fun m hm => h m (List.mem_cons_of_mem _ hm)
    rw [List.flatMap_cons, hrest, logged_cons, List.map_append]
    congr 1
    cases s with
    | receive m =>
      have hreference := h m List.mem_cons_self
      rw [bodies_receive, logged?_receive, hreference]
      simp only [Bool.false_eq_true, if_false]
      split <;> rfl
    | flushOutputStreams => rfl
    | spill hour' n => rfl

/-- Every envelope has a record. -/
theorem length_logged?_le (hour : Int) (s : Step) :
    (s.logged? hour).toList.length ≤ (s.bodies hour).length := by
  cases s with
  | receive m =>
    rw [bodies_receive, logged?_receive]
    -- both have one element, or the list of the log has none
    split
    · split <;> simp
    · split <;> simp
  | flushOutputStreams => exact Nat.le_refl _
  | spill hour' n => exact Nat.le_refl _

theorem length_logged_le (hour : Int) (steps : List Step) :
    (logged hour steps).length ≤ (steps.flatMap (Step.bodies hour)).length := by
  induction steps with
  | nil => exact Nat.le_refl _
  | cons s steps ih =>
    rw [logged_cons, List.flatMap_cons, List.length_append, List.length_append]
    exact Nat.add_le_add (length_logged?_le hour s) ih

/-- A delimiter is a record too many. -/
theorem length_logged_lt {steps : List Step} {m : LogMessage} (hm : .receive m ∈ steps)
    (hpointer : m.source.byPointer = true) :
    (logged (m.hours 0) steps).length < (steps.flatMap (Step.bodies (m.hours 0))).length := by
  induction steps with
  | nil => cases hm
  | cons s steps ih =>
    rw [logged_cons, List.flatMap_cons, List.length_append, List.length_append]
    rcases List.mem_cons.mp hm with rfl | hm
    · refine Nat.add_lt_add_of_lt_of_le ?_ (length_logged_le _ _)
      rw [bodies_receive, logged?_receive, hpointer]
      -- the hour can change between the delimiter and the envelope
      simp only [if_true, List.length_append, List.length_singleton]
      split
      · exact Nat.lt_succ_self _
      · exact Nat.succ_pos _
    · exact Nat.add_lt_add_of_le_of_lt (length_logged?_le _ _) (ih hm)

/-- Messages that are sent by reference can be read. -/
theorem readsBack_of_byReference {steps : List Step} (h : ByReference steps)
    (hsize : Shorter (Meter.maxBody + 1) steps) (hour : Int) :
    ReadsBack ((run { writeLogs := true } steps).file hour) (logged hour steps) := by
  have hlen : Shorter (2 ^ 31) steps := fun m hm => Nat.lt_trans (hsize m hm) (by decide)
  have hholds := (holds_start hour).run steps hlen rfl
  rw [List.nil_append, bodies_of_byReference h] at hholds
  rcases hholds.file_eq with ⟨hnone, hnil⟩ | hfile
  -- nothing was logged in this hour
  · exact .inl ⟨hnone, List.map_eq_nil_iff.mp hnil⟩
  · have hmem : ∀ e ∈ logged hour steps,
        0 < e.serialize.length ∧ e.serialize.length ≤ Meter.maxBody := by
      intro e he
      obtain ⟨s, hs, hlogged⟩ := List.mem_filterMap.mp he
      cases s with
      | receive m =>
        rw [Step.logged?] at hlogged
        split at hlogged
        · obtain rfl := Option.some.inj hlogged
          exact ⟨serialize_pos m, Nat.le_of_lt_succ (hsize m hs)⟩
        · cases hlogged
      | flushOutputStreams => cases hlogged
      | spill hour' n => cases hlogged
    have hparses := InputStream.parses_map_serialize (logged hour steps)
    obtain ⟨s, hopen, hat, -, -⟩ :=
      InputStream.ofFile_at (records ((logged hour steps).map Envelope.serialize))
    rw [← List.append_nil (records _)] at hat
    obtain ⟨s', pos, m, hreads, hend⟩ :=
      hat.reads hparses InputStream.full_begin (List.forall_mem_map.mpr hmem)
    exact .inr ⟨_, s, _, s', hfile, hopen, hreads, map_fst_zip_bytesReads hparses, hend.atEnd⟩

/-- What is written is what was sent, so it is no longer. -/
theorem length_of_mem_bodies {steps : List Step} (hsize : Shorter (2 ^ 31) steps) {hour : Int}
    {body : Bytes} (h : body ∈ steps.flatMap (Step.bodies hour)) : body.length < 2 ^ 31 := by
  obtain ⟨s, hs, hbody⟩ := List.mem_flatMap.mp h
  cases s with
  | receive m =>
    have hlength := hsize m hs
    have hzero : ([] : Bytes).length < 2 ^ 31 := Nat.two_pow_pos 31
    rw [bodies_receive] at hbody
    split at hbody
    · rcases List.mem_append.mp hbody with hbody | hbody <;> split at hbody
      · exact List.mem_singleton.mp hbody ▸ hzero
      · cases hbody
      · exact List.mem_singleton.mp hbody ▸ hlength
      · cases hbody
    · split at hbody
      · exact List.mem_singleton.mp hbody ▸ hlength
      · cases hbody
  | flushOutputStreams => cases hbody
  | spill hour' n => cases hbody

/-- A log that can be read has no delimiter in it. -/
theorem byReference_of_readsBack {steps : List Step} (hsize : Shorter (2 ^ 31) steps)
    (h : ∀ hour, ReadsBack ((run { writeLogs := true } steps).file hour) (logged hour steps)) :
    ByReference steps := by
  intro m hm
  cases hpointer : m.source.byPointer with
  | false => rfl
  | true =>
    exfalso
    have hholds := (holds_start (m.hours 0)).run steps hsize rfl
    -- the stream with the delimiter has more records than envelopes
    have hlt := length_logged_lt hm hpointer
    rw [List.nil_append] at hholds
    rcases h (m.hours 0) with ⟨hnone, -⟩ | ⟨content, s, ens, s', hfile, hopen, hreads, hens, hend⟩
    · rcases hholds.file_eq with ⟨-, hnil⟩ | hsome
      · rw [hnil] at hlt
        exact absurd hlt (Nat.not_lt_zero _)
      · exact absurd (hnone.symm.trans hsome).symm (Option.some_ne_none _)
    · rcases hholds.file_eq with ⟨hnone, -⟩ | hsome
      · exact absurd (hnone.symm.trans hfile).symm (Option.some_ne_none _)
      · obtain rfl := Option.some.inj (hfile.symm.trans hsome)
        rw [← hens, List.length_map] at hlt
        have hfront : s.InFront [1] (steps.flatMap (Step.bodies (m.hours 0))) [] :=
          InputStream.inFront_ofFile (by rwa [List.append_nil])
        exact hreads.not_atEnd (fun _ => length_of_mem_bodies hsize) hfront.before hlt hend

/-- **The log** reads back, up to the end of each of its files, when every message is sent by
reference and none is too long for the coded stream of the reader; and only if every message is
sent by reference. -/
theorem log_reads_back (steps : List Step) :
    (ByReference steps ∧ Shorter (Meter.maxBody + 1) steps →
      ∀ hour, ReadsBack ((run { writeLogs := true } steps).file hour) (logged hour steps)) ∧
    (Shorter (2 ^ 31) steps →
      (∀ hour, ReadsBack ((run { writeLogs := true } steps).file hour) (logged hour steps)) →
      ByReference steps) := by
  constructor
  · exact fun h hour => readsBack_of_byReference h.1 h.2 hour
  · exact byReference_of_readsBack

/-- A message of the server, at one time. -/
def serverMessage : LogMessage where
  source := .server
  e := { message := [[]], messageNamespace := [1], messageType := [1], createTime := some 5 }
  ne_nil := List.cons_ne_nil _ _
  hours := fun _ => 0

theorem not_log_reads_back_server :
    ¬ ∀ hour, ReadsBack ((run { writeLogs := true } [.receive serverMessage]).file hour)
      (logged hour [.receive serverMessage]) := by
  intro h
  have hsize : Shorter (2 ^ 31) [.receive serverMessage] := by
    intro m hm
    obtain rfl : m = serverMessage := by
      cases List.mem_singleton.mp hm
      rfl
    decide
  have hreference := byReference_of_readsBack hsize h serverMessage List.mem_cons_self
  exact Bool.false_ne_true hreference.symm

end ServerLog

end Zippylog
