import Zippylog.Server

/-!
# Runs of the server device

`Pump` serves one socket in each call: it looks through the sockets in a fixed order, takes the
message of the first one that has any, and sends it on, and some of what it sends on makes it send
a log message to itself. So the server is a set of queues that are polled in an order, and this
module shows that it is exactly that: `Simulates` says that each socket has the frames of a queue,
and `Simulates.run` follows the sockets and the queues through every run from the construction on,
whatever is called and whatever fails.

What fails is an operation of `Start`, the restart of a timer, `poll`, or a device. A `send` and a
`recv` succeed, and the calls are those that return.

- `forwarded_exactly`: what arrives is sent on, whole, once and in order.
- `taken_iff_polls`: after how many calls of `Pump` a message is taken.
- `logged_exactly`: what is sent to the logger socket is written, once and in order.
-/

namespace Zippylog

open Wire

namespace Server

variable {s : Server} {q : Source → List Message}

/-! ## Frames and messages -/

@[simp] theorem frames_nil : frames [] = [] := rfl

@[simp] theorem frames_cons (m : Message) (ms : List Message) :
    frames (m :: ms) = ZeroMQ.multipart m.val ++ frames ms := rfl

@[simp] theorem frames_append (ms ms' : List Message) :
    frames (ms ++ ms') = frames ms ++ frames ms' := List.flatMap_append

theorem frames_eq_nil_iff {ms : List Message} : frames ms = [] ↔ ms = [] := by
  cases ms with
  | nil => exact iff_of_true rfl rfl
  | cons m ms =>
    refine iff_of_false (fun h => ?_) (List.cons_ne_nil _ _)
    have hlength := congrArg List.length (List.append_eq_nil_iff.mp h).1
    rw [ZeroMQ.length_multipart] at hlength
    exact m.property (List.eq_nil_of_length_eq_zero hlength)

/-- The logger branch takes one message. -/
theorem receiveLog_multipart (hours : Nat → Int) (rest : List Frame) {parts : List Bytes}
    (h : parts ≠ []) :
    ∀ (i : Nat) (store : ServerLog),
      receiveLog hours i (ZeroMQ.multipart parts ++ rest) store =
        (ServerLog.receive hours i (ZeroMQ.multipart parts) store, rest, false) := by
  induction parts with
  | nil => exact absurd rfl h
  | cons part parts ih =>
    intro i store
    cases parts with
    | nil => rfl
    | cons part' parts =>
      rw [ZeroMQ.multipart_cons _ (List.cons_ne_nil _ _), List.cons_append, receiveLog,
        ServerLog.receive]
      exact ih (List.cons_ne_nil _ _) (i + 1) _

/-! ## The simulation -/

/-- The server `s` with the queues `q`. Once `Start` has returned there is a connected
`log_client_sock`, and the devices are on threads. -/
structure Simulates (s : Server) (q : Source → List Message) : Prop where
  waiting : ∀ source, s.waiting source = frames (q source)
  connected : s.initialized = true → s.logClientSock = .connected
  watcher : s.initialized = true → s.storeWatcher ≠ some .constructed
  writer : s.initialized = true → s.storeWriter ≠ some .constructed

/-- A log message of a handler arrives if the socket is connected. -/
def logged (s : Server) (now : UInt64) (record : LogRecord) :
    List (Polling.Event Source Message UInt64) :=
  if s.logClientSock = .connected then [.arrive (.logger, record.toMessage s.id now)] else []

/-- The timers do not end the call, and `poll` returns. -/
def PumpInput.polls (input : PumpInput) : Bool :=
  (!input.flushSignaled || input.flushStarts) && (!input.checkSignaled || input.checkStarts) &&
    input.polled

/-- What happens to the queues. -/
def events (s : Server) : Action → List (Polling.Event Source Message UInt64)
  | .arrive source m => [.arrive (source, m)]
  | .spill _ _ | .start _ | .shutdown => []
  | .pump input =>
    if s.initialized then
      (if input.flushSignaled then
        [.arrive (.logger, LogRecord.flushOutputStreams.toMessage s.id input.now)] else []) ++
      if input.polls then [.poll input.now] else []
    else []
  | .onFirstRun throws now =>
    if (s.start throws).2 = none then
      (s.start throws).1.logged now
        (.create (s.start throws).1.storePath (s.start throws).1.listenEndpoints)
    else []
  | .onRunStart throws now =>
    if (s.start throws).2 = none then (s.start throws).1.logged now .runStart else []
  | .onRunFinish now => if s.shutdown.2 = none then s.shutdown.1.logged now .runFinish else []

/-- What happens to the queues in a run. -/
def trace : Server → List Action → List (Polling.Event Source Message UInt64)
  | _, [] => []
  | s, a :: actions => s.events a ++ trace (s.step a) actions

/-- The frames that are sent on a socket for the messages that are taken. -/
def forwarded (sink : Sink) (cs : List (Source × Message)) : List Frame :=
  frames ((cs.filter fun c => c.1.sink? = some sink).map Prod.snd)

@[simp] theorem forwarded_nil (sink : Sink) : forwarded sink [] = [] := rfl

@[simp] theorem forwarded_append (sink : Sink) (cs cs' : List (Source × Message)) :
    forwarded sink (cs ++ cs') = forwarded sink cs ++ forwarded sink cs' := by
  rw [forwarded, List.filter_append, List.map_append, frames_append]
  rfl

/-! ## `Start` -/

/-- What no call but `Pump` changes, and no arrival. -/
structure SameSockets (s s' : Server) : Prop where
  id : s'.id = s.id
  storePath : s'.storePath = s.storePath
  listenEndpoints : s'.listenEndpoints = s.listenEndpoints
  waiting : s'.waiting = s.waiting
  sent : s'.sent = s.sent
  store : s'.store = s.store

theorem SameSockets.rfl : SameSockets s s := ⟨.refl _, .refl _, .refl _, .refl _, .refl _, .refl _⟩

theorem SameSockets.trans {s s' s'' : Server} (h : SameSockets s s') (h' : SameSockets s' s'') :
    SameSockets s s'' :=
  ⟨h'.id.trans h.id, h'.storePath.trans h.storePath, h'.listenEndpoints.trans h.listenEndpoints,
    h'.waiting.trans h.waiting, h'.sent.trans h.sent, h'.store.trans h.store⟩

theorem sameSockets_apply (s : Server) (op : StartOp) : SameSockets s (op.apply s) := by
  cases op <;> exact ⟨.refl _, .refl _, .refl _, .refl _, .refl _, .refl _⟩

/-- What a start does before it is through touches no socket that has messages. -/
theorem sameSockets_runOps (throws : Nat → Bool) (ops : List StartOp) :
    ∀ (n : Nat) (s : Server), SameSockets s (runOps throws n ops s).1 := by
  induction ops with
  | nil => exact fun n s => .rfl
  | cons op ops ih =>
    intro n s
    rw [runOps]
    split
    · exact .rfl
    · exact (sameSockets_apply s op).trans (ih _ _)

/-- Operations none of which throws. -/
theorem runOps_eq_none {throws : Nat → Bool} (ops : List StartOp) :
    ∀ {n : Nat} {s : Server}, (runOps throws n ops s).2 = none →
      (runOps throws n ops s).1 = ops.foldl StartOp.apply s := by
  induction ops with
  | nil => exact fun _ => rfl
  | cons op ops ih =>
    intro n s h
    rw [runOps] at h ⊢
    split
    · rename_i hthrows
      rw [if_pos hthrows] at h
      exact absurd h (Option.some_ne_none _)
    · rename_i hthrows
      rw [if_neg hthrows] at h
      exact ih h

/-- The server whose `Start` has returned. -/
def started (s : Server) : Server :=
  { s with
    startStarted := true
    initialized := true
    active := false
    storeWriter := some .async
    storeWatcher := some .async
    requestProcessors := s.requestProcessors + s.numberWorkerThreads.toNat
    persistedStateReactors := s.persistedStateReactors + s.numberPersistedReactorThreads.toNat
    logClientSock := .connected }

theorem foldl_createRequestProcessorDevice (n : Nat) :
    ∀ s : Server, (List.replicate n StartOp.createRequestProcessorDevice).foldl StartOp.apply s =
      { s with requestProcessors := s.requestProcessors + n } := by
  induction n with
  | zero => exact fun s => rfl
  | succ n ih =>
    intro s
    rw [List.replicate_succ, List.foldl_cons, ih]
    simp only [StartOp.apply, Nat.add_assoc, Nat.add_comm 1 n]

/-- The loop that makes the reactors makes as many as it is told. -/
theorem foldl_createPersistedStateReactorDevice (n : Nat) :
    ∀ s : Server,
      (List.replicate n StartOp.createPersistedStateReactorDevice).foldl StartOp.apply s =
        { s with persistedStateReactors := s.persistedStateReactors + n } := by
  induction n with
  | zero => exact fun s => rfl
  | succ n ih =>
    intro s
    rw [List.replicate_succ, List.foldl_cons, ih]
    simp only [StartOp.apply, Nat.add_assoc, Nat.add_comm 1 n]

theorem foldl_bindClientsSock (endpoints : List Bytes) (s : Server) :
    (endpoints.map StartOp.bindClientsSock).foldl StartOp.apply s = s := by
  induction endpoints with
  | nil => rfl
  | cons endpoint endpoints ih => exact ih

theorem foldl_startOps (s : Server) :
    s.startOps.foldl StartOp.apply { s with startStarted := true, active := false } =
      { s.started with initialized := s.initialized } := by
  unfold startOps started
  rw [List.foldl_append, List.foldl_append, List.foldl_append, List.foldl_append,
    List.foldl_append]
  simp only [List.foldl_cons, List.foldl_nil, StartOp.apply,
    foldl_createRequestProcessorDevice, foldl_createPersistedStateReactorDevice,
    foldl_bindClientsSock]

/-- Operations do not end `Start`. -/
theorem initialized_runOps (throws : Nat → Bool) (ops : List StartOp) :
    ∀ (n : Nat) (s : Server), (runOps throws n ops s).1.initialized = s.initialized ∧
      (runOps throws n ops s).1.startStarted = s.startStarted := by
  induction ops with
  | nil => exact fun n s => ⟨rfl, rfl⟩
  | cons op ops ih =>
    intro n s
    rw [runOps]
    split
    · exact ⟨rfl, rfl⟩
    · have hop : (op.apply s).initialized = s.initialized ∧
          (op.apply s).startStarted = s.startStarted := by
        cases op <;> exact ⟨rfl, rfl⟩
      exact ⟨(ih _ _).1.trans hop.1, (ih _ _).2.trans hop.2⟩

/-- **What `Start` does**: nothing behind a call that returned, everything in a first call that
returns, and otherwise it throws and never returns again. -/
theorem start_cases (throws : Nat → Bool) (s : Server) :
    (s.initialized = true ∧ s.start throws = (s, none)) ∨
    (s.initialized = false ∧ s.startStarted = false ∧ s.start throws = (s.started, none)) ∨
    (s.initialized = false ∧ (s.start throws).2 ≠ none ∧
      (s.start throws).1.startStarted = true ∧ (s.start throws).1.initialized = false ∧
      SameSockets s (s.start throws).1) := by
  cases hinitialized : s.initialized with
  | true =>
    refine .inl ⟨rfl, ?_⟩
    rw [start, hinitialized, Bool.not_true, Bool.and_false]
    rfl
  | false =>
    cases hstarted : s.startStarted with
    -- `Start` was called before, and has not returned
    | true =>
      refine .inr (.inr ⟨rfl, ?_⟩)
      rw [start, hinitialized, hstarted]
      exact ⟨Option.some_ne_none _, hstarted, hinitialized, .rfl⟩
    | false =>
      -- the operations run in order, up to the first that throws
      have hsame := sameSockets_runOps throws s.startOps 0
        { s with startStarted := true, active := false }
      have hflags := initialized_runOps throws s.startOps 0
        { s with startStarted := true, active := false }
      have hall := @runOps_eq_none throws s.startOps 0
        { s with startStarted := true, active := false }
      have hfirst : ¬ (s.startStarted && !s.initialized) = true := by
        rw [hstarted]
        exact Bool.false_ne_true
      have hagain : ¬ s.initialized = true := by
        rw [hinitialized]
        exact Bool.false_ne_true
      rw [start, if_neg hfirst, if_neg hagain]
      split
      · rename_i s' failure hops
        rw [hops] at hsame hflags
        refine .inr (.inr ⟨rfl, Option.some_ne_none _, hflags.2, ?_, ?_⟩)
        · exact hflags.1.trans hinitialized
        · exact ⟨hsame.id, hsame.storePath, hsame.listenEndpoints, hsame.waiting, hsame.sent,
            hsame.store⟩
      · rename_i s' hops
        rw [hops] at hall
        have hs' := hall rfl
        refine .inr (.inl ⟨rfl, rfl, ?_⟩)
        rw [foldl_startOps] at hs'
        obtain rfl : s' = _ := hs'
        rfl

/-! ## `Shutdown` -/

/-- The server without its devices. -/
def stopped (s : Server) : Server :=
  { s with
    active := true
    storeWriter := none
    storeWatcher := none
    requestProcessors := 0
    persistedStateReactors := 0 }

theorem shutdown_eq (hwatcher : s.storeWatcher ≠ some .constructed)
    (hwriter : s.storeWriter ≠ some .constructed) : s.shutdown = (s.stopped, none) := by
  unfold shutdown
  simp only [if_neg hwatcher, if_neg hwriter]
  rfl

/-- A `Shutdown` that throws leaves the device that has no thread, and its sockets alone. -/
theorem sameSockets_shutdown (s : Server) : SameSockets s s.shutdown.1 := by
  unfold shutdown
  dsimp only
  split
  · exact ⟨rfl, rfl, rfl, rfl, rfl, rfl⟩
  · split <;> exact ⟨rfl, rfl, rfl, rfl, rfl, rfl⟩

theorem initialized_shutdown (s : Server) : s.shutdown.1.initialized = s.initialized ∧
    s.shutdown.1.startStarted = s.startStarted ∧
    s.shutdown.1.logClientSock = s.logClientSock := by
  unfold shutdown
  dsimp only
  split
  · exact ⟨rfl, rfl, rfl⟩
  · split <;> exact ⟨rfl, rfl, rfl⟩

/-! ## `Pump` -/

/-- Every branch but the logger's. -/
theorem serve_eq {source : Source} {sink : Sink} (h : source.sink? = some sink) (input : PumpInput)
    (s : Server) : s.serve input source =
      match s.transfer source sink with
      | some s =>
        (match source.record? with
        | some record => s.sendLog input.now record
        | none => s, false)
      | none => (s, false) := by
  cases source with
  | logger => exact absurd h.symm (Option.some_ne_none _)
  | clients | worker | streaming =>
    obtain rfl := Option.some.inj h
    rfl
  | workerSubscriptions | streamingNotify | storeChangesInput =>
    obtain rfl := Option.some.inj h
    rw [serve]
    -- there is nothing to log
    cases s.transfer _ _ <;> rfl

/-- A queue of messages that gets another one is a queue of frames that gets those of the message.
-/
theorem frames_post {waiting : Source → List Frame}
    (h : ∀ source, waiting source = frames (q source))
    (c : Source × Message) (source : Source) :
    Function.update waiting c.1 (waiting c.1 ++ ZeroMQ.multipart c.2.val) source =
      frames (Polling.post q c source) := by
  by_cases hsource : source = c.1
  · subst hsource
    rw [Polling.post, Function.update_self, Function.update_self, frames_append, h]
    exact congrArg _ (List.append_nil _).symm
  · rw [Polling.post, Function.update_of_ne hsource, Function.update_of_ne hsource, h]

theorem frames_update {waiting : Source → List Frame}
    (h : ∀ source, waiting source = frames (q source))
    (i : Source) (ms : List Message) (source : Source) :
    Function.update waiting i (frames ms) source = frames (Function.update q i ms source) := by
  by_cases hsource : source = i
  · subst hsource
    rw [Function.update_self, Function.update_self]
  · rw [Function.update_of_ne hsource, Function.update_of_ne hsource, h]

/-- The socket that `Pump` finds is the queue that is polled. -/
theorem find?_order (h : ∀ source, s.waiting source = frames (q source)) (id : Bytes) :
    order.find? (fun source => !(s.waiting source).isEmpty) =
      ((polling id).next q).map Prod.fst := by
  have hall : ∀ sources : List Source,
      sources.find? (fun source => !(s.waiting source).isEmpty) =
        (sources.findSome? fun source => (q source).head?.map (source, ·)).map Prod.fst := by
    intro sources
    induction sources with
    | nil => rfl
    | cons source sources ih =>
      rw [List.find?_cons, List.findSome?_cons, h]
      cases hq : q source with
      | nil => exact ih
      | cons m ms =>
        have hne : (frames (m :: ms)).isEmpty = false := by
          rw [List.isEmpty_eq_false_iff]
          exact fun hnil => List.cons_ne_nil _ _ (frames_eq_nil_iff.mp hnil)
        rw [hne]
        rfl
  exact hall order

/-- **A message is served** as the queues say. -/
theorem serve_next (h : ∀ source, s.waiting source = frames (q source)) {source : Source}
    {m : Message} (hnext : (polling s.id).next q = some (source, m)) (input : PumpInput) :
    s.serve input source =
      ({ s with
        waiting := fun source => frames ((polling s.id).poll input.now q source)
        sent := fun sink => s.sent sink ++ forwarded sink [(source, m)]
        store := if source = .logger then
            s.store.receive input.hours 0 (ZeroMQ.multipart m.val) else s.store }, false) := by
  obtain ⟨hq, -⟩ := Polling.next_eq_some hnext
  have hwaiting : s.waiting source = ZeroMQ.multipart m.val ++ frames (q source).tail := by
    rw [h]
    conv_lhs => rw [hq]
    exact frames_cons m _
  have hrest := frames_update h source (q source).tail
  have hpoll : (polling s.id).poll input.now q =
      Polling.postAll (Function.update q source (q source).tail)
        (source.record?.toList.map fun record => (.logger, record.toMessage s.id input.now)) := by
    rw [Polling.poll, hnext]
    rfl
  -- the log is written to the store; all other messages are passed on
  cases hsink : source.sink? with
  | none =>
    obtain rfl : source = .logger := by
      cases source <;> first | rfl | exact absurd hsink (Option.some_ne_none _)
    have hlog : (polling s.id).poll input.now q =
        Function.update q .logger (q .logger).tail := hpoll
    rw [serve, hwaiting, receiveLog_multipart _ _ m.property, hlog]
    simp only [← hrest]
    simp [forwarded, hsink]
  | some sink =>
    have hlogger : source ≠ .logger := by
      rintro rfl
      cases hsink
    have hsent : Function.update s.sent sink (s.sent sink ++ ZeroMQ.multipart m.val) =
        fun sink' => s.sent sink' ++ forwarded sink' [(source, m)] := by
      funext sink'
      by_cases hsink' : sink' = sink
      · subst hsink'
        rw [Function.update_self]
        simp [forwarded, hsink]
      · rw [Function.update_of_ne hsink']
        simp [forwarded, hsink, Ne.symm hsink']
    have htransfer : s.transfer source sink = some { s with
        waiting := Function.update s.waiting source (frames (q source).tail)
        sent := fun sink' => s.sent sink' ++ forwarded sink' [(source, m)] } := by
      rw [transfer, hwaiting, ZeroMQ.transferMessage_multipart_append m.property, ← hsent]
      rfl
    rw [serve_eq hsink, htransfer, if_neg hlogger, hpoll]
    -- some of what is passed on is recorded in the log
    cases hrecord : source.record? with
    | none =>
      have hwaiting' := funext hrest
      simp only [Option.toList_none, List.map_nil, Polling.postAll, List.foldl_nil, ← hwaiting']
    | some record =>
      have hlog := funext (frames_post hrest (.logger, record.toMessage s.id input.now))
      simp only [Option.toList_some, List.map_cons, List.map_nil, Polling.postAll, List.foldl_cons,
        List.foldl_nil, ← hlog]
      rfl

/-- A log message is one that arrives. -/
theorem sendLog_eq (h : ∀ source, s.waiting source = frames (q source)) (now : UInt64)
    (record : LogRecord) : s.sendLog now record =
      { s with
        waiting := fun source =>
          frames (Polling.post q (.logger, record.toMessage s.id now) source) } := by
  rw [sendLog, ← funext (frames_post h (.logger, record.toMessage s.id now))]
  rfl

theorem arrive_eq (h : ∀ source, s.waiting source = frames (q source)) (source : Source)
    (m : Message) : s.arrive source m =
      { s with waiting := fun source' => frames (Polling.post q (source, m) source') } := by
  rw [arrive, ← funext (frames_post h (source, m))]

/-! ## The log -/

/-- The parts of a message, each with the hour at which it is written. -/
def writes (hours : Nat → Int) : Nat → List Bytes → List (Int × Bytes)
  | _, [] => []
  | i, part :: parts => (hours i, part) :: writes hours (i + 1) parts

theorem map_snd_writes (hours : Nat → Int) (parts : List Bytes) :
    ∀ i, (writes hours i parts).map Prod.snd = parts := by
  induction parts with
  | nil => exact fun i => rfl
  | cons part parts ih => exact fun i => congrArg (part :: ·) (ih (i + 1))

/-- The log is written, and its streams have these records. -/
def Written (store : ServerLog) (ws : List (Int × Bytes)) : Prop :=
  store.writeLogs = true ∧ ∀ hour, store.Holds hour (Polling.of hour ws)

theorem Written.writeEnvelope {store : ServerLog} {ws : List (Int × Bytes)} (h : Written store ws)
    (hour : Int) {data : Bytes} (hdata : data.length < 2 ^ 31) :
    Written (store.writeEnvelope hour data) (ws ++ [(hour, data)]) := by
  refine ⟨h.1, fun hour' => ?_⟩
  have hwrite := (h.2 hour').writeEnvelope hour hdata
  have hone : Polling.of hour' [(hour, data)] = if hour = hour' then [data] else [] := by
    by_cases hhour : hour = hour' <;> simp [Polling.of, hhour]
  rwa [Polling.of_append, hone]

/-- The parts of one message are written in their order, each in its hour. -/
theorem Written.receive (hours : Nat → Int) (parts : List Bytes) :
    ∀ {i : Nat} {store : ServerLog} {ws : List (Int × Bytes)}, Written store ws →
      (∀ part ∈ parts, part.length < 2 ^ 31) →
      Written (store.receive hours i (ZeroMQ.multipart parts)) (ws ++ writes hours i parts) := by
  induction parts with
  | nil =>
    intro i store ws h _
    rw [writes, List.append_nil]
    exact h
  | cons part parts ih =>
    intro i store ws h hshort
    obtain ⟨hpart, hparts⟩ := List.forall_mem_cons.mp hshort
    have hwritten := h.writeEnvelope (hours i) hpart
    rw [writes, List.append_cons]
    cases parts with
    | nil =>
      rw [ZeroMQ.multipart, ServerLog.receive, h.1, writes, List.append_nil]
      exact hwritten
    | cons part' parts =>
      rw [ZeroMQ.multipart_cons _ (List.cons_ne_nil _ _), ServerLog.receive, h.1]
      exact ih hwritten hparts

theorem Written.flushOutputStreams {store : ServerLog} {ws : List (Int × Bytes)}
    (h : Written store ws) : Written (store.step .flushOutputStreams) ws := by
  refine ⟨h.1, fun hour => ?_⟩
  have hstep := ((h.2 hour).step h.1 .flushOutputStreams fun m hm => by cases hm).1
  rwa [ServerLog.Step.bodies, List.append_nil] at hstep

theorem Written.spill {store : ServerLog} {ws : List (Int × Bytes)} (h : Written store ws)
    (hour : Int) (n : Nat) : Written (store.step (.spill hour n)) ws := by
  refine ⟨h.1, fun hour' => ?_⟩
  have hstep := ((h.2 hour').step h.1 (.spill hour n) fun m hm => by cases hm).1
  rwa [ServerLog.Step.bodies, List.append_nil] at hstep

/-- Every part of the messages that are taken from the logger socket is written, in order. -/
def Logs (store : ServerLog) (taken : List (Source × Message)) (store' : ServerLog) : Prop :=
  ∀ ws, Written store ws → (∀ c ∈ taken, ∀ part ∈ c.2.val, part.length < 2 ^ 31) →
    ∃ ws', ws'.map Prod.snd = (Polling.of .logger taken).flatMap Subtype.val ∧
      Written store' (ws ++ ws')

/-- The messages of the other sockets are not. -/
theorem logs_of_written {store store' : ServerLog} (taken : List (Source × Message))
    (htaken : Polling.of .logger taken = []) (h : ∀ ws, Written store ws → Written store' ws) :
    Logs store taken store' := by
  intro ws hws _
  refine ⟨[], ?_, ?_⟩
  · rw [htaken]
    rfl
  · rw [List.append_nil]
    exact h ws hws

/-- What two stretches of a run log, one behind the other. -/
theorem Logs.trans {store store' store'' : ServerLog} {taken taken' : List (Source × Message)}
    (h : Logs store taken store') (h' : Logs store' taken' store'') :
    Logs store (taken ++ taken') store'' := by
  intro ws hws hshort
  rw [List.forall_mem_append] at hshort
  obtain ⟨ws₁, hws₁, hwritten₁⟩ := h ws hws hshort.1
  obtain ⟨ws₂, hws₂, hwritten₂⟩ := h' _ hwritten₁ hshort.2
  refine ⟨ws₁ ++ ws₂, ?_, ?_⟩
  · rw [List.map_append, hws₁, hws₂, Polling.of_append, List.flatMap_append]
  · rwa [← List.append_assoc]

/-! ## Runs -/

/-- What a call does to the sockets and the log, and that it is ready for the next one. -/
structure Follows (s : Server) (q : Source → List Message)
    (es : List (Polling.Event Source Message UInt64)) (s' : Server) : Prop where
  simulates : Simulates s' ((polling s.id).run q es)
  sent : ∀ sink, s'.sent sink = s.sent sink ++ forwarded sink ((polling s.id).taken q es)
  id : s'.id = s.id
  logs : Logs s.store ((polling s.id).taken q es) s'.store

/-- Two steps that follow the queues follow them one behind the other. -/
theorem Follows.trans {es es' : List (Polling.Event Source Message UInt64)} {s' s'' : Server}
    (h : Follows s q es s') (h' : Follows s' ((polling s.id).run q es) es' s'') :
    Follows s q (es ++ es') s'' := by
  obtain ⟨hsimulates, hsent, hid, hlogs⟩ := h'
  rw [h.id] at hsimulates hsent hlogs
  refine ⟨?_, fun sink => ?_, hid.trans h.id, ?_⟩
  · have hrun : (polling s.id).run q (es ++ es') =
        (polling s.id).run ((polling s.id).run q es) es' := List.foldl_append
    rw [hrun]
    exact hsimulates
  · rw [hsent, h.sent, Polling.taken_append, forwarded_append, List.append_assoc]
  · rw [Polling.taken_append]
    exact h.logs.trans hlogs

/-- A call that leaves the sockets alone. -/
theorem Simulates.follows_nil {s' : Server} (h : Simulates s q) (hsame : SameSockets s s')
    (hready : s'.initialized = true → s'.logClientSock = .connected ∧
      s'.storeWatcher ≠ some .constructed ∧ s'.storeWriter ≠ some .constructed) :
    Follows s q [] s' := by
  refine ⟨⟨fun source => ?_, fun hi => (hready hi).1, fun hi => (hready hi).2.1,
    fun hi => (hready hi).2.2⟩, fun sink => ?_, hsame.id, ?_⟩
  · rw [hsame.waiting]
    exact h.waiting source
  · rw [hsame.sent]
    exact (List.append_nil _).symm
  · rw [hsame.store]
    exact logs_of_written [] rfl fun _ h => h

theorem Simulates.ready (h : Simulates s q) : s.initialized = true → s.logClientSock = .connected ∧
    s.storeWatcher ≠ some .constructed ∧ s.storeWriter ≠ some .constructed :=
  fun hi => ⟨h.connected hi, h.watcher hi, h.writer hi⟩

/-- A start moves no message. -/
theorem Simulates.start (h : Simulates s q) (throws : Nat → Bool) :
    Follows s q [] (s.start throws).1 := by
  rcases start_cases throws s with ⟨-, heq⟩ | ⟨-, -, heq⟩ | ⟨-, -, -, hinitialized, hsame⟩
  · rw [heq]
    exact h.follows_nil .rfl h.ready
  · rw [heq]
    refine h.follows_nil ⟨rfl, rfl, rfl, rfl, rfl, rfl⟩ fun _ => ⟨rfl, ?_, ?_⟩
    · exact fun hchild => by cases hchild
    · exact fun hchild => by cases hchild
  · refine h.follows_nil hsame fun hi => ?_
    rw [hinitialized] at hi
    cases hi

theorem Simulates.shutdown (h : Simulates s q) : Follows s q [] s.shutdown.1 := by
  refine h.follows_nil (sameSockets_shutdown s) fun hi => ?_
  rw [(initialized_shutdown s).1] at hi
  obtain ⟨hconnected, hwatcher, hwriter⟩ := h.ready hi
  rw [shutdown_eq hwatcher hwriter]
  refine ⟨hconnected, ?_, ?_⟩
  · exact fun hchild => by cases hchild
  · exact fun hchild => by cases hchild

theorem Simulates.sendLog (h : Simulates s q) (now : UInt64) (record : LogRecord) :
    Follows s q [.arrive (.logger, record.toMessage s.id now)] (s.sendLog now record) := by
  rw [sendLog_eq h.waiting]
  exact ⟨⟨fun _ => rfl, h.connected, h.watcher, h.writer⟩, fun _ => (List.append_nil _).symm, rfl,
    logs_of_written [] rfl fun _ h => h⟩

theorem Simulates.logMessage (h : Simulates s q) (now : UInt64) (record : LogRecord) :
    Follows s q (s.logged now record) (s.logMessage now record).1 := by
  rw [Server.logMessage, logged]
  cases s.logClientSock with
  | null => exact h.follows_nil .rfl h.ready
  | created => exact h.follows_nil .rfl h.ready
  | connected => exact h.sendLog now record

/-- A handler logs if the call before it returns. -/
theorem Follows.handler {called : Server × Option Failure} (hcalled : Follows s q [] called.1)
    (now : UInt64) (record : Server → LogRecord) :
    Follows s q (if called.2 = none then called.1.logged now (record called.1) else [])
      (match called with
      | (s, some failure) => (s, some failure)
      | (s, none) => s.logMessage now (record s)).1 := by
  obtain ⟨s', failure⟩ := called
  cases failure with
  | some failure => exact hcalled
  | none => exact hcalled.trans (hcalled.simulates.logMessage now (record s'))

/-- The timer of the flush sends a record to the log and changes nothing else that the queues show.
It ends the pump where it cannot be started again. -/
theorem Simulates.flushTimer (h : Simulates s q) (input : PumpInput) :
    Follows s q (if input.flushSignaled then
        [.arrive (.logger, LogRecord.flushOutputStreams.toMessage s.id input.now)] else [])
      (s.flushTimer input).1 ∧
    ((s.flushTimer input).2 = none ↔ (!input.flushSignaled || input.flushStarts) = true) ∧
    (s.flushTimer input).1.initialized = s.initialized := by
  unfold Server.flushTimer
  cases input.flushSignaled with
  | false => exact ⟨h.follows_nil .rfl h.ready, iff_of_true rfl rfl, rfl⟩
  | true =>
    obtain ⟨hsimulates, hsent, hid, -⟩ := h.sendLog input.now .flushOutputStreams
    have hflushed : Follows s q
        [.arrive (.logger, LogRecord.flushOutputStreams.toMessage s.id input.now)]
        { s.sendLog input.now .flushOutputStreams with
          store := (s.sendLog input.now .flushOutputStreams).store.step .flushOutputStreams } :=
      ⟨⟨hsimulates.waiting, hsimulates.connected, hsimulates.watcher, hsimulates.writer⟩, hsent, hid,
        logs_of_written [] rfl fun _ h => h.flushOutputStreams⟩
    cases input.flushStarts with
    | false => exact ⟨hflushed, iff_of_false (Option.some_ne_none _) Bool.false_ne_true, rfl⟩
    | true => exact ⟨hflushed, iff_of_true rfl rfl, rfl⟩

/-- The timer of the checks moves no message, and ends the pump where it cannot be started again. -/
theorem Simulates.checkTimer (h : Simulates s q) (hinitialized : s.initialized = true)
    (input : PumpInput) :
    Follows s q [] (s.checkTimer input).1 ∧
    ((s.checkTimer input).2 = none ↔ (!input.checkSignaled || input.checkStarts) = true) := by
  obtain ⟨-, hwatcher, hwriter⟩ := h.ready hinitialized
  have hchecked : Follows s q [] (s.checkDevices input.running).1 ∧
      (s.checkDevices input.running).2 = none := by
    have hshutdown := h.shutdown
    have hreturns := congrArg Prod.snd (shutdown_eq hwatcher hwriter)
    unfold checkDevices
    split
    · exact ⟨h.follows_nil .rfl h.ready, rfl⟩
    · exact ⟨hshutdown, hreturns⟩
  obtain ⟨hfollows, hnone⟩ := hchecked
  unfold Server.checkTimer
  cases input.checkSignaled with
  | false => exact ⟨h.follows_nil .rfl h.ready, iff_of_true rfl rfl⟩
  | true =>
    rw [if_pos rfl]
    split
    · rename_i hfailure
      rw [hfailure] at hnone
      exact absurd hnone (Option.some_ne_none _)
    · rename_i hreturned
      rw [hreturned] at hfollows
      cases input.checkStarts with
      | false => exact ⟨hfollows, iff_of_false (Option.some_ne_none _) Bool.false_ne_true⟩
      | true => exact ⟨hfollows, iff_of_true rfl rfl⟩

/-- A poll serves the first socket, in the order of the source, at which a message waits. -/
theorem Simulates.poll (h : Simulates s q) (input : PumpInput) {s' : Server}
    (hs' : s' = match order.find? fun source => !(s.waiting source).isEmpty with
      | none => s
      | some source => (s.serve input source).1) :
    Follows s q [.poll input.now] s' := by
  rw [find?_order h.waiting s.id] at hs'
  have hrun : (polling s.id).run q [.poll input.now] = (polling s.id).poll input.now q := rfl
  have htaken : (polling s.id).taken q [.poll input.now] = ((polling s.id).next q).toList :=
    List.append_nil _
  cases hnext : (polling s.id).next q with
  | none =>
    rw [hnext] at hs' htaken
    have hpoll : (polling s.id).poll input.now q = q := by rw [Polling.poll, hnext]
    subst hs'
    refine ⟨?_, fun sink => ?_, rfl, ?_⟩
    · rw [hrun, hpoll]
      exact h
    · rw [htaken]
      exact (List.append_nil _).symm
    · rw [htaken]
      exact logs_of_written [] rfl fun _ h => h
  | some c =>
    obtain ⟨source, m⟩ := c
    rw [hnext] at hs' htaken
    have hserve := congrArg Prod.fst (serve_next h.waiting hnext input)
    have hs'' : s' = (s.serve input source).1 := hs'
    rw [hserve] at hs''
    subst hs''
    refine ⟨?_, fun sink => ?_, rfl, ?_⟩
    · rw [hrun]
      exact ⟨fun _ => rfl, h.connected, h.watcher, h.writer⟩
    · rw [htaken]
      rfl
    · rw [htaken]
      by_cases hsource : source = .logger
      · subst hsource
        intro ws hws hshort
        refine ⟨writes input.hours 0 m.val, ?_, ?_⟩
        · rw [map_snd_writes]
          exact (List.append_nil _).symm
        · exact hws.receive input.hours m.val (hshort _ List.mem_cons_self)
      · simp only [if_neg hsource]
        exact logs_of_written _ (Polling.of_cons_of_ne hsource []) fun _ h => h

/-- **The step lemma for `Pump`**: what it does to the sockets is what the events of the queues do.
-/
theorem Simulates.pump (h : Simulates s q) (input : PumpInput) :
    Follows s q (s.events (.pump input)) (s.pump input).1 := by
  rw [events, Server.pump]
  cases hinitialized : s.initialized with
  | false => exact h.follows_nil .rfl h.ready
  | true =>
    simp only [Bool.not_true, Bool.false_eq_true, if_false, if_true]
    obtain ⟨hflush, hflushed, hflag⟩ := h.flushTimer input
    generalize s.flushTimer input = flushed at hflush hflushed hflag
    obtain ⟨s₁, failure₁⟩ := flushed
    rw [hinitialized] at hflag
    obtain ⟨hcheck, hchecked⟩ := hflush.simulates.checkTimer hflag input
    have hpolls : input.polls = ((!input.flushSignaled || input.flushStarts) &&
      (!input.checkSignaled || input.checkStarts) && input.polled) := rfl
    -- a timer that cannot be started again ends the pump, and so does the next one
    cases failure₁ with
    | some failure =>
      have hends : input.polls = false := by
        rw [hpolls, Bool.eq_false_of_not_eq_true (mt hflushed.mpr (Option.some_ne_none _))]
        rfl
      rw [hends, if_neg Bool.false_ne_true, List.append_nil]
      exact hflush
    | none =>
      rw [hflushed.mp rfl, Bool.true_and] at hpolls
      dsimp only at hcheck hchecked ⊢
      generalize s₁.checkTimer input = checked at hcheck hchecked
      obtain ⟨s₂, failure₂⟩ := checked
      cases failure₂ with
      | some failure =>
        have hends : input.polls = false := by
          rw [hpolls, Bool.eq_false_of_not_eq_true (mt hchecked.mpr (Option.some_ne_none _))]
          rfl
        rw [hends, if_neg Bool.false_ne_true]
        exact hflush.trans hcheck
      | none =>
        rw [hchecked.mp rfl, Bool.true_and] at hpolls
        rw [hpolls]
        cases input.polled with
        | false => exact hflush.trans hcheck
        | true =>
          have hbefore := hflush.trans hcheck
          rw [List.append_nil] at hbefore
          refine hbefore.trans (hbefore.simulates.poll input ?_)
          simp only [Bool.not_true, Bool.false_eq_true, if_false]
          cases order.find? fun source => !(s₂.waiting source).isEmpty <;> rfl

/-- **Step lemma**: the sockets of the server follow the queues. -/
theorem Simulates.step (h : Simulates s q) (a : Action) : Follows s q (s.events a) (s.step a) := by
  cases a with
  | arrive source m =>
    have harrive := arrive_eq h.waiting source m
    rw [Server.step, harrive]
    exact ⟨⟨fun _ => rfl, h.connected, h.watcher, h.writer⟩, fun _ => (List.append_nil _).symm, rfl,
      logs_of_written [] rfl fun _ h => h⟩
  | spill hour n =>
    exact ⟨⟨h.waiting, h.connected, h.watcher, h.writer⟩, fun _ => (List.append_nil _).symm, rfl,
      logs_of_written [] rfl fun _ h => h.spill hour n⟩
  | start throws => exact h.start throws
  | pump input => exact h.pump input
  | shutdown => exact h.shutdown
  | onFirstRun throws now =>
    exact (h.start throws).handler now fun s => .create s.storePath s.listenEndpoints
  | onRunStart throws now => exact (h.start throws).handler now fun _ => .runStart
  | onRunFinish now => exact h.shutdown.handler now fun _ => .runFinish

/-- **Run lemma**. -/
theorem Simulates.run (actions : List Action) :
    ∀ {s : Server} {q : Source → List Message}, Simulates s q →
      Follows s q (s.trace actions) (s.run actions) := by
  induction actions with
  | nil => exact fun h => h.follows_nil .rfl h.ready
  | cons a actions ih =>
    intro s q h
    have hstep := h.step a
    exact hstep.trans (ih hstep.simulates)

/-! ## What is forwarded -/

/-- The server as it is constructed. -/
structure Constructed (s : Server) : Prop where
  initialized : s.initialized = false
  startStarted : s.startStarted = false
  storeWriter : s.storeWriter = none
  storeWatcher : s.storeWatcher = none
  requestProcessors : s.requestProcessors = 0
  persistedStateReactors : s.persistedStateReactors = 0
  waiting : s.waiting = fun _ => []
  sent : s.sent = fun _ => []

theorem Constructed.simulates (h : Constructed s) : Simulates s fun _ => [] := by
  have hready : ¬ s.initialized = true := by
    rw [h.initialized]
    exact Bool.false_ne_true
  refine ⟨fun source => ?_, fun hi => absurd hi hready, fun hi => absurd hi hready,
    fun hi => absurd hi hready⟩
  rw [h.waiting]
  rfl

/-- A server with one worker and one reactor. -/
def sample : Server :=
  { id := [1], storePath := [47], listenEndpoints := [[105]], numberWorkerThreads := 1,
    numberPersistedReactorThreads := 1, store := { writeLogs := true } }

theorem constructed_sample : Constructed sample := ⟨rfl, rfl, rfl, rfl, rfl, rfl, rfl, rfl⟩

/-- A call of `Pump` with no timer that is due. -/
def quiet : PumpInput :=
  { flushSignaled := false, flushStarts := true, checkSignaled := false, checkStarts := true,
    running := fun _ => true, polled := true, now := 5, hours := fun _ => 0 }

theorem causes_logger (id : Bytes) (now : UInt64) (source : Source) (m : Message) :
    ∀ c ∈ (polling id).causes now source m, c.1 = .logger := by
  intro c hc
  obtain ⟨record, -, rfl⟩ := List.mem_map.mp hc
  rfl

theorem of_arrived_logger {source : Source} (hsource : source ≠ .logger) (m : Message) :
    Polling.of source (Polling.arrived
      [Polling.Event.arrive (τ := UInt64) (Source.logger, m)]) = [] :=
  Polling.of_cons_of_ne (Ne.symm hsource) []

theorem of_arrived_logged {source : Source} (hsource : source ≠ .logger) (s : Server) (now : UInt64)
    (record : LogRecord) : Polling.of source (Polling.arrived (s.logged now record)) = [] := by
  rw [logged]
  split
  · exact of_arrived_logger hsource _
  · rfl

/-- Only the logger socket has messages of the server itself. -/
theorem of_arrived_events {source : Source} (hsource : source ≠ .logger) (s : Server)
    (a : Action) : Polling.of source (Polling.arrived (s.events a)) = arrivals source [a] := by
  cases a with
  | arrive source' m =>
    by_cases h : source' = source
    · subst h
      simp [events, Polling.arrived, Polling.of, arrivals]
    · simp [events, Polling.arrived, Polling.of, arrivals, h]
  | spill hour n => rfl
  | start throws => rfl
  | shutdown => rfl
  | pump input =>
    have hpoll : Polling.of source (Polling.arrived
        (if input.polls then [Polling.Event.poll (ι := Source) (μ := Message) input.now]
          else [])) = [] := by
      split <;> rfl
    rw [events]
    split
    · rw [Polling.arrived_append, Polling.of_append, hpoll, List.append_nil]
      split
      · exact of_arrived_logger hsource _
      · rfl
    · rfl
  | onFirstRun throws now =>
    rw [events]
    split
    · exact of_arrived_logged hsource _ _ _
    · rfl
  | onRunStart throws now =>
    rw [events]
    split
    · exact of_arrived_logged hsource _ _ _
    · rfl
  | onRunFinish now =>
    rw [events]
    split
    · exact of_arrived_logged hsource _ _ _
    · rfl

theorem arrivals_cons (source : Source) (a : Action) (actions : List Action) :
    arrivals source (a :: actions) = arrivals source [a] ++ arrivals source actions := by
  rw [arrivals, ← List.singleton_append, List.filterMap_append]
  rfl

theorem of_arrived_trace {source : Source} (hsource : source ≠ .logger) (actions : List Action) :
    ∀ s : Server, Polling.of source (Polling.arrived (s.trace actions)) =
      arrivals source actions := by
  induction actions with
  | nil => exact fun s => rfl
  | cons a actions ih =>
    intro s
    rw [trace, Polling.arrived_append, Polling.of_append, ih, of_arrived_events hsource]
    exact (arrivals_cons source a actions).symm

/-- What was taken from a socket and what waits there is what arrived. -/
theorem taken_append_waiting (h : Constructed s) (actions : List Action) {source : Source}
    (hsource : source ≠ .logger) :
    frames (Polling.of source ((polling s.id).taken (fun _ => []) (s.trace actions))) ++
      (s.run actions).waiting source = frames (arrivals source actions) := by
  have hfollows := h.simulates.run actions
  have hbalanced := Polling.run_balanced (p := polling s.id) (s.trace actions) (fun _ => []) source
  rw [List.nil_append, Polling.of_posted fun now j m c hc =>
    (causes_logger s.id now j m c hc).trans_ne (Ne.symm hsource),
    of_arrived_trace hsource] at hbalanced
  rw [hfollows.simulates.waiting, ← frames_append, ← hbalanced]

/-- **What arrives is sent on**: whole, once and in order, and what is sent to clients is from
workers and reactors, each in its order. It is so in every run of calls that return, also if
operations of `Start` throw, timers cannot be started again, `poll` fails or devices stop in it;
what is taken from a socket is always sent. -/
theorem forwarded_exactly (h : Constructed s) (actions : List Action) :
    (∀ source sink, (source, sink) ∈ [(Source.clients, Sink.workers),
        (.workerSubscriptions, .streamingSubscriptions),
        (.streamingNotify, .streamingStreamingNotify), (.storeChangesInput, .storeChangesOutput)] →
      (s.run actions).sent sink ++ (s.run actions).waiting source =
        frames (arrivals source actions)) ∧
    ∃ taken : List (Source × Message),
      (∀ c ∈ taken, c.1 = .worker ∨ c.1 = .streaming) ∧
      (s.run actions).sent .clients = frames (taken.map Prod.snd) ∧
      ∀ source, source = .worker ∨ source = .streaming →
        frames (Polling.of source taken) ++ (s.run actions).waiting source =
          frames (arrivals source actions) := by
  have hfollows := h.simulates.run actions
  have hsent : ∀ sink, (s.run actions).sent sink =
      forwarded sink ((polling s.id).taken (fun _ => []) (s.trace actions)) := by
    intro sink
    rw [hfollows.sent, h.sent]
    rfl
  constructor
  · intro source sink hpair
    have honly : source ≠ .logger ∧ ∀ source', source'.sink? = some sink ↔ source' = source := by
      simp only [List.mem_cons, Prod.mk.injEq, List.not_mem_nil, or_false] at hpair
      rcases hpair with ⟨rfl, rfl⟩ | ⟨rfl, rfl⟩ | ⟨rfl, rfl⟩ | ⟨rfl, rfl⟩ <;>
        exact ⟨by decide, fun source' => by cases source' <;> decide⟩
    rw [hsent, ← taken_append_waiting h actions honly.1, forwarded, Polling.of]
    simp only [honly.2]
  · refine ⟨((polling s.id).taken (fun _ => []) (s.trace actions)).filter
      fun c => c.1.sink? = some .clients, ?_, hsent .clients, ?_⟩
    · intro c hc
      have hsink := of_decide_eq_true (List.mem_filter.mp hc).2
      obtain ⟨source, m⟩ := c
      cases source <;> first | exact .inl rfl | exact .inr rfl | cases hsink
    · intro source hsource
      have hlogger : source ≠ .logger ∧ source.sink? = some .clients := by
        rcases hsource with rfl | rfl <;> exact ⟨by decide, rfl⟩
      rw [← taken_append_waiting h actions hlogger.1, Polling.of, Polling.of, List.filter_filter]
      congr 4
      funext c
      by_cases hc : c.1 = source
      · simp [hc, hlogger.2]
      · simp [hc]

/-! ## How long messages wait -/

/-- A request and a change of the store; a call of `Pump` is for the log message of
`OnFirstRun`. -/
def sampleActions : List Action :=
  [.onFirstRun (fun _ => false) 3, .arrive .clients ⟨[[7], [8]], List.cons_ne_nil _ _⟩,
    .arrive .storeChangesInput ⟨[[9]], List.cons_ne_nil _ _⟩, .pump quiet, .pump quiet]

theorem forwarded_exactly_sample :
    (sample.run sampleActions).sent .storeChangesOutput ++
        (sample.run sampleActions).waiting .storeChangesInput = frames [⟨[[9]], by decide⟩] ∧
      (sample.run sampleActions).sent .workers ++ (sample.run sampleActions).waiting .clients =
        frames [⟨[[7], [8]], by decide⟩] :=
  ⟨(forwarded_exactly constructed_sample sampleActions).1 .storeChangesInput .storeChangesOutput
      (by decide),
    (forwarded_exactly constructed_sample sampleActions).1 .clients .workers (by decide)⟩

/-- A message that is served puts messages on sockets that come in front of its own: this is why the
work comes to an end. -/
theorem causesBefore_polling (id : Bytes) : (polling id).CausesBefore := by
  intro now source m c hc
  have hlogger := causes_logger id now source m c hc
  obtain ⟨record, hrecord, -⟩ := List.mem_map.mp hc
  rw [hlogger]
  cases source with
  | logger => cases hrecord
  | clients => exact (by decide : Source.logger ∈ order.takeWhile (· ≠ .clients))
  | worker => exact (by decide : Source.logger ∈ order.takeWhile (· ≠ .worker))
  | streaming => exact (by decide : Source.logger ∈ order.takeWhile (· ≠ .streaming))
  | workerSubscriptions | streamingNotify | storeChangesInput => cases hrecord

theorem run_append (s : Server) (actions actions' : List Action) :
    s.run (actions ++ actions') = (s.run actions).run actions' := List.foldl_append

/-- **When a message is sent on**: the `k`th message of a socket is taken in a run exactly when at
some moment there were more polls than for what was before it and for what arrived since on the
sockets that are polled before its own. A message that is logged counts twice. The polls are those
of calls that return: one that has to send to a socket without a peer is not among them. -/
theorem taken_iff_polls (h : Constructed s) (actions : List Action) :
    ∃ q : Source → List Message, (∀ source, (s.run actions).waiting source = frames (q source)) ∧
      ∀ actions' : List Action,
        let events := (s.run actions).trace actions'
        let taken := (polling s.id).taken q events
        (∀ sink, (s.run (actions ++ actions')).sent sink =
          (s.run actions).sent sink ++ forwarded sink taken) ∧
        ∀ source k, k < (q source).length →
          (k < (Polling.of source taken).length ↔ ∃ front, front <+: events ∧
            (polling s.id).ahead q source k + (polling s.id).overtaking source front <
              Polling.pollsOf front) := by
  have hfollows := h.simulates.run actions
  refine ⟨_, hfollows.simulates.waiting, fun actions' => ⟨fun sink => ?_, fun source k hk => ?_⟩⟩
  · have hfollows' := hfollows.simulates.run actions'
    rw [run_append, hfollows'.sent, hfollows.id]
  · exact Polling.taken_iff (causesBefore_polling s.id) _ hk

theorem taken_iff_polls_sample :
    ∃ q : Source → List Message,
      (∀ source, (sample.run sampleActions).waiting source = frames (q source)) ∧
      ∀ actions' : List Action,
        let events := (sample.run sampleActions).trace actions'
        let taken := (polling sample.id).taken q events
        (∀ sink, (sample.run (sampleActions ++ actions')).sent sink =
          (sample.run sampleActions).sent sink ++ forwarded sink taken) ∧
        ∀ source k, k < (q source).length →
          (k < (Polling.of source taken).length ↔ ∃ front, front <+: events ∧
            (polling sample.id).ahead q source k + (polling sample.id).overtaking source front <
              Polling.pollsOf front) :=
  taken_iff_polls constructed_sample sampleActions

/-- **The log is written exactly**: the parts of what was taken from the logger socket are the
records of the hours at which they were written, in order, and with what waits there that is what
was sent to it. A part is below the 2^31 bytes that the `int` of `WriteEnvelope` can say. -/
theorem logged_exactly (h : Constructed s) (actions : List Action)
    (hstore : s.store = { writeLogs := true }) :
    let taken := (polling s.id).taken (fun _ => []) (s.trace actions)
    let posted := (polling s.id).posted (fun _ => []) (s.trace actions)
    (∀ c ∈ taken, ∀ part ∈ c.2.val, part.length < 2 ^ 31) →
    ∃ received : List Message,
      frames received ++ (s.run actions).waiting .logger =
        frames (Polling.of .logger posted) ∧
      ∃ ws : List (Int × Bytes), ws.map Prod.snd = received.flatMap Subtype.val ∧
        ∀ hour, (s.run actions).store.Holds hour (Polling.of hour ws) := by
  intro taken posted hshort
  have hfollows := h.simulates.run actions
  have hwritten : Written s.store [] := by
    rw [hstore]
    exact ⟨rfl, ServerLog.holds_start⟩
  obtain ⟨ws, hws, -, hholds⟩ := hfollows.logs [] hwritten hshort
  refine ⟨Polling.of .logger taken, ?_, ws, hws, hholds⟩
  have hbalanced := Polling.run_balanced (p := polling s.id) (s.trace actions) (fun _ => []) .logger
  rw [List.nil_append] at hbalanced
  rw [hfollows.simulates.waiting, ← frames_append]
  exact congrArg frames hbalanced.symm

theorem logged_exactly_sample : ∃ received : List Message,
    frames received ++ (sample.run sampleActions).waiting .logger = frames (Polling.of .logger
      ((polling sample.id).posted (fun _ => []) (sample.trace sampleActions))) ∧
    ∃ ws : List (Int × Bytes), ws.map Prod.snd = received.flatMap Subtype.val ∧
      ∀ hour, (sample.run sampleActions).store.Holds hour (Polling.of hour ws) :=
  logged_exactly constructed_sample sampleActions rfl (by decide +kernel)

end Server

end Zippylog
