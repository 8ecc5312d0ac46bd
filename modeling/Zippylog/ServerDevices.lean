import Zippylog.ServerProof

/-!
# The devices of a server

What the calls of a server do to the devices it has made, and how many calls of `Pump` it needs
for what waits on its sockets.

- `Keeps`, `keeps_step`, `keeps_run`: behind a `Start` that has returned, a call leaves the
  devices as they are or stops all of them.
- `Phase`: before that, `Start` was not called, or has thrown and is never finished.
- `devices_never_come_back`: `CheckDevices` answers one device that does not run by stopping all
  of them, and nothing makes them again. The server runs on without them, up to the first message
  that it tries to send to one.
- `drained_iff`: how many calls of `Pump` there are to be for what waits.
-/

namespace Zippylog

open Wire

namespace Server

variable {s : Server} {q : Source → List Message}

/-! ## The devices -/

/-- The devices of a server: the store writer, the store watcher, and the numbers of the others. -/
structure Devices where
  storeWriter : Option Child
  storeWatcher : Option Child
  requestProcessors : Nat
  persistedStateReactors : Nat
  deriving DecidableEq

def devices (s : Server) : Devices :=
  ⟨s.storeWriter, s.storeWatcher, s.requestProcessors, s.persistedStateReactors⟩

/-- No device. -/
def Devices.none : Devices := ⟨.none, .none, 0, 0⟩

/-- Every device that is configured, on a thread of its own. -/
def allDevices (s : Server) : Devices :=
  ⟨some .async, some .async, s.numberWorkerThreads.toNat, s.numberPersistedReactorThreads.toNat⟩

/-- What a call does to the devices of a server whose `Start` has returned. -/
structure Keeps (s s' : Server) : Prop where
  initialized : s'.initialized = true
  allDevices : s'.allDevices = s.allDevices
  devices : s'.devices = s.devices ∨ s'.devices = .none

theorem Keeps.trans {s s' s'' : Server} (h : Keeps s s') (h' : Keeps s' s'') : Keeps s s'' := by
  refine ⟨h'.initialized, h'.allDevices.trans h.allDevices, ?_⟩
  rcases h'.devices with hsame | hnone
  · rw [hsame]
    exact h.devices
  · exact .inr hnone

/-- Devices that were stopped stay stopped. -/
theorem Keeps.devices_eq_none {s s' : Server} (h : Keeps s s') (hnone : s.devices = .none) :
    s'.devices = .none := by
  rcases h.devices with hsame | hnone'
  · rw [hsame, hnone]
  · exact hnone'

theorem keeps_logMessage (h : s.initialized = true) (now : UInt64) (record : LogRecord) :
    Keeps s (s.logMessage now record).1 := by
  unfold logMessage
  split <;> exact ⟨h, rfl, .inl rfl⟩

theorem keeps_start (h : s.initialized = true) (throws : Nat → Bool) :
    Keeps s (s.start throws).1 := by
  rcases start_cases throws s with ⟨-, heq⟩ | ⟨hi, -⟩ | ⟨hi, -⟩
  · rw [heq]
    exact ⟨h, rfl, .inl rfl⟩
  · exact absurd (h.symm.trans hi) (by decide)
  · exact absurd (h.symm.trans hi) (by decide)

theorem keeps_shutdown (h : Simulates s q) (hi : s.initialized = true) : Keeps s s.shutdown.1 := by
  obtain ⟨-, hwatcher, hwriter⟩ := h.ready hi
  rw [shutdown_eq hwatcher hwriter]
  exact ⟨hi, rfl, .inr rfl⟩

theorem keeps_handler {called : Server × Option Failure} (h : Keeps s called.1) (now : UInt64)
    (record : Server → LogRecord) :
    Keeps s (match called with
      | (s, some failure) => (s, some failure)
      | (s, none) => s.logMessage now (record s)).1 := by
  obtain ⟨s', failure⟩ := called
  cases failure with
  | some failure => exact h
  | none => exact h.trans (keeps_logMessage h.initialized now (record s'))

/-- Serving a socket starts no device: the server is as it was, or has shut down. -/
theorem keeps_serve (h : s.initialized = true) (input : PumpInput) (source : Source) :
    Keeps s (s.serve input source).1 := by
  cases hsink : source.sink? with
  | none =>
    obtain rfl : source = .logger := by
      cases source <;> first | rfl | exact absurd hsink (Option.some_ne_none _)
    exact ⟨h, rfl, .inl rfl⟩
  | some sink =>
    rw [serve_eq hsink, transfer]
    cases ZeroMQ.transferMessage (s.waiting source) with
    | none => exact ⟨h, rfl, .inl rfl⟩
    | some message =>
      rw [Option.map_some]
      cases source.record? with
      | none => exact ⟨h, rfl, .inl rfl⟩
      | some record => exact ⟨h, rfl, .inl rfl⟩

theorem keeps_flushTimer (h : s.initialized = true) (input : PumpInput) :
    Keeps s (s.flushTimer input).1 ∧ (s.flushTimer input).1.devices = s.devices := by
  unfold flushTimer
  split
  · dsimp only
    split <;> exact ⟨⟨h, rfl, .inl rfl⟩, rfl⟩
  · exact ⟨⟨h, rfl, .inl rfl⟩, rfl⟩

/-- A check that finds a device that does not run stops them all. -/
theorem keeps_checkTimer (h : Simulates s q) (hi : s.initialized = true) (input : PumpInput) :
    Keeps s (s.checkTimer input).1 ∧
    (input.checkSignaled = true → s.devicesRunning input.running = false →
      (s.checkTimer input).1.devices = .none) := by
  obtain ⟨-, hwatcher, hwriter⟩ := h.ready hi
  have hshutdown := shutdown_eq hwatcher hwriter
  unfold checkTimer checkDevices
  cases input.checkSignaled with
  | false => exact ⟨⟨hi, rfl, .inl rfl⟩, fun h => absurd h Bool.false_ne_true⟩
  | true =>
    rw [if_pos rfl, hshutdown]
    cases s.devicesRunning input.running with
    | true =>
      rw [if_pos rfl]
      refine ⟨?_, fun _ h => absurd h (by decide)⟩
      dsimp only
      split <;> exact ⟨hi, rfl, .inl rfl⟩
    | false =>
      rw [if_neg Bool.false_ne_true]
      dsimp only
      split <;> exact ⟨⟨hi, rfl, .inr rfl⟩, fun _ _ => rfl⟩

/-- **What `Pump` does**: it does not report an error, and behind a check that finds a device that
does not run there is none. -/
theorem keeps_pump (h : Simulates s q) (hi : s.initialized = true) (input : PumpInput) :
    Keeps s (s.pump input).1 ∧
    ((!input.flushSignaled || input.flushStarts) = true → input.checkSignaled = true →
      s.devicesRunning input.running = false → (s.pump input).1.devices = .none) ∧
    (input.polls = true → (s.pump input).2 = .ok ⟨false⟩) := by
  obtain ⟨hfollows, hflushed, -⟩ := h.flushTimer input
  obtain ⟨hflush, hdevices⟩ := keeps_flushTimer hi input
  have hpolls : input.polls = ((!input.flushSignaled || input.flushStarts) &&
    (!input.checkSignaled || input.checkStarts) && input.polled) := rfl
  rw [Server.pump, hi]
  simp only [Bool.not_true, Bool.false_eq_true, if_false]
  generalize s.flushTimer input = flushed at hfollows hflushed hflush hdevices
  obtain ⟨s₁, failure₁⟩ := flushed
  cases failure₁ with
  | some failure =>
    have hends := Bool.eq_false_of_not_eq_true (mt hflushed.mpr (Option.some_ne_none _))
    rw [hpolls, hends]
    exact ⟨hflush, fun h => absurd h Bool.false_ne_true, fun h => absurd h Bool.false_ne_true⟩
  | none =>
    -- the timer of the flush starts no device, so the check looks at the same ones
    have hrunning : s₁.devicesRunning input.running = s.devicesRunning input.running := by
      obtain ⟨hwriter, hwatcher, hprocessors, hreactors⟩ := Devices.mk.inj hdevices
      dsimp only at hwriter hwatcher hprocessors hreactors
      rw [devicesRunning, devicesRunning, hwriter, hwatcher, hprocessors, hreactors]
    obtain ⟨hcheck, hstops⟩ := keeps_checkTimer hfollows.simulates hflush.initialized input
    obtain ⟨hfollows', hchecked⟩ := hfollows.simulates.checkTimer hflush.initialized input
    rw [hrunning] at hstops
    dsimp only at hcheck hstops hchecked hfollows' ⊢
    generalize s₁.checkTimer input = checked at hcheck hstops hchecked hfollows'
    obtain ⟨s₂, failure₂⟩ := checked
    have hbefore := hflush.trans hcheck
    cases failure₂ with
    | some failure =>
      have hends := Bool.eq_false_of_not_eq_true (mt hchecked.mpr (Option.some_ne_none _))
      rw [hpolls, hends, Bool.and_false]
      exact ⟨hbefore, fun _ => hstops, fun h => absurd h Bool.false_ne_true⟩
    | none =>
      -- behind the timers a pump polls, and serves what it finds
      cases hpolled : input.polled with
      | false =>
        rw [hpolls, hpolled, Bool.and_false]
        exact ⟨hbefore, fun _ => hstops, fun h => absurd h Bool.false_ne_true⟩
      | true =>
        simp only [Bool.not_true, Bool.false_eq_true, if_false]
        rw [find?_order hfollows'.simulates.waiting s₂.id]
        cases hnext : (polling s₂.id).next _ with
        | none => exact ⟨hbefore, fun _ => hstops, fun _ => rfl⟩
        | some c =>
          have hserve := congrArg Prod.snd (serve_next hfollows'.simulates.waiting hnext input)
          have hkeeps := keeps_serve hbefore.initialized input c.1
          refine ⟨hbefore.trans hkeeps, fun _ hsignaled hrunning => ?_, fun _ => ?_⟩
          · exact hkeeps.devices_eq_none (hstops hsignaled hrunning)
          · exact congrArg (fun error => Except.ok (PumpResult.mk error)) hserve

/-- **Step lemma**. -/
theorem keeps_step (h : Simulates s q) (hi : s.initialized = true) (a : Action) :
    Keeps s (s.step a) := by
  cases a with
  | arrive source m => exact ⟨hi, rfl, .inl rfl⟩
  | spill hour n => exact ⟨hi, rfl, .inl rfl⟩
  | start throws => exact keeps_start hi throws
  | pump input => exact (keeps_pump h hi input).1
  | shutdown => exact keeps_shutdown h hi
  | onFirstRun throws now =>
    exact keeps_handler (keeps_start hi throws) now fun s => .create s.storePath s.listenEndpoints
  | onRunStart throws now => exact keeps_handler (keeps_start hi throws) now fun _ => .runStart
  | onRunFinish now => exact keeps_handler (keeps_shutdown h hi) now fun _ => .runFinish

/-- **Run lemma**. -/
theorem keeps_run (actions : List Action) :
    ∀ {s : Server} {q : Source → List Message}, Simulates s q → s.initialized = true →
      Keeps s (s.run actions) := by
  induction actions with
  | nil => exact fun _ hi => ⟨hi, rfl, .inl rfl⟩
  | cons a actions ih =>
    intro s q h hi
    have hstep := keeps_step h hi a
    exact hstep.trans (ih (h.step a).simulates hstep.initialized)

/-- The life of a server: `Start` was not called, has not returned and never will, or has
returned; then there are all devices or none. -/
inductive Phase (s : Server) : Prop where
  | fresh (hi : s.initialized = false) (hs : s.startStarted = false) (hd : s.devices = .none)
  | failed (hi : s.initialized = false) (hs : s.startStarted = true)
  | live (hi : s.initialized = true) (hd : s.devices = s.allDevices ∨ s.devices = .none)

/-- A record in the log is not of the devices. -/
theorem Phase.logMessage (h : Phase s) (now : UInt64) (record : LogRecord) :
    Phase (s.logMessage now record).1 := by
  unfold Server.logMessage
  split
  · exact h
  · exact h
  · cases h with
    | fresh hi hs hd => exact .fresh hi hs hd
    | failed hi hs => exact .failed hi hs
    | live hi hd => exact .live hi hd

theorem Phase.handler {called : Server × Option Failure} (h : Phase called.1) (now : UInt64)
    (record : Server → LogRecord) :
    Phase (match called with
      | (s, some failure) => (s, some failure)
      | (s, none) => s.logMessage now (record s)).1 := by
  obtain ⟨s', failure⟩ := called
  cases failure with
  | some failure => exact h
  | none => exact h.logMessage now (record s')

theorem Phase.of_keeps {s' : Server} (h : Keeps s s')
    (hd : s.devices = s.allDevices ∨ s.devices = .none) : Phase s' := by
  refine .live h.initialized ?_
  rcases h.devices with hsame | hnone
  · rw [hsame, h.allDevices]
    exact hd
  · exact .inr hnone

/-- A start runs its operations in order, and returns behind the last one or never. -/
theorem Phase.start (h : Phase s) (throws : Nat → Bool) : Phase (s.start throws).1 := by
  rcases start_cases throws s with ⟨-, heq⟩ | ⟨hi', hs, heq⟩ | ⟨-, -, hs, hi, -⟩
  · rw [heq]
    exact h
  · rw [heq]
    cases h with
    | fresh hi hs hd =>
      obtain ⟨-, -, hprocessors, hreactors⟩ := Devices.mk.inj hd
      refine .live rfl (.inl ?_)
      rw [devices, allDevices, started, hprocessors, hreactors, Nat.zero_add, Nat.zero_add]
    | failed hi hs' => exact absurd (hs.symm.trans hs') (by decide)
    | live hi hd => exact absurd (hi.symm.trans hi') (by decide)
  · exact .failed hi hs

/-- A shutdown takes all devices down. -/
theorem Phase.shutdown (h : Phase s) : Phase s.shutdown.1 := by
  obtain ⟨hinitialized, hstarted, -⟩ := initialized_shutdown s
  -- a device without a thread is there only if `Start` has thrown
  have hstopped : s.devices = s.allDevices ∨ s.devices = .none → s.shutdown.1 = s.stopped := by
    intro hd
    have hchildren : s.storeWatcher ≠ some .constructed ∧ s.storeWriter ≠ some .constructed := by
      rcases hd with hd | hd <;> obtain ⟨hwriter, hwatcher, -⟩ := Devices.mk.inj hd <;>
        rw [hwriter, hwatcher] <;> exact ⟨by decide, by decide⟩
    rw [shutdown_eq hchildren.1 hchildren.2]
  cases h with
  | fresh hi hs hd =>
    refine .fresh (hinitialized.trans hi) (hstarted.trans hs) ?_
    rw [hstopped (.inr hd)]
    rfl
  | failed hi hs => exact .failed (hinitialized.trans hi) (hstarted.trans hs)
  | live hi hd =>
    refine .live (hinitialized.trans hi) (.inr ?_)
    rw [hstopped hd]
    rfl

/-- **The step lemma** for the life of a server: `Start` is the only way to devices, and runs once.
-/
theorem Phase.step (h : Phase s) (hsimulates : Simulates s q) (a : Action) : Phase (s.step a) := by
  cases a with
  | arrive source m =>
    cases h with
    | fresh hi hs hd => exact .fresh hi hs hd
    | failed hi hs => exact .failed hi hs
    | live hi hd => exact .live hi hd
  | spill hour n =>
    cases h with
    | fresh hi hs hd => exact .fresh hi hs hd
    | failed hi hs => exact .failed hi hs
    | live hi hd => exact .live hi hd
  | start throws => exact h.start throws
  | pump input =>
    have hnone : s.initialized = false → s.step (.pump input) = s := by
      intro hi
      rw [Server.step, Server.pump, hi]
      rfl
    cases h with
    | fresh hi hs hd =>
      rw [hnone hi]
      exact .fresh hi hs hd
    | failed hi hs =>
      rw [hnone hi]
      exact .failed hi hs
    | live hi hd => exact .of_keeps (keeps_step hsimulates hi (.pump input)) hd
  | shutdown => exact h.shutdown
  | onFirstRun throws now =>
    exact (h.start throws).handler now fun s => .create s.storePath s.listenEndpoints
  | onRunStart throws now => exact (h.start throws).handler now fun _ => .runStart
  | onRunFinish now => exact h.shutdown.handler now fun _ => .runFinish

theorem Phase.run (actions : List Action) :
    ∀ {s : Server} {q : Source → List Message}, Phase s → Simulates s q →
      Phase (s.run actions) := by
  induction actions with
  | nil => exact fun h _ => h
  | cons a actions ih =>
    intro s q h hsimulates
    exact ih (h.step hsimulates a) (hsimulates.step a).simulates

theorem Constructed.phase (h : Constructed s) : Phase s := by
  refine .fresh h.initialized h.startStarted ?_
  rw [devices, h.storeWriter, h.storeWatcher, h.requestProcessors, h.persistedStateReactors]
  rfl

theorem checkTimer_eq (input : PumpInput) (s : Server) :
    (s.checkTimer input).1 = s ∨ (s.checkTimer input).1 = s.shutdown.1 := by
  have hdevices : (s.checkDevices input.running).1 = s ∨
      (s.checkDevices input.running).1 = s.shutdown.1 := by
    unfold checkDevices
    split
    · exact .inl rfl
    · exact .inr rfl
  unfold checkTimer
  split
  · generalize s.checkDevices input.running = checked at hdevices
    obtain ⟨s', failure⟩ := checked
    cases failure with
    | some failure => exact hdevices
    | none =>
      dsimp only
      split <;> exact hdevices
  · exact .inl rfl

/-- The timers take no message, and the logger gets one if the streams are flushed. -/
theorem waiting_timers (input : PumpInput) (s : Server) {source : Source}
    (h : input.flushSignaled = false ∨ source ≠ .logger) :
    ((s.flushTimer input).1.checkTimer input).1.waiting source = s.waiting source := by
  have hflush : (s.flushTimer input).1.waiting source = s.waiting source := by
    unfold flushTimer
    cases hsignaled : input.flushSignaled with
    | false => rfl
    | true =>
      have hsource := h.resolve_left (by rw [hsignaled]; decide)
      rw [if_pos rfl]
      dsimp only
      split <;> exact Function.update_of_ne hsource _ _
  rcases checkTimer_eq input (s.flushTimer input).1 with hsame | hshutdown
  · rw [hsame, hflush]
  · rw [hshutdown, (sameSockets_shutdown _).waiting, hflush]

/-- Nor do they make a device. -/
theorem requestProcessors_timers (input : PumpInput) (h : s.requestProcessors = 0) :
    ((s.flushTimer input).1.checkTimer input).1.requestProcessors = 0 := by
  have hflush : (s.flushTimer input).1.requestProcessors = 0 := by
    unfold flushTimer
    split
    · dsimp only
      split <;> exact h
    · exact h
  rcases checkTimer_eq input (s.flushTimer input).1 with hsame | hshutdown
  · rw [hsame, hflush]
  · rw [hshutdown]
    unfold shutdown
    dsimp only
    split
    · rfl
    · split <;> rfl

/-- `Pump` returns if nothing waits that goes to a device. -/
theorem pumpBlocks_eq_false (input : PumpInput) (hclients : s.waiting .clients = [])
    (hsubscriptions : s.waiting .workerSubscriptions = []) : s.pumpBlocks input = false := by
  have hclients' : ((s.flushTimer input).1.checkTimer input).1.waiting .clients = [] :=
    (waiting_timers input s (.inr (by decide))).trans hclients
  have hsubscriptions' :
      ((s.flushTimer input).1.checkTimer input).1.waiting .workerSubscriptions = [] :=
    (waiting_timers input s (.inr (by decide))).trans hsubscriptions
  rw [pumpBlocks]
  generalize ((s.flushTimer input).1.checkTimer input).1 = s' at hclients' hsubscriptions'
  split
  · rfl
  · next source hfound =>
    have hwaits := List.find?_some hfound
    cases source with
    | clients =>
      rw [hclients'] at hwaits
      cases hwaits
    | workerSubscriptions =>
      rw [hsubscriptions'] at hwaits
      cases hwaits
    | worker | streaming | streamingNotify | logger | storeChangesInput => rfl

/-- It does not return if the message of a client is next and there is no request processor. -/
theorem pumpBlocks_of_clients (hnone : s.requestProcessors = 0) {input : PumpInput}
    (hflush : input.flushSignaled = false) (hclients : s.waiting .clients ≠ [])
    (hwaiting : ∀ source ≠ .clients, s.waiting source = []) : s.pumpBlocks input = true := by
  have htimers (source : Source) :
      ((s.flushTimer input).1.checkTimer input).1.waiting source = s.waiting source :=
    waiting_timers input s (.inl hflush)
  have hprocessors := requestProcessors_timers input hnone
  rw [pumpBlocks]
  generalize ((s.flushTimer input).1.checkTimer input).1 = s' at htimers hprocessors
  have hfound : order.find? (fun source => !(s'.waiting source).isEmpty) = some .clients := by
    have hempty (source : Source) (hsource : source ≠ .clients) :
        (!(s'.waiting source).isEmpty) = false := by
      rw [htimers, hwaiting source hsource]
      rfl
    have hsome : (!(s'.waiting .clients).isEmpty) = true := by
      rw [htimers, List.isEmpty_eq_false_iff.mpr hclients]
      rfl
    simp [order, hempty, hsome]
  rw [hfound]
  show decide (s'.requestProcessors = 0) = true
  rw [hprocessors]
  rfl

/-- **Devices never come back**: a server whose `Start` has returned has all its devices or none,
and once a check has found one that does not run there are none in any later state. `Start` does
nothing then. A call of `Pump` still returns, and without an error, as long as nothing waits that
is to be sent to the devices: to them there is nobody who receives it, so the first message of a
client makes it wait for ever. -/
theorem devices_never_come_back (h : Constructed s) (actions : List Action)
    (hi : (s.run actions).initialized = true) :
    ((s.run actions).devices = (s.run actions).allDevices ∨ (s.run actions).devices = .none) ∧
    ∀ input : PumpInput, (!input.flushSignaled || input.flushStarts) = true →
      input.checkSignaled = true → (s.run actions).devicesRunning input.running = false →
      ∀ actions' : List Action,
        let s' := s.run (actions ++ .pump input :: actions')
        s'.devices = .none ∧ (∀ throws, s'.start throws = (s', none)) ∧
          (s'.waiting .clients = [] → s'.waiting .workerSubscriptions = [] →
            ∀ input' : PumpInput, input'.polls = true →
              s'.pumpBlocks input' = false ∧ (s'.pump input').2 = .ok ⟨false⟩) ∧
          (s'.waiting .clients ≠ [] → (∀ source ≠ .clients, s'.waiting source = []) →
            ∀ input' : PumpInput, input'.polls = true → input'.flushSignaled = false →
              s'.pumpBlocks input' = true) := by
  have hsimulates := (h.simulates.run actions).simulates
  constructor
  · cases h.phase.run actions h.simulates with
    | fresh hi' => exact absurd (hi.symm.trans hi') (by decide)
    | failed hi' => exact absurd (hi.symm.trans hi') (by decide)
    | live _ hd => exact hd
  · intro input hflush hcheck hrunning actions'
    obtain ⟨hpump, hnone, -⟩ := keeps_pump hsimulates hi input
    have hsimulates' := (hsimulates.pump input).simulates
    have hrest := keeps_run actions' hsimulates' hpump.initialized
    rw [run_append]
    have hdevices := hrest.devices_eq_none (hnone hflush hcheck hrunning)
    refine ⟨hdevices, fun throws => ?_, fun hclients hsubscriptions input' hpolls => ?_,
      fun hclients hwaiting input' _ hflush => ?_⟩
    · rcases start_cases throws _ with ⟨-, heq⟩ | ⟨hi', -⟩ | ⟨hi', -⟩
      · exact heq
      · exact absurd (hrest.initialized.symm.trans hi') (by decide)
      · exact absurd (hrest.initialized.symm.trans hi') (by decide)
    · exact ⟨pumpBlocks_eq_false input' hclients hsubscriptions,
        (keeps_pump (hsimulates'.run actions').simulates hrest.initialized input').2.2 hpolls⟩
    · exact pumpBlocks_of_clients (Devices.mk.inj hdevices).2.2.1 hflush hclients hwaiting

/-- A call of `Pump` in which no device runs. -/
def noneRuns : PumpInput := { quiet with checkSignaled := true, running := fun _ => false }

theorem devices_never_come_back_sample :
    ((sample.run sampleActions).devices = (sample.run sampleActions).allDevices ∨
      (sample.run sampleActions).devices = .none) ∧
    ∀ actions' : List Action,
      (sample.run (sampleActions ++ .pump noneRuns :: actions')).devices = .none := by
  have h := devices_never_come_back constructed_sample sampleActions rfl
  exact ⟨h.1, fun actions' => (h.2 noneRuns rfl rfl rfl actions').1⟩

/-! ## How a server is drained -/

/-- No timer is due and `poll` returns. -/
def PumpInput.Quiet (input : PumpInput) : Prop :=
  input.flushSignaled = false ∧ input.checkSignaled = false ∧ input.polled = true

/-- A quiet call of `Pump` is one poll. -/
theorem events_quiet (hi : s.initialized = true) {input : PumpInput} (h : input.Quiet) :
    s.events (.pump input) = [.poll input.now] := by
  obtain ⟨hflush, hcheck, hpolled⟩ := h
  have hpolls : input.polls = true := by
    rw [PumpInput.polls, hflush, hcheck, hpolled]
    rfl
  rw [events, hi, hflush, hpolls]
  rfl

/-- When no timer is due and nothing arrives, a pump is a poll. -/
theorem trace_quiet (inputs : List PumpInput) :
    ∀ {s : Server} {q : Source → List Message}, Simulates s q → s.initialized = true →
      (∀ input ∈ inputs, input.Quiet) →
      s.trace (inputs.map .pump) = (inputs.map PumpInput.now).map .poll := by
  induction inputs with
  | nil => exact fun _ _ _ => rfl
  | cons input inputs ih =>
    intro s q h hi hquiet
    obtain ⟨hinput, hinputs⟩ := List.forall_mem_cons.mp hquiet
    have hrest := ih (h.pump input).simulates (keeps_pump h hi input).1.initialized hinputs
    rw [List.map_cons, List.map_cons, List.map_cons, trace, events_quiet hi hinput]
    exact congrArg _ hrest

theorem work_polling (id : Bytes) (source : Source) (ms : List Message) :
    (polling id).work source ms = (if source.record?.isSome then 2 else 1) * ms.length := by
  have hconst : ms.map ((polling id).polls source) =
      List.replicate ms.length (if source.record?.isSome then 2 else 1) := List.map_const' ..
  rw [Polling.work, hconst, List.sum_replicate_nat, Nat.mul_comm]

/-- All the calls of `Pump` for what waits. -/
theorem total_polling (id : Bytes) (q : Source → List Message) : (polling id).total q =
    (q .logger).length + 2 * (q .worker).length + 2 * (q .streaming).length +
      (q .workerSubscriptions).length + (q .storeChangesInput).length +
      (q .streamingNotify).length + 2 * (q .clients).length := by
  have htotal : (polling id).total q =
      (polling id).work .logger (q .logger) + ((polling id).work .worker (q .worker) +
      ((polling id).work .streaming (q .streaming) +
      ((polling id).work .workerSubscriptions (q .workerSubscriptions) +
      ((polling id).work .storeChangesInput (q .storeChangesInput) +
      ((polling id).work .streamingNotify (q .streamingNotify) +
      ((polling id).work .clients (q .clients) + 0)))))) := rfl
  rw [htotal]
  simp only [work_polling]
  simp only [Source.record?, Option.isSome_none, Option.isSome_some, Bool.false_eq_true, if_false,
    if_true]
  omega

/-- **A server is drained** in as many calls of `Pump` as there are messages, those that are logged
counted twice, and in no fewer. The calls are those that return, so the devices are there that the
messages of clients and of the subscriptions are sent to. -/
theorem drained_iff (h : Constructed s) (actions : List Action)
    (hi : (s.run actions).initialized = true) :
    ∃ q : Source → List Message, (∀ source, (s.run actions).waiting source = frames (q source)) ∧
      ∀ inputs : List PumpInput, (∀ input ∈ inputs, input.Quiet) →
        ((∀ source, (s.run (actions ++ inputs.map .pump)).waiting source = []) ↔
          (q .logger).length + 2 * (q .worker).length + 2 * (q .streaming).length +
            (q .workerSubscriptions).length + (q .storeChangesInput).length +
            (q .streamingNotify).length + 2 * (q .clients).length ≤ inputs.length) := by
  have hfollows := h.simulates.run actions
  refine ⟨_, hfollows.simulates.waiting, fun inputs hquiet => ?_⟩
  have hfollows' := hfollows.simulates.run (inputs.map .pump)
  obtain ⟨-, htotal⟩ := Polling.length_taken_polls (p := polling (s.run actions).id)
    (inputs.map PumpInput.now) ((polling s.id).run (fun _ => []) (s.trace actions))
  rw [trace_quiet inputs hfollows.simulates hi hquiet] at hfollows'
  rw [run_append, ← total_polling (s.run actions).id]
  simp only [hfollows'.simulates.waiting, frames_eq_nil_iff]
  rw [← Polling.next_eq_none_iff (p := polling (s.run actions).id), ← Polling.total_eq_zero_iff,
    htotal, List.length_map]
  exact Nat.sub_eq_zero_iff_le

theorem drained_iff_sample :
    ∃ q : Source → List Message,
      (∀ source, (sample.run sampleActions).waiting source = frames (q source)) ∧
      ((∀ source, (sample.run (sampleActions ++ [quiet, quiet].map .pump)).waiting source = []) ↔
        (q .logger).length + 2 * (q .worker).length + 2 * (q .streaming).length +
          (q .workerSubscriptions).length + (q .storeChangesInput).length +
          (q .streamingNotify).length + 2 * (q .clients).length ≤ 2) := by
  obtain ⟨q, hq, hdrained⟩ := drained_iff constructed_sample sampleActions rfl
  refine ⟨q, hq, hdrained [quiet, quiet] fun input hinput => ?_⟩
  obtain rfl : input = quiet := by simpa using hinput
  exact ⟨rfl, rfl, rfl⟩

end Server

end Zippylog
