import Mathlib.Data.List.Basic

/-!
# The life of a device

`Device::Run`, `RunAsync`, `StopAsync` and the entry of the thread that `RunAsync` creates,
as the threads execute them together.

- `ConditionalWait` is a flag that is tested and set in one step.
- Every access to what the threads share, every test of the semaphore and every call of a
  handler is a step of its own. How a handler ends is not the device's to say: `Outcome`.
- `firstRuns`, `startFailed`, `Hooks` and where `Run` was left are kept for the proofs; no
  step reads them.
-/

namespace Zippylog

namespace Device

/-- What is thrown, as `AsyncExecStart` tells it apart: `zmq::error_t`, another
`std::exception`, or anything else. -/
inductive Thrown where
  | zmqError
  | stdException
  | other
  deriving DecidableEq

/-- How a call of a handler, or the creation of a thread, ends. -/
inductive Outcome where
  | returned
  | threw (kind : Thrown)
  deriving DecidableEq

/-- What the threads share. `thread` is whether the pointer is set. -/
structure Shared where
  thread : Bool := false
  cw : Bool := false
  asyncWait : Bool := false
  running : Bool := false
  hasRan : Bool := false
  /-- The calls of `OnFirstRun` that returned. -/
  firstRuns : Nat := 0
  /-- `OnRunStart` threw before `has_ran` was set. -/
  startFailed : Bool := false

/-- A thread's calls of `OnRunStart` that returned, and its calls of `OnRunFinish`. -/
structure Hooks where
  starts : Nat := 0
  finishes : Nat := 0

/-! ## `Device::Run` -/

/-- The steps of `Device::Run`. -/
inductive RunPc where
  | check
  | testHasRan
  | firstRun
  | runStart
  | setRunning
  | setHasRan
  | signal
  | loop
  | pump
  | runFinish
  | clearRunning
  deriving DecidableEq

/-- Behind a step of `Run`: the next one, its return, or what it throws. -/
inductive Next where
  | goto (pc : RunPc)
  | returns
  | throws (kind : Thrown)

/-- One step of `Device::Run`, on whichever thread. -/
def runStep (m : Shared) (h : Hooks) (pc : RunPc) (outcome : Outcome) : Shared × Hooks × Next :=
  match pc with
  | .check => (m, h, if m.cw then .returns else .goto .testHasRan)
  | .testHasRan => (m, h, .goto (if m.hasRan then .runStart else .firstRun))
  | .firstRun =>
    match outcome with
    | .returned => ({ m with firstRuns := m.firstRuns + 1 }, h, .goto .runStart)
    | .threw kind => (m, h, .throws kind)
  | .runStart =>
    match outcome with
    | .returned => (m, { h with starts := h.starts + 1 }, .goto .setRunning)
    | .threw kind => ({ m with startFailed := m.startFailed || !m.hasRan }, h, .throws kind)
  | .setRunning => ({ m with running := true }, h, .goto .setHasRan)
  | .setHasRan => ({ m with hasRan := true }, h, .goto .signal)
  | .signal => ({ m with asyncWait := true }, h, .goto .loop)
  | .loop => (m, h, .goto (if m.cw then .runFinish else .pump))
  | .pump =>
    match outcome with
    | .returned => (m, h, .goto .loop)
    | .threw kind => (m, h, .throws kind)
  | .runFinish =>
    let h := { h with finishes := h.finishes + 1 }
    match outcome with
    | .returned => (m, h, .goto .clearRunning)
    | .threw kind => (m, h, .throws kind)
  | .clearRunning => ({ m with running := false }, h, .returns)

/-! ## The threads -/

/-- Where the thread that calls the device is: between calls, in `Run`, in `RunAsync`
(`asyncWaiting` is the wait for `async_wait`), or in `StopAsync`. -/
inductive MainPc where
  | idle
  | run (pc : RunPc)
  | asyncCheck
  | asyncThread
  | asyncReset
  | asyncCreate
  | asyncWaiting
  | stopThread
  | stopSignal
  | stopAlive
  | stopJoin
  | stopDelete
  | stopClear
  deriving DecidableEq

/-- Where the created thread is in `AsyncExecStart`: in `Run`, in the handler of a
`std::exception`, before `OnRunFinish`, behind it, or at its end. `leftBy` is the step of
`Run` that threw. -/
inductive WorkerPc where
  | run (pc : RunPc)
  | caught (leftBy : RunPc)
  | finish (leftBy : Option RunPc)
  | clear
  | ended
  deriving DecidableEq

structure System where
  shared : Shared := {}
  main : MainPc := .idle
  mainHooks : Hooks := {}
  worker : Option WorkerPc := none
  workerHooks : Hooks := {}

/-- `Device::AsyncExecStart` behind a step of `Run`. -/
def WorkerPc.behind (pc : RunPc) : Next → WorkerPc
  | .goto next => .run next
  | .returns => .finish none
  | .throws .zmqError => .finish (some pc)
  | .throws .stdException => .caught pc
  | .throws .other => .finish (some pc)

/-- The caller behind a step of `Run`. -/
def MainPc.behind : Next → MainPc
  | .goto next => .run next
  | .returns => .idle
  | .throws _ => .idle

namespace System

/-- A step of `Device::AsyncExecStart`. -/
def workerStep (s : System) (w : WorkerPc) (outcome : Outcome) : System :=
  match w with
  | .run pc =>
    let (shared, hooks, next) := runStep s.shared s.workerHooks pc outcome
    { s with shared := shared, workerHooks := hooks, worker := some (.behind pc next) }
  | .caught leftBy =>
    { s with
      shared := { s.shared with running := false }
      worker := some (.finish (some leftBy)) }
  | .finish _ =>
    -- whatever `OnRunFinish` throws here is caught
    { s with
      workerHooks := { s.workerHooks with finishes := s.workerHooks.finishes + 1 }
      worker := some .clear }
  | .clear => { s with shared := { s.shared with running := false }, worker := some .ended }
  | .ended => s

/-- A step of the calling thread. `alive` is what `Thread::Alive` says of a thread that has
ended: the identifier can be that of another thread by now. -/
def mainStep (s : System) (pc : MainPc) (outcome : Outcome) (alive : Bool) : System :=
  match pc with
  | .idle => s
  | .run pc =>
    let (shared, hooks, next) := runStep s.shared s.mainHooks pc outcome
    { s with shared := shared, mainHooks := hooks, main := .behind next }
  | .asyncCheck => { s with main := if s.shared.cw then .idle else .asyncThread }
  | .asyncThread => { s with main := if s.shared.thread then .idle else .asyncReset }
  | .asyncReset =>
    { s with shared := { s.shared with asyncWait := false }, main := .asyncCreate }
  | .asyncCreate =>
    match outcome with
    | .returned =>
      { s with
        shared := { s.shared with thread := true }
        worker := some (.run .check)
        main := .asyncWaiting }
    | .threw _ => { s with main := .idle }
  | .asyncWaiting => if s.shared.asyncWait then { s with main := .idle } else s
  | .stopThread => { s with main := if s.shared.thread then .stopSignal else .idle }
  | .stopSignal => { s with shared := { s.shared with cw := true }, main := .stopAlive }
  | .stopAlive =>
    { s with main := if s.worker = some .ended ∧ !alive then .stopClear else .stopJoin }
  | .stopJoin => if s.worker = some .ended then { s with main := .stopDelete } else s
  | .stopDelete =>
    { s with
      shared := { s.shared with thread := false }
      worker := none
      main := .stopClear }
  | .stopClear => { s with shared := { s.shared with running := false }, main := .idle }

end System

/-- What happens next: a call, a step of a thread, or the owner of the semaphore signals or
resets it. -/
inductive Action where
  | run
  | runAsync
  | stopAsync
  | main (outcome : Outcome) (alive : Bool)
  | worker (outcome : Outcome)
  | signal
  | reset

namespace System

/-- The caller begins a call; there is one call at a time. -/
def call (s : System) (entry : MainPc) : System :=
  if s.main = .idle then { s with main := entry } else s

def step (s : System) : Action → System
  | .run => s.call (.run .check)
  | .runAsync => s.call .asyncCheck
  | .stopAsync => s.call .stopThread
  | .main outcome alive => s.mainStep s.main outcome alive
  | .worker outcome =>
    match s.worker with
    | none => s
    | some w => s.workerStep w outcome
  | .signal => { s with shared := { s.shared with cw := true } }
  | .reset => { s with shared := { s.shared with cw := false } }

/-- The system after some actions; at first the device is constructed. -/
def run (actions : List Action) : System := actions.foldl step {}

end System

end Device

end Zippylog
