import Zippylog.Device
import Zippylog.Machine

/-!
# What holds of a device's handlers and flags

A device is run by the thread that calls `Run`, by the one that `RunAsync` creates, or by both. The
calls that a subclass sees are to be in order whatever the threads do: `OnFirstRun` returns once,
each `OnRunStart` that returned is followed by one `OnRunFinish`, `running` tells of a `Run` that
executes, and `RunAsync` is not left waiting. `lifecycle_iff` says when this is so: as long as no
step of the run is one of four.

- `Pump` throws to the caller of `Run`, where nothing calls `OnRunFinish` then.
- The entry of the created thread calls `OnRunFinish` for a `Run` that `Pump` did not leave:
  one that ended by itself, and has called it, or one that never came to `OnRunStart`.
- A thread leaves `Run` before its end while `running` is set, by its own `Run` or by one on
  the other thread, and the other thread is not in `Run`. The handler of a `std::exception`
  clears the flag only behind that.
- `OnFirstRun` returns although an `OnRunStart` has thrown behind the first one.

Both directions go over runs. In a run without these steps an invariant is carried on that says
for either thread where it is and what the flags and counts have to be there; a step that is one of
the four spoils the state that it leads to. `has_ran` is what keeps the threads apart: until it is
set, only one of them is in `Run`.
-/

namespace Zippylog

namespace Device

/-! ## The parts of `Run` -/

namespace RunPc

/-- Between the return of `OnRunStart` and the call of `OnRunFinish`. -/
def owes : RunPc → Bool
  | .setRunning => true
  | .setHasRan => true
  | .signal => true
  | .loop => true
  | .pump => true
  | .runFinish => true
  | _ => false

/-- Between `OnFirstRun` and the assignment of `has_ran`. -/
def opening : RunPc → Bool
  | .runStart => true
  | .setRunning => true
  | .setHasRan => true
  | _ => false

/-- A step that leaves `Run` before its end: the semaphore is signalled at the first test,
or a handler throws. -/
def Leaves (m : Shared) (outcome : Outcome) : RunPc → Prop
  | .check => m.cw = true
  | .firstRun => outcome ≠ .returned
  | .runStart => outcome ≠ .returned
  | .pump => outcome ≠ .returned
  | .runFinish => outcome ≠ .returned
  | _ => False

/-- Behind the signal to `RunAsync`. -/
def signalled : RunPc → Bool
  | .loop => true
  | .pump => true
  | .runFinish => true
  | .clearRunning => true
  | _ => false

end RunPc

def Next.any (f : RunPc → Bool) : Next → Bool
  | .goto pc => f pc
  | _ => false

def MainPc.runPc : MainPc → Option RunPc
  | .run pc => some pc
  | _ => none

namespace WorkerPc

def runPc : WorkerPc → Option RunPc
  | .run pc => some pc
  | _ => none

/-- `AsyncExecStart` calls `OnRunFinish` for a `Run` that `Pump` left. -/
def owes : WorkerPc → Bool
  | .run pc => pc.owes
  | .caught leftBy => leftBy == .pump
  | .finish leftBy => leftBy == some .pump
  | _ => false

/-- Only what `Pump` left is known to be behind the signal, where `Run` has been left. -/
def signalled : WorkerPc → Bool
  | .run pc => pc.signalled
  | .caught leftBy => leftBy == .pump
  | .finish leftBy => leftBy == some .pump
  | .clear => true
  | .ended => true

theorem any_runPc_behind (f : RunPc → Bool) (pc : RunPc) (next : Next) :
    (behind pc next).runPc.any f = next.any f := by
  rcases next with next | - | kind
  · rfl
  · rfl
  · cases kind <;> rfl

theorem owes_behind {pc : RunPc} (hpump : pc ≠ .pump) (next : Next) :
    (behind pc next).owes = next.any RunPc.owes := by
  rcases next with next | - | kind
  · rfl
  · rfl
  · cases kind <;> simp [behind, owes, Next.any, hpump]

end WorkerPc

theorem MainPc.any_runPc_behind (f : RunPc → Bool) (next : Next) :
    (behind next).runPc.any f = next.any f := by
  cases next <;> rfl

theorem WorkerPc.behind_eq_run {pc pc' : RunPc} {next : Next} (h : behind pc next = .run pc') :
    next = .goto pc' := by
  rcases next with next | - | kind
  · cases h
    rfl
  · cases h
  · cases kind <;> cases h

theorem MainPc.behind_eq_run {pc : RunPc} {next : Next} (h : behind next = .run pc) :
    next = .goto pc := by
  cases next <;> cases h
  rfl

/-- Behind a step of `Run`, the caller is in `Run` or between calls. -/
theorem MainPc.behind_cases {next : Next} {pc : MainPc} (h : behind next = pc) :
    pc = .idle ∨ ∃ pc', pc = .run pc' := by
  subst h
  cases next with
  | goto pc' => exact .inr ⟨pc', rfl⟩
  | returns => exact .inl rfl
  | throws kind => exact .inl rfl

/-! ## What a step of `Run` does -/

section RunStep

variable (m : Shared) (h : Hooks) (pc : RunPc) (outcome : Outcome)

theorem runStep_thread : (runStep m h pc outcome).1.thread = m.thread := by
  cases pc <;> cases outcome <;> rfl

theorem runStep_hasRan (hm : m.hasRan = true) :
    (runStep m h pc outcome).1.hasRan = true := by
  cases pc <;> cases outcome <;> first | exact hm | rfl

theorem runStep_unset (hran : (runStep m h pc outcome).1.hasRan = false) : m.hasRan = false :=
  Bool.eq_false_iff.mpr fun hm => Bool.eq_false_iff.mp hran (runStep_hasRan m h pc outcome hm)

theorem runStep_asyncWait : (runStep m h pc outcome).1.asyncWait = true ↔
    m.asyncWait = true ∨ pc = .signal := by
  cases pc <;> cases outcome <;> simp [runStep]

/-- `has_ran` is set where `async_wait` is signalled. -/
theorem runStep_signal (hnext : (runStep m h pc outcome).2.2 = .goto .signal) :
    (runStep m h pc outcome).1.hasRan = true := by
  cases pc <;> cases outcome <;> grind [runStep]

theorem runStep_firstRun (hnext : (runStep m h pc outcome).2.2 = .goto .firstRun) :
    (runStep m h pc outcome).1.hasRan = false := by
  cases pc <;> cases outcome <;> grind [runStep]

theorem runStep_signalled
    (hnext : (WorkerPc.behind pc (runStep m h pc outcome).2.2).signalled = true) :
    pc.signalled = true ∨ (runStep m h pc outcome).1.asyncWait = true := by
  revert hnext
  cases pc <;> rcases outcome with - | (- | - | -) <;>
    simp only [runStep, WorkerPc.behind, WorkerPc.signalled, RunPc.signalled] <;> grind

/-- A step behind which `running` is set stays in `Run`, or leaves it before its end. -/
theorem runStep_running (hm : (runStep m h pc outcome).1.running = true) :
    (∃ pc', (runStep m h pc outcome).2.2 = .goto pc') ∨
      m.running = true ∧ pc.Leaves m outcome := by
  cases pc <;> cases outcome <;> grind [runStep, RunPc.Leaves]

/-- A step that leaves `Run` before its end clears nothing. -/
theorem runStep_leaves (hleaves : pc.Leaves m outcome) :
    (runStep m h pc outcome).1.running = m.running ∧
      ∀ pc', (runStep m h pc outcome).2.2 ≠ .goto pc' := by
  cases pc <;> cases outcome <;> grind [runStep, RunPc.Leaves]

theorem runStep_owes (hh : h.starts = h.finishes + pc.owes.toNat)
    (hpump : pc = .pump → outcome = .returned) :
    let (_, h', next) := runStep m h pc outcome
    h'.starts = h'.finishes + (next.any RunPc.owes).toNat := by
  cases pc <;> cases outcome <;> grind [runStep, Next.any, RunPc.owes]

/-- What `Pump` leaves owed is left to `AsyncExecStart`. -/
theorem runStep_worker_owes (hh : h.starts = h.finishes + pc.owes.toNat) :
    let (_, h', next) := runStep m h pc outcome
    h'.starts = h'.finishes + (WorkerPc.behind pc next).owes.toNat := by
  by_cases hpump : pc = .pump
  · subst hpump
    rcases outcome with - | (- | - | -)
    all_goals exact hh
  · dsimp only
    rw [WorkerPc.owes_behind hpump]
    exact runStep_owes m h pc outcome hh (absurd · hpump)

theorem runStep_firstRuns (hpc : pc ≠ .firstRun) :
    (runStep m h pc outcome).1.firstRuns = m.firstRuns := by
  cases pc <;> cases outcome <;> first | rfl | exact absurd rfl hpc

/-- With `has_ran` not set before the step nor by it, and no other thread in `Run`. -/
theorem runStep_fresh (hm : m.firstRuns = (m.startFailed || pc.opening).toNat)
    (hran : (runStep m h pc outcome).1.hasRan = false)
    (hmeets : pc = .firstRun → outcome = .returned → m.startFailed = false) :
    let (m', _, next) := runStep m h pc outcome
    m'.firstRuns = (m'.startFailed || next.any RunPc.opening).toNat := by
  cases pc <;> cases outcome <;> grind [runStep, Next.any, RunPc.opening]

/-- `OnFirstRun` is called behind a look at `has_ran` only, which is set behind the first
`OnRunStart`. -/
theorem runStep_firstRuns_le (hm : m.firstRuns ≤ 1)
    (hfirst : pc = .firstRun → m.hasRan = false)
    (hfresh : (runStep m h pc outcome).1.hasRan = false →
      (runStep m h pc outcome).1.firstRuns =
        ((runStep m h pc outcome).1.startFailed ||
          (runStep m h pc outcome).2.2.any RunPc.opening).toNat) :
    (runStep m h pc outcome).1.firstRuns ≤ 1 := by
  by_cases hpc : pc = .firstRun
  · have hran : (runStep m h pc outcome).1.hasRan = false := by
      rw [← hfirst hpc, hpc]
      cases outcome <;> rfl
    rw [hfresh hran]
    exact Bool.toNat_le _
  · rwa [runStep_firstRuns _ _ _ _ hpc]

end RunStep

/-! ## The property -/

/-- Every finish comes behind a start of its own, and is missing only as long as the thread
can still call it. -/
structure Hooks.Paired (h : Hooks) (pending : Bool) : Prop where
  notBefore : h.finishes ≤ h.starts
  atMostOne : h.starts ≤ h.finishes + 1
  done : pending = false → h.starts = h.finishes

namespace System

/-- The caller is in `Run`. -/
def mainExecuting (s : System) : Bool := s.main.runPc.isSome

/-- The created thread is in `Run`. -/
def workerExecuting (s : System) : Bool := s.worker.any (·.runPc.isSome)

/-- The created thread has not ended: it is in `Run`, or cleans up behind it. -/
def workerAlive (s : System) : Bool := s.worker.any (· != .ended)

/-- `RunAsync` waits for a thread that has ended without a signal. -/
def Stranded (s : System) : Prop :=
  s.main = .asyncWaiting ∧ s.worker = some .ended ∧ s.shared.asyncWait = false

structure Correct (s : System) : Prop where
  firstRun : s.shared.firstRuns ≤ 1
  mainHooks : s.mainHooks.Paired s.mainExecuting
  workerHooks : s.workerHooks.Paired s.workerAlive
  running : s.shared.running = true → s.mainExecuting = true ∨ s.workerExecuting = true
  awaited : ¬ s.Stranded

/-- What must not happen in a step of the caller. -/
def MainMeets (s : System) (outcome : Outcome) : Prop :=
  match s.main with
  | .run pc =>
    (pc = .firstRun → outcome = .returned → s.shared.startFailed = false) ∧
    (pc = .pump → outcome = .returned) ∧
    (pc.Leaves s.shared outcome → s.shared.running = false ∨ s.workerExecuting = true)
  | _ => True

/-- What must not happen in a step of the created thread. -/
def WorkerMeets (s : System) (outcome : Outcome) : Prop :=
  match s.worker with
  | some (.run pc) =>
    (pc = .firstRun → outcome = .returned → s.shared.startFailed = false) ∧
    (pc.Leaves s.shared outcome → s.shared.running = false ∨ s.mainExecuting = true)
  | some (.finish leftBy) => leftBy = some .pump
  | _ => True

def Meets (s : System) : Action → Prop
  | .main outcome _ => s.MainMeets outcome
  | .worker outcome => s.WorkerMeets outcome
  | _ => True

/-! ## The invariant -/

/-- A thread is between `OnFirstRun` and the assignment of `has_ran`. -/
def opening (s : System) : Bool :=
  s.main.runPc.any RunPc.opening || s.worker.any (·.runPc.any RunPc.opening)

structure Inv (s : System) : Prop where
  mainHooks : s.mainHooks.starts = s.mainHooks.finishes + (s.main.runPc.any RunPc.owes).toNat
  workerHooks :
    s.workerHooks.starts = s.workerHooks.finishes + (s.worker.any WorkerPc.owes).toNat
  -- the pointer to the thread
  thread : s.shared.thread = false → s.worker = none
  create : s.main = .asyncReset ∨ s.main = .asyncCreate → s.shared.thread = false
  delete : s.main = .stopDelete → s.worker = some .ended
  -- the signal to `RunAsync`, and `has_ran` when it returns
  awaits : s.main = .asyncWaiting → s.worker ≠ none
  mainSignal : s.main = .run .signal → s.shared.hasRan = true
  workerSignal : s.worker = some (.run .signal) → s.shared.hasRan = true
  asyncWait : s.shared.asyncWait = true → s.shared.hasRan = true
  signalled : s.main = .asyncWaiting → s.worker.any WorkerPc.signalled = true →
    s.shared.asyncWait = true
  released : s.main ≠ .asyncWaiting → s.worker ≠ none → s.shared.hasRan = true
  -- `running`
  running : s.shared.running = true → s.mainExecuting = true ∨ s.workerExecuting = true
  -- `OnFirstRun`
  firstRuns : s.shared.firstRuns ≤ 1
  mainFirst : s.main = .run .firstRun → s.shared.hasRan = false
  workerFirst : s.worker = some (.run .firstRun) → s.shared.hasRan = false
  fresh : s.shared.hasRan = false →
    s.shared.firstRuns = (s.shared.startFailed || s.opening).toNat

theorem inv_initial : Inv {} := by
  constructor <;> simp [MainPc.runPc, opening]

variable {s : System}

/-- The invariant has what is asked of a state. -/
theorem Inv.correct (h : s.Inv) : s.Correct where
  firstRun := h.firstRuns
  mainHooks := by
    have howes := Bool.toNat_le (s.main.runPc.any RunPc.owes)
    have hmain := h.mainHooks
    refine ⟨by omega, by omega, ?_⟩
    intro hexecuting
    rw [mainExecuting, Option.isSome_eq_false_iff, Option.isNone_iff_eq_none] at hexecuting
    rw [hmain, hexecuting]
    rfl
  workerHooks := by
    have howes := Bool.toNat_le (s.worker.any WorkerPc.owes)
    have hworker := h.workerHooks
    refine ⟨by omega, by omega, ?_⟩
    intro hexecuting
    have : s.worker.any WorkerPc.owes = false := by
      rw [workerAlive] at hexecuting
      cases hw : s.worker with
      | none => rfl
      | some w =>
        obtain rfl : w = .ended := by simpa [hw] using hexecuting
        rfl
    rw [hworker, this]
    rfl
  running := h.running
  awaited := by
    rintro ⟨hmain, hworker, hwait⟩
    have := h.signalled hmain (by rw [hworker]; rfl)
    rw [hwait] at this
    contradiction

theorem mainStep_run (pc : RunPc) (outcome : Outcome) (alive : Bool) :
    s.mainStep (.run pc) outcome alive =
      { s with
        shared := (runStep s.shared s.mainHooks pc outcome).1
        mainHooks := (runStep s.shared s.mainHooks pc outcome).2.1
        main := .behind (runStep s.shared s.mainHooks pc outcome).2.2 } := rfl

/-- With `has_ran` not set, a caller in `Run` is alone. -/
theorem Inv.worker_eq_none (h : s.Inv) {pc : RunPc} (hmain : s.main = .run pc)
    (hran : s.shared.hasRan = false) : s.worker = none := by
  by_contra hworker
  have := h.released (by rw [hmain]; nofun) hworker
  rw [hran] at this
  contradiction

/-- With `has_ran` not set, the created thread is alone in `Run`. -/
theorem Inv.main_eq_asyncWaiting (h : s.Inv) (hworker : s.worker ≠ none)
    (hran : s.shared.hasRan = false) : s.main = .asyncWaiting := by
  by_contra hmain
  have := h.released hmain hworker
  rw [hran] at this
  contradiction

/-- A step of `Run` on the thread that called it. The cases are those of `runStep`, and the
condition takes out the ones that spoil the flags. -/
theorem Inv.mainRun {pc : RunPc} {outcome : Outcome} {alive : Bool} (h : s.Inv)
    (hmain : s.main = .run pc) (hmeets : s.MainMeets outcome) :
    (s.mainStep (.run pc) outcome alive).Inv := by
  rw [mainStep_run]
  rw [MainMeets, hmain] at hmeets
  have hreleased := h.released (by rw [hmain]; nofun)
  have hran := runStep_hasRan s.shared s.mainHooks pc outcome
  have hunset := runStep_unset s.shared s.mainHooks pc outcome
  have hfresh : (runStep s.shared s.mainHooks pc outcome).1.hasRan = false →
      (runStep s.shared s.mainHooks pc outcome).1.firstRuns =
        ((runStep s.shared s.mainHooks pc outcome).1.startFailed ||
          (runStep s.shared s.mainHooks pc outcome).2.2.any RunPc.opening).toNat := by
    intro hran'
    refine runStep_fresh _ _ _ _ ?_ hran' ?_
    · have := h.fresh (hunset hran')
      rwa [opening, hmain, h.worker_eq_none hmain (hunset hran'), Option.any_none,
        Bool.or_false] at this
    · exact hmeets.1
  constructor
  case mainHooks =>
    rw [MainPc.any_runPc_behind]
    have := h.mainHooks
    rw [hmain] at this
    exact runStep_owes s.shared s.mainHooks pc outcome this hmeets.2.1
  case workerHooks => exact h.workerHooks
  case thread =>
    rw [runStep_thread]
    exact h.thread
  case create =>
    rintro (hmain' | hmain')
    · exact (MainPc.behind_cases hmain').elim nofun nofun
    · exact (MainPc.behind_cases hmain').elim nofun nofun
  case delete => exact fun hmain' => (MainPc.behind_cases hmain').elim nofun nofun
  case awaits => exact fun hmain' => (MainPc.behind_cases hmain').elim nofun nofun
  case mainSignal => exact fun hmain' => runStep_signal _ _ _ _ (MainPc.behind_eq_run hmain')
  case workerSignal => exact fun hworker => hran (h.workerSignal hworker)
  case asyncWait =>
    intro hwait
    obtain hwait | rfl := (runStep_asyncWait ..).mp hwait
    · exact hran (h.asyncWait hwait)
    · exact hran (h.mainSignal hmain)
  case signalled => exact fun hmain' => (MainPc.behind_cases hmain').elim nofun nofun
  case released => exact fun _ hworker => hran (hreleased hworker)
  -- the thread goes on in `Run`, or has left it
  case running =>
    intro hrunning
    obtain ⟨pc', hnext⟩ | ⟨hm, hleaves⟩ := runStep_running _ _ _ _ hrunning
    · left
      rw [mainExecuting, hnext]
      rfl
    · refine .inr ((hmeets.2.2 hleaves).resolve_left ?_)
      rw [hm]
      nofun
  case firstRuns =>
    refine runStep_firstRuns_le _ _ _ _ h.firstRuns ?_ hfresh
    rintro rfl
    exact h.mainFirst hmain
  case mainFirst => exact fun hmain' => runStep_firstRun _ _ _ _ (MainPc.behind_eq_run hmain')
  case workerFirst =>
    intro hworker
    have hset := hreleased (by rw [hworker]; nofun)
    rw [h.workerFirst hworker] at hset
    contradiction
  -- until `has_ran` is set there is no worker, so the count is that of this thread
  case fresh =>
    intro hran'
    rw [opening, MainPc.any_runPc_behind, h.worker_eq_none hmain (hunset hran'),
      Option.any_none, Bool.or_false]
    exact hfresh hran'

theorem workerStep_run (pc : RunPc) (outcome : Outcome) :
    s.workerStep (.run pc) outcome =
      { s with
        shared := (runStep s.shared s.workerHooks pc outcome).1
        workerHooks := (runStep s.shared s.workerHooks pc outcome).2.1
        worker := some (.behind pc (runStep s.shared s.workerHooks pc outcome).2.2) } := rfl

/-- A step of `Run` on the created thread. A `Run` that `Pump` leaves goes on to the clean-up, with
`running` set. -/
theorem Inv.workerRun {pc : RunPc} {outcome : Outcome} (h : s.Inv)
    (hworker : s.worker = some (.run pc)) (hmeets : s.WorkerMeets outcome) :
    (s.workerStep (.run pc) outcome).Inv := by
  rw [workerStep_run]
  rw [WorkerMeets, hworker] at hmeets
  have hsome : s.worker ≠ none := by
    rw [hworker]
    nofun
  have hran := runStep_hasRan s.shared s.workerHooks pc outcome
  have hunset := runStep_unset s.shared s.workerHooks pc outcome
  have hfresh : (runStep s.shared s.workerHooks pc outcome).1.hasRan = false →
      (runStep s.shared s.workerHooks pc outcome).1.firstRuns =
        ((runStep s.shared s.workerHooks pc outcome).1.startFailed ||
          (runStep s.shared s.workerHooks pc outcome).2.2.any RunPc.opening).toNat := by
    intro hran'
    refine runStep_fresh _ _ _ _ ?_ hran' ?_
    · have := h.fresh (hunset hran')
      rwa [opening, hworker, h.main_eq_asyncWaiting hsome (hunset hran')] at this
    · exact hmeets.1
  constructor
  case mainHooks => exact h.mainHooks
  case workerHooks =>
    have := h.workerHooks
    rw [hworker] at this
    exact runStep_worker_owes s.shared _ _ outcome this
  case thread =>
    rw [runStep_thread]
    intro hthread
    exact absurd (h.thread hthread) hsome
  case create =>
    rw [runStep_thread]
    exact h.create
  case delete =>
    intro hmain
    rw [h.delete hmain] at hworker
    cases hworker
  case awaits => exact fun _ => nofun
  case mainSignal => exact fun hmain => hran (h.mainSignal hmain)
  case workerSignal =>
    intro hworker'
    exact runStep_signal _ _ _ _ (WorkerPc.behind_eq_run (Option.some.inj hworker'))
  case asyncWait =>
    intro hwait
    obtain hwait | rfl := (runStep_asyncWait ..).mp hwait
    · exact hran (h.asyncWait hwait)
    · exact hran (h.workerSignal hworker)
  case signalled =>
    intro hmain hsignalled
    obtain hpc | hwait := runStep_signalled _ _ _ _ hsignalled
    · refine (runStep_asyncWait ..).mpr (.inl (h.signalled hmain ?_))
      rw [hworker]
      exact hpc
    · exact hwait
  case released => exact fun hmain _ => hran (h.released hmain hsome)
  -- the worker goes on in its `Run`, or has left it with `running` cleared or set
  case running =>
    intro hrunning
    obtain ⟨pc', hnext⟩ | ⟨hm, hleaves⟩ := runStep_running _ _ _ _ hrunning
    · right
      rw [workerExecuting, hnext]
      rfl
    · refine .inl ((hmeets.2 hleaves).resolve_left ?_)
      rw [hm]
      nofun
  case firstRuns =>
    refine runStep_firstRuns_le _ _ _ _ h.firstRuns ?_ hfresh
    rintro rfl
    exact h.workerFirst hworker
  case mainFirst =>
    intro hmain
    have hset := h.released (by rw [hmain]; nofun) hsome
    rw [h.mainFirst hmain] at hset
    contradiction
  case workerFirst =>
    intro hworker'
    exact runStep_firstRun _ _ _ _ (WorkerPc.behind_eq_run (Option.some.inj hworker'))
  -- until `has_ran` is set the calling thread waits, so the count is that of the worker
  case fresh =>
    intro hran'
    rw [opening, Option.any_some, WorkerPc.any_runPc_behind,
      h.main_eq_asyncWaiting hsome (hunset hran')]
    exact hfresh hran'

/-- A step of the created thread: of its `Run`, or of the clean-up behind it. -/
theorem Inv.workerStep {w : WorkerPc} {outcome : Outcome} (h : s.Inv)
    (hworker : s.worker = some w) (hmeets : s.WorkerMeets outcome) :
    (s.workerStep w outcome).Inv := by
  have hpaired := h.workerHooks
  have hsignalled := h.signalled
  have hreleased := h.released
  have hfresh := h.fresh
  have hmainRunning (hw : w.runPc = none) (hm : s.shared.running = true) :
      s.mainExecuting = true := by
    refine (h.running hm).resolve_right ?_
    rw [workerExecuting, hworker, Option.any_some, hw]
    nofun
  rw [hworker] at hpaired hsignalled hreleased
  rw [opening, hworker] at hfresh
  cases w with
  | run pc => exact h.workerRun hworker hmeets
  | caught leftBy =>
    exact { h with
      workerHooks := hpaired
      thread := fun hthread => absurd (h.thread hthread) (by rw [hworker]; nofun)
      delete := fun hmain => by have := h.delete hmain; rw [hworker] at this; cases this
      awaits := fun _ => nofun
      workerSignal := nofun
      signalled := hsignalled
      released := fun hmain _ => hreleased hmain nofun
      running := nofun
      workerFirst := nofun
      fresh := hfresh }
  -- the clean-up calls `OnRunFinish`, which a `Run` that `Pump` left still owes
  | finish leftBy =>
    rw [WorkerMeets, hworker] at hmeets
    obtain rfl : leftBy = some .pump := hmeets
    exact { h with
      workerHooks := hpaired
      thread := fun hthread => absurd (h.thread hthread) (by rw [hworker]; nofun)
      delete := fun hmain => by have := h.delete hmain; rw [hworker] at this; cases this
      awaits := fun _ => nofun
      workerSignal := nofun
      signalled := hsignalled
      released := fun hmain _ => hreleased hmain nofun
      running := fun hm => .inl (hmainRunning rfl hm)
      workerFirst := nofun
      fresh := hfresh }
  -- the clean-up clears `running`
  | clear =>
    exact { h with
      workerHooks := hpaired
      thread := fun hthread => absurd (h.thread hthread) (by rw [hworker]; nofun)
      delete := fun _ => rfl
      awaits := fun _ => nofun
      workerSignal := nofun
      signalled := hsignalled
      released := fun hmain _ => hreleased hmain nofun
      running := nofun
      workerFirst := nofun
      fresh := hfresh }
  | ended => exact h

/-! ### The flags -/

theorem Inv.setCw (h : s.Inv) (cw : Bool) :
    Inv { s with shared := { s.shared with cw := cw } } := { h with }

theorem Inv.clearRunning (h : s.Inv) :
    Inv { s with shared := { s.shared with running := false } } :=
  { h with running := nofun }

theorem Inv.resetAsyncWait (h : s.Inv) (hmain : s.main ≠ .asyncWaiting) :
    Inv { s with shared := { s.shared with asyncWait := false } } :=
  { h with
    asyncWait := nofun
    signalled := fun hmain' => absurd hmain' hmain }

/-! ### The caller outside `Run` -/

/-- The caller goes on outside `Run`, or enters it. -/
theorem Inv.setMain (h : s.Inv) {pc₀ pc : MainPc} (hmain : s.main = pc₀)
    (houtside : pc₀.runPc = none) (hwait : pc₀ = .asyncWaiting → s.shared.asyncWait = true)
    (hpc : pc.runPc = none ∨ pc = .run .check) (hwait' : pc ≠ .asyncWaiting)
    (hcreate : pc = .asyncReset ∨ pc = .asyncCreate → s.shared.thread = false)
    (hdelete : pc = .stopDelete → s.worker = some .ended) :
    Inv { s with main := pc } := by
  subst hmain
  -- the thread is in no `Run`, or in front of one
  have hany {f : RunPc → Bool} (hf : f .check = false) : pc.runPc.any f = false := by
    obtain hpc | rfl := hpc
    · rw [hpc]
      rfl
    · exact hf
  have hnot {pc' : RunPc} (hpc' : pc' ≠ .check) : pc ≠ .run pc' := by
    rintro rfl
    obtain hpc | hpc := hpc
    · cases hpc
    · exact hpc' (MainPc.run.inj hpc)
  exact { h with
    mainHooks := by
      have := h.mainHooks
      rw [houtside] at this
      rwa [hany rfl]
    create := hcreate
    delete := hdelete
    awaits := fun hpc => absurd hpc hwait'
    mainSignal := fun hpc => absurd hpc (hnot nofun)
    signalled := fun hpc => absurd hpc hwait'
    released := by
      intro _ hworker
      by_cases hmain' : s.main = .asyncWaiting
      · exact h.asyncWait (hwait hmain')
      · exact h.released hmain' hworker
    running := by
      intro hrunning
      refine .inr ((h.running hrunning).resolve_left ?_)
      rw [mainExecuting, houtside]
      nofun
    mainFirst := fun hpc => absurd hpc (hnot nofun)
    fresh := by
      have := h.fresh
      rw [opening, houtside] at this
      rwa [opening, hany rfl] }

theorem Inv.setIdle (h : s.Inv) {pc₀ : MainPc} (hmain : s.main = pc₀)
    (houtside : pc₀.runPc = none) (hwait : pc₀ = .asyncWaiting → s.shared.asyncWait = true) :
    Inv { s with main := .idle } :=
  h.setMain hmain houtside hwait (.inl rfl) nofun nofun nofun

/-- `RunAsync` makes the thread, which is in front of its `Run`. -/
theorem Inv.createThread (h : s.Inv) (hmain : s.main = .asyncCreate) :
    Inv { s with
      shared := { s.shared with thread := true }
      worker := some (.run .check)
      main := .asyncWaiting } := by
  have hworker := h.thread (h.create (.inr hmain))
  have hpaired := h.workerHooks
  have hmainHooks := h.mainHooks
  have hfresh := h.fresh
  rw [hworker] at hpaired
  rw [hmain] at hmainHooks
  rw [opening, hmain, hworker] at hfresh
  exact { h with
    mainHooks := hmainHooks
    workerHooks := hpaired
    thread := nofun
    create := nofun
    delete := nofun
    awaits := fun _ => nofun
    mainSignal := nofun
    workerSignal := nofun
    signalled := nofun
    released := fun hpc => absurd rfl hpc
    running := fun _ => .inr rfl
    mainFirst := nofun
    workerFirst := nofun
    fresh := hfresh }

/-- `StopAsync` deletes the thread behind its end. -/
theorem Inv.deleteThread (h : s.Inv) (hmain : s.main = .stopDelete) :
    Inv { s with
      shared := { s.shared with thread := false }
      worker := none
      main := .stopClear } := by
  have hworker := h.delete hmain
  have hpaired := h.workerHooks
  have hmainHooks := h.mainHooks
  have hfresh := h.fresh
  have hrunning := h.running
  rw [hworker] at hpaired
  rw [hmain] at hmainHooks
  rw [opening, hmain, hworker] at hfresh
  rw [mainExecuting, workerExecuting, hmain, hworker] at hrunning
  exact { h with
    mainHooks := hmainHooks
    workerHooks := hpaired
    thread := fun _ => rfl
    create := nofun
    delete := nofun
    awaits := nofun
    mainSignal := nofun
    workerSignal := nofun
    signalled := nofun
    released := fun _ hpc => absurd rfl hpc
    running := fun hm => absurd (hrunning hm) nofun
    mainFirst := nofun
    workerFirst := nofun
    fresh := hfresh }

/-- A step of the calling thread. -/
theorem Inv.mainStep {pc : MainPc} {outcome : Outcome} {alive : Bool} (h : s.Inv)
    (hmain : s.main = pc) (hmeets : s.MainMeets outcome) :
    (s.mainStep pc outcome alive).Inv := by
  cases pc with
  | idle => exact h
  | run pc => exact h.mainRun hmain hmeets
  | asyncCheck =>
    simp only [System.mainStep]
    split
    · exact h.setIdle hmain rfl nofun
    · exact h.setMain hmain rfl nofun (.inl rfl) nofun nofun nofun
  | asyncThread => 
    simp only [System.mainStep]
    cases hthread : s.shared.thread with
    | true => exact h.setIdle hmain rfl nofun
    | false => exact h.setMain hmain rfl nofun (.inl rfl) nofun (fun _ => hthread) nofun
  | asyncReset =>
    have hreset := h.resetAsyncWait (by rw [hmain]; nofun)
    exact hreset.setMain hmain rfl nofun (.inl rfl) nofun (fun _ => h.create (.inl hmain)) nofun
  | asyncCreate =>
    cases outcome with
    | returned => exact h.createThread hmain
    | threw kind => exact h.setIdle hmain rfl nofun
  | asyncWaiting =>
    simp only [System.mainStep]
    split
    · exact h.setIdle hmain rfl (fun _ => ‹_›)
    · exact h
  | stopThread =>
    simp only [System.mainStep]
    split
    · exact h.setMain hmain rfl nofun (.inl rfl) nofun nofun nofun
    · exact h.setIdle hmain rfl nofun
  | stopSignal =>
    exact (h.setCw true).setMain hmain rfl nofun (.inl rfl) nofun nofun nofun
  | stopAlive =>
    simp only [System.mainStep]
    split
    · exact h.setMain hmain rfl nofun (.inl rfl) nofun nofun nofun
    · exact h.setMain hmain rfl nofun (.inl rfl) nofun nofun nofun
  | stopJoin =>
    simp only [System.mainStep]
    split
    · exact h.setMain hmain rfl nofun (.inl rfl) nofun nofun (fun _ => ‹_›)
    · exact h
  | stopDelete => exact h.deleteThread hmain
  | stopClear => exact h.clearRunning.setIdle hmain rfl nofun

/-- A call of the application begins where no other is under way. -/
theorem Inv.call (h : s.Inv) {entry : MainPc}
    (hentry : entry.runPc = none ∨ entry = .run .check) (hwait : entry ≠ .asyncWaiting)
    (hcreate : entry ≠ .asyncReset ∧ entry ≠ .asyncCreate) (hdelete : entry ≠ .stopDelete) :
    (s.call entry).Inv := by
  rw [System.call]
  split
  case isTrue hidle =>
    refine h.setMain hidle rfl nofun hentry hwait ?_ (absurd · hdelete)
    exact fun hpc => (hpc.elim hcreate.1 hcreate.2).elim
  case isFalse => exact h

/-- A step that is none of the four keeps the invariant. -/
theorem Inv.step (h : s.Inv) {a : Action} (hmeets : s.Meets a) : (s.step a).Inv := by
  cases a with
  | run => exact h.call (.inr rfl) nofun ⟨nofun, nofun⟩ nofun
  | runAsync => exact h.call (.inl rfl) nofun ⟨nofun, nofun⟩ nofun
  | stopAsync => exact h.call (.inl rfl) nofun ⟨nofun, nofun⟩ nofun
  | main outcome alive => exact h.mainStep rfl hmeets
  | worker outcome =>
    rw [System.step]
    split
    case h_1 => exact h
    case h_2 w hworker => exact h.workerStep hworker hmeets
  | signal => exact h.setCw true
  | reset => exact h.setCw false

/-! ## The four steps -/

/-- `OnFirstRun` has returned before the `OnRunStart` that threw. -/
theorem Inv.not_startFailed (h : s.Inv) (hran : s.shared.hasRan = false)
    (hfirst : s.shared.firstRuns + 1 ≤ 1) : s.shared.startFailed = false := by
  by_contra hfailed
  have hfresh := h.fresh hran
  rw [Bool.not_eq_false] at hfailed
  rw [hfailed, Bool.true_or, Bool.toNat_true] at hfresh
  omega

/-- A step of the calling thread that leaves a correct state met the condition: each of the other
cases is visible in the flags. -/
theorem Inv.mainMeets (h : s.Inv) {outcome : Outcome} {alive : Bool}
    (hcorrect : (s.mainStep s.main outcome alive).Correct) : s.MainMeets outcome := by
  rw [MainMeets]
  split
  case h_1 pc hmain =>
    rw [hmain, mainStep_run] at hcorrect
    refine ⟨?_, ?_, fun hleaves => ?_⟩
    · rintro rfl rfl
      exact h.not_startFailed (h.mainFirst hmain) hcorrect.firstRun
    · rintro rfl
      cases outcome with
      | returned => rfl
      | threw kind =>
        have howed := h.mainHooks
        rw [hmain] at howed
        have hdone : s.mainHooks.starts = s.mainHooks.finishes := hcorrect.mainHooks.done rfl
        change _ = _ + 1 at howed
        omega
    · obtain ⟨hsame, hnext⟩ := runStep_leaves s.shared s.mainHooks pc outcome hleaves
      by_cases hrunning : s.shared.running = true
      · refine .inr ((hcorrect.running (hsame.trans hrunning)).resolve_left ?_)
        rw [mainExecuting]
        cases hr : (runStep s.shared s.mainHooks pc outcome).2.2 with
        | goto pc' => exact absurd hr (hnext pc')
        | returns => nofun
        | throws kind => nofun
      · exact .inl (Bool.eq_false_iff.mpr hrunning)
  case h_2 => trivial

/-- The same of the created thread. -/
theorem Inv.workerMeets (h : s.Inv) {w : WorkerPc} {outcome : Outcome}
    (hworker : s.worker = some w) (hcorrect : (s.workerStep w outcome).Correct) :
    s.WorkerMeets outcome := by
  rw [WorkerMeets, hworker]
  split
  case h_1 pc heq =>
    obtain rfl := Option.some.inj heq
    rw [workerStep_run] at hcorrect
    refine ⟨?_, fun hleaves => ?_⟩
    · rintro rfl rfl
      exact h.not_startFailed (h.workerFirst hworker) hcorrect.firstRun
    · obtain ⟨hsame, hnext⟩ := runStep_leaves s.shared s.workerHooks pc outcome hleaves
      by_cases hrunning : s.shared.running = true
      · refine .inr ((hcorrect.running (hsame.trans hrunning)).resolve_right ?_)
        rw [workerExecuting, Option.any_some]
        cases hr : (runStep s.shared s.workerHooks pc outcome).2.2 with
        | goto pc' => exact absurd hr (hnext pc')
        | returns => nofun
        | throws kind => cases kind <;> nofun
      · exact .inl (Bool.eq_false_iff.mpr hrunning)
  case h_2 leftBy heq =>
    -- nothing is owed for a `Run` left otherwise
    obtain rfl := Option.some.inj heq
    by_contra hleft
    have howed := h.workerHooks
    rw [hworker, Option.any_some, WorkerPc.owes, beq_eq_false_iff_ne.mpr hleft] at howed
    have : s.workerHooks.finishes + 1 ≤ s.workerHooks.starts := hcorrect.workerHooks.notBefore
    rw [howed] at this
    exact absurd this (Nat.not_succ_le_self _)
  case h_3 => trivial

/-- So the condition is no stronger than it has to be. -/
theorem Inv.meets (h : s.Inv) {a : Action} (hcorrect : (s.step a).Correct) : s.Meets a := by
  cases a with
  | main outcome alive => exact h.mainMeets hcorrect
  | worker outcome =>
    cases hworker : s.worker with
    | none =>
      show s.WorkerMeets outcome
      rw [WorkerMeets, hworker]
      trivial
    | some w =>
      rw [System.step, hworker] at hcorrect
      exact h.workerMeets hworker hcorrect
  | _ => trivial

/-- **The handlers and flags of a device are in order** in every state of a run if and only if no
step of the run is one of the four. The steps are those of both threads in any order, with any
handler returning or throwing and the semaphore signalled at any time. A worker that is in the
clean-up of `AsyncExecStart` is not in `Run` any more. -/
theorem lifecycle_iff (actions : List Action) :
    (∀ k, (run (actions.take k)).Correct) ↔
      ∀ k a, actions[k]? = some a → (run (actions.take k)).Meets a :=
  Machine.forall_run_iff inv_initial Inv.correct (fun h hmeets => h.step hmeets)
    fun h hcorrect => h.meets hcorrect

/-- Nothing that happens then lets `RunAsync` return. -/
theorem Stranded.step (h : s.Stranded) (a : Action) : (s.step a).Stranded := by
  obtain ⟨hmain, hworker, hwait⟩ := h
  have hcall (entry : MainPc) : s.call entry = s := by
    rw [call, hmain, if_neg nofun]
  cases a with
  | run =>
    rw [System.step, hcall]
    exact ⟨hmain, hworker, hwait⟩
  | runAsync =>
    rw [System.step, hcall]
    exact ⟨hmain, hworker, hwait⟩
  | stopAsync =>
    rw [System.step, hcall]
    exact ⟨hmain, hworker, hwait⟩
  | main outcome alive =>
    rw [System.step, hmain, mainStep, hwait]
    exact ⟨hmain, hworker, hwait⟩
  | worker outcome =>
    rw [System.step, hworker]
    exact ⟨hmain, hworker, hwait⟩
  | signal => exact ⟨hmain, hworker, hwait⟩
  | reset => exact ⟨hmain, hworker, hwait⟩

theorem Stranded.run (h : s.Stranded) (actions : List Action) :
    (actions.foldl System.step s).Stranded := by
  induction actions generalizing s with
  | nil => exact h
  | cons a actions ih => exact ih (h.step a)

/-- A device that is run asynchronously and stopped, with handlers that all return. -/
def stopAsyncRun : List Action :=
  [.runAsync] ++ List.replicate 4 (.main .returned true) ++
    List.replicate 7 (.worker .returned) ++ [.main .returned true] ++
    [.stopAsync] ++ List.replicate 2 (.main .returned true) ++
    List.replicate 4 (.worker .returned)

/-- `OnRunFinish` is called at the end of `Run`, and again by the thread's entry. -/
theorem not_correct_stopAsync : ¬ ∀ (actions : List Action) k,
    (run (actions.take k)).Correct := by
  intro h
  have hlast := (h stopAsyncRun 20).workerHooks.notBefore
  have hstarts : (run (stopAsyncRun.take 20)).workerHooks.starts = 1 := by decide +kernel
  have hfinishes : (run (stopAsyncRun.take 20)).workerHooks.finishes = 2 := by decide +kernel
  rw [hstarts, hfinishes] at hlast
  contradiction

end System

end Device

end Zippylog
