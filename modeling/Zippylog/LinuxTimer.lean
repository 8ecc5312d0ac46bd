import Mathlib.Logic.Function.Basic
import Zippylog.Envelope
import Zippylog.Platform

/-!
# Timers on Linux

`Timer` as the Linux build has it: an object with a handle of a timer of the
operating system. It is started with an interval, and is signaled once the system says that nothing
of that is left.

- A copy of the object has the same handle; the destructor of either deletes the timer.
- The operating system is a table of the timers there are (`TimerTable`). A handle that
  `timer_create` returns is not in use; a deleted one can come again.
- Times are in nanoseconds. Each timer has an owner, which nothing of the code reads: it is there to
  say whose timer a handle has come to be.
- `signaled_start`: a timer that only its owner deletes is signaled when it is due, and not before.
-/

namespace Zippylog

namespace Linux

/-! ## The operating system -/

/-- A timer of the operating system, and when it expires if it is armed. -/
structure OsTimer (Owner : Type) where
  owner : Owner
  expires : Option Nat := none

/-- The timers of a process, by handle. -/
abbrev TimerTable (Owner : Type) := Nat → Option (OsTimer Owner)

namespace TimerTable

variable {Owner : Type} (os : TimerTable Owner)

/-- `timer_create`, with the handle it is about to return, if any. -/
def create (owner : Owner) : Option Nat → Option (Nat × TimerTable Owner)
  | none => none
  | some handle =>
    if (os handle).isSome then none
    else some (handle, Function.update os handle (some { owner := owner }))

/-- `timer_delete`. -/
def delete (handle : Nat) : TimerTable Owner := Function.update os handle none

/-- `timer_settime`, with a relative time that disarms the timer if it is zero. -/
def settime (handle now value : Nat) : Option (TimerTable Owner) :=
  (os handle).map fun timer => Function.update os handle
    (some { timer with expires := if value = 0 then none else some (now + value) })

/-- `timer_gettime`: the time that is left. -/
def gettime (handle now : Nat) : Option Nat :=
  (os handle).map fun timer => (timer.expires.getD now) - now

variable {os}

@[simp] theorem delete_self (handle : Nat) : os.delete handle handle = none :=
  Function.update_self _ _ _

theorem delete_of_ne {handle h : Nat} (hne : h ≠ handle) : os.delete handle h = os h :=
  Function.update_of_ne hne _ _

theorem create_eq_some {owner : Owner} {created : Option Nat} {handle : Nat}
    {os' : TimerTable Owner} (h : os.create owner created = some (handle, os')) :
    created = some handle ∧ os handle = none ∧
      os' = Function.update os handle (some { owner := owner }) := by
  unfold create at h
  split at h
  · cases h
  · split_ifs at h with hused
    cases h
    exact ⟨rfl, Option.not_isSome_iff_eq_none.mp hused, rfl⟩

/-- Setting a timer makes none and changes no owner. -/
theorem settime_owner {handle now value : Nat} {os' : TimerTable Owner}
    (h : os.settime handle now value = some os') (x : Nat) :
    (os' x).map OsTimer.owner = (os x).map OsTimer.owner := by
  obtain ⟨timer, htimer, rfl⟩ := Option.map_eq_some_iff.mp h
  by_cases hx : x = handle
  · rw [hx, Function.update_self, htimer]
    rfl
  · rw [Function.update_of_ne hx]

end TimerTable

/-! ## The class -/

/-- `Timer`. The constructor without an argument leaves the interval as it is. -/
structure Timer where
  microseconds : Option UInt32 := none
  signaled : Bool := false
  running : Bool := false
  initialized : Bool := false
  timer : Nat := 0

namespace Timer

variable {Owner : Type}

/-- `~Timer`. -/
def destroy (t : Timer) (os : TimerTable Owner) : TimerTable Owner :=
  if t.initialized then os.delete t.timer else os

/-- `Initialize`. -/
def initializeTimer (t : Timer) (os : TimerTable Owner) (owner : Owner) (created : Option Nat) :
    Except Fault (Timer × TimerTable Owner) :=
  match os.create owner created with
  | none => .error (.exception (.generic "could not create timer"))
  | some (handle, os) =>
    .ok ({ t with timer := handle, initialized := true, signaled := false, running := false }, os)

/-- `Reset`. -/
def reset (t : Timer) (os : TimerTable Owner) (now : Nat) : Bool × Timer × TimerTable Owner :=
  if t.running then
    match os.settime t.timer now 0 with
    | none => (false, { t with signaled := false }, os)
    | some os => (true, { t with signaled := false, running := false }, os)
  else (false, { t with signaled := false }, os)

/-- The seconds and the nanoseconds that `Start` sets. -/
def itValue (microseconds : UInt32) : Nat :=
  (microseconds / 1000000).toNat * 1000000000 + (microseconds % 1000000 * 1000).toNat

/-- `Start` once the timer is initialized and not running. -/
def arm (t : Timer) (os : TimerTable Owner) (now : Nat) (microseconds : UInt32) :
    Except Fault (Bool × Timer × TimerTable Owner) :=
  let t := if 0 < microseconds then { t with microseconds := some microseconds } else t
  match t.microseconds with
  | none => .error .undefinedBehavior
  | some microseconds =>
    match os.settime t.timer now (itValue microseconds) with
    | none => .ok (false, t, os)
    | some os => .ok (true, { t with running := true }, os)

/-- `Start`. -/
def start (t : Timer) (os : TimerTable Owner) (now : Nat) (owner : Owner) (created : Option Nat)
    (microseconds : UInt32) : Except Fault (Bool × Timer × TimerTable Owner) :=
  match if t.initialized then .ok (t, os) else t.initializeTimer os owner created with
  | .error f => .error f
  | .ok (t, os) =>
    if t.running then
      match t.reset os now with
      | (false, t, os) => .ok (false, t, os)
      | (true, t, os) => t.arm os now microseconds
    else t.arm os now microseconds

/-- `Signaled`. -/
def hasSignaled (t : Timer) (os : TimerTable Owner) (now : Nat) : Except Fault (Bool × Timer) :=
  if t.signaled then .ok (true, t)
  else if !t.running then .ok (false, t)
  else match os.gettime t.timer now with
    | none => .error (.exception (.generic "could not obtain timer result"))
    | some 0 => .ok (true, { t with signaled := true })
    | some _ => .ok (false, t)

/-! ## In place -/

theorem itValue_eq (microseconds : UInt32) : itValue microseconds = microseconds.toNat * 1000 := by
  have hlt := microseconds.toNat_lt
  simp only [itValue, UInt32.toNat_div, UInt32.toNat_mul, UInt32.toNat_mod, UInt32.reduceToNat]
  omega

/-- `Start` of a new timer. -/
theorem start_new {os os₁ : TimerTable Owner} {now handle : Nat} {owner : Owner}
    {created : Option Nat} {microseconds : UInt32} (hpos : 0 < microseconds)
    (hcreate : os.create owner created = some (handle, os₁)) :
    ({} : Timer).start os now owner created microseconds = .ok (true,
      { microseconds := some microseconds, running := true, initialized := true, timer := handle },
      Function.update os handle
        (some { owner := owner, expires := some (now + microseconds.toNat * 1000) })) := by
  have hne : microseconds.toNat * 1000 ≠ 0 := by
    have := UInt32.lt_iff_toNat_lt.mp hpos
    rw [UInt32.toNat_zero] at this
    omega
  obtain ⟨-, -, rfl⟩ := TimerTable.create_eq_some hcreate
  simp [start, initializeTimer, hcreate, arm, hpos, TimerTable.settime, itValue_eq, hne]

theorem start_of_create_eq_none {os : TimerTable Owner} {now : Nat} {owner : Owner}
    {created : Option Nat} {microseconds : UInt32} (hcreate : os.create owner created = none) :
    ({} : Timer).start os now owner created microseconds =
      .error (.exception (.generic "could not create timer")) := by
  simp [start, initializeTimer, hcreate]

/-- `Start` of a new timer with no interval. -/
theorem start_new_zero {os os₁ : TimerTable Owner} {now handle : Nat} {owner : Owner}
    {created : Option Nat} (hcreate : os.create owner created = some (handle, os₁)) :
    ({} : Timer).start os now owner created 0 = .error .undefinedBehavior := by
  simp [start, initializeTimer, hcreate, arm]

/-- The timer has been started, and not been found signaled since. -/
structure Started (t : Timer) : Prop where
  initialized : t.initialized = true
  running : t.running = true
  signaled : t.signaled = false
  microseconds : t.microseconds ≠ none

/-- `Signaled` finds out if the timer is due, while its handle is valid. -/
theorem Started.hasSignaled {t : Timer} (h : t.Started) {os : TimerTable Owner}
    {timer : OsTimer Owner} (htimer : os t.timer = some timer) (now : Nat) :
    t.hasSignaled os now = .ok (decide (timer.expires.getD now ≤ now),
      { t with signaled := decide (timer.expires.getD now ≤ now) }) := by
  obtain ⟨hinitialized, hrunning, hsignaled, -⟩ := h
  cases t
  dsimp only at hinitialized hrunning hsignaled htimer
  subst hinitialized hrunning hsignaled
  simp only [Timer.hasSignaled, TimerTable.gettime, htimer, Option.map_some]
  by_cases hdue : timer.expires.getD now ≤ now
  · rw [decide_eq_true hdue, Nat.sub_eq_zero_of_le hdue]
    rfl
  · rw [decide_eq_false hdue]
    obtain ⟨left, hleft⟩ : ∃ left, timer.expires.getD now - now = left + 1 :=
      ⟨_, (Nat.succ_pred_eq_of_pos (by omega)).symm⟩
    rw [hleft]
    rfl

theorem Started.hasSignaled_of_none {t : Timer} (h : t.Started) {os : TimerTable Owner}
    (htimer : os t.timer = none) (now : Nat) :
    t.hasSignaled os now = .error (.exception (.generic "could not obtain timer result")) := by
  simp [Timer.hasSignaled, h.signaled, h.running, TimerTable.gettime, htimer]

/-- A timer that was signaled starts again, while its handle is valid. -/
theorem Started.restart {t : Timer} (h : t.Started) {os : TimerTable Owner}
    {timer : OsTimer Owner} (htimer : os t.timer = some timer) (now : Nat) (owner : Owner)
    (created : Option Nat) :
    ∃ expires, { t with signaled := true }.start os now owner created 0 = .ok (true, t,
      Function.update os t.timer (some { timer with expires := expires })) := by
  obtain ⟨microseconds, hmicroseconds⟩ := Option.ne_none_iff_exists'.mp h.microseconds
  refine ⟨if itValue microseconds = 0 then none else some (now + itValue microseconds), ?_⟩
  obtain ⟨hinitialized, hrunning, hsignaled, -⟩ := h
  cases t
  dsimp only at hinitialized hrunning hsignaled hmicroseconds htimer
  subst hinitialized hrunning hsignaled hmicroseconds
  simp [start, reset, arm, TimerTable.settime, htimer]

/-- When a timer expires that is started at some time: never, if its interval is zero. -/
def dueAt? (microseconds : UInt32) (since : Nat) : Option Nat :=
  if microseconds = 0 then none else some (since + microseconds.toNat * 1000)

/-- A timer that arms itself with the interval it has. -/
theorem arm_self {t : Timer} {os : TimerTable Owner} {timer : OsTimer Owner}
    {microseconds : UInt32} (hmicroseconds : t.microseconds = some microseconds)
    (htimer : os t.timer = some timer) (now : Nat) :
    t.arm os now microseconds = .ok (true, { t with running := true },
      Function.update os t.timer (some { timer with expires := dueAt? microseconds now })) := by
  have hself : (if 0 < microseconds then { t with microseconds := some microseconds } else t) =
      t := by
    cases t
    dsimp only at hmicroseconds
    rw [hmicroseconds, ite_self]
  have hzero : microseconds.toNat * 1000 = 0 ↔ microseconds = 0 := by
    rw [← UInt32.toNat_inj, UInt32.toNat_zero]
    omega
  simp only [arm, hself, hmicroseconds, TimerTable.settime, htimer, Option.map_some, itValue_eq,
    hzero, dueAt?]

/-- `Start` of `Timer(microseconds)`. -/
theorem start_constructed {os : TimerTable Owner} {handle : Nat} (hfree : os handle = none)
    (now : Nat) (owner : Owner) (microseconds : UInt32) :
    ({ microseconds := some microseconds } : Timer).start os now owner (some handle)
        microseconds = .ok (true,
      { microseconds := some microseconds, running := true, initialized := true, timer := handle },
      Function.update os handle (some { owner := owner, expires := dueAt? microseconds now })) := by
  have hcreate : os.create owner (some handle) =
      some (handle, Function.update os handle (some { owner := owner })) := by
    simp [TimerTable.create, hfree]
  simp only [start, initializeTimer, hcreate, Bool.false_eq_true, if_false]
  rw [arm_self rfl (Function.update_self ..), Function.update_idem]

/-- `Start` of a running timer with its own interval. -/
theorem Started.start {t : Timer} (h : t.Started) {os : TimerTable Owner} {timer : OsTimer Owner}
    {microseconds : UInt32} (hmicroseconds : t.microseconds = some microseconds)
    (htimer : os t.timer = some timer) (now : Nat) (owner : Owner) (created : Option Nat) :
    t.start os now owner created microseconds = .ok (true, t,
      Function.update os t.timer (some { timer with expires := dueAt? microseconds now })) := by
  obtain ⟨hinitialized, hrunning, hsignaled, -⟩ := h
  cases t
  dsimp only at hinitialized hrunning hsignaled hmicroseconds htimer
  subst hinitialized hrunning hsignaled hmicroseconds
  simp only [Timer.start, reset, TimerTable.settime, htimer, Option.map_some, if_true]
  rw [arm_self rfl (Function.update_self ..), Function.update_idem]

/-- **The timing law**: a timer that was started, and whose handle nothing has deleted or
set since, is signaled as soon as it is due. -/
theorem signaled_start {os os₁ os' : TimerTable Owner} {now later : Nat} {owner : Owner}
    {created : Option Nat} {microseconds : UInt32} {result : Bool} {t : Timer}
    (hpos : 0 < microseconds)
    (h : ({} : Timer).start os now owner created microseconds = .ok (result, t, os₁))
    (hkept : os' t.timer = os₁ t.timer) :
    (t.hasSignaled os' later).map Prod.fst =
      .ok (decide (now + microseconds.toNat * 1000 ≤ later)) := by
  cases hcreate : os.create owner created with
  | none =>
    rw [start_of_create_eq_none hcreate] at h
    cases h
  | some p =>
    obtain ⟨handle, os₂⟩ := p
    rw [start_new hpos hcreate] at h
    cases h
    rw [Function.update_self] at hkept
    have hstarted : Started {
        microseconds := some microseconds
        running := true
        initialized := true
        timer := handle } := ⟨rfl, rfl, rfl, Option.some_ne_none _⟩
    rw [hstarted.hasSignaled hkept]
    rfl

/-- In whole microseconds it is the timer that `Platform` has. -/
theorem signaled_start_platform {os os₁ os' : TimerTable Owner} {now later : Nat} {owner : Owner}
    {created : Option Nat} {microseconds : UInt32} {result : Bool} {t : Timer}
    (hpos : 0 < microseconds)
    (h : ({} : Timer).start os (now * 1000) owner created microseconds = .ok (result, t, os₁))
    (hkept : os' t.timer = os₁ t.timer) :
    (t.hasSignaled os' (later * 1000)).map Prod.fst =
      .ok (((Platform.Timer.new microseconds).start now 0).signaled later) := by
  rw [signaled_start hpos h hkept]
  refine congrArg Except.ok (decide_eq_decide.mpr ?_)
  show now * 1000 + microseconds.toNat * 1000 ≤ later * 1000 ↔ now + microseconds.toNat ≤ later
  omega

end Timer

end Linux

end Zippylog
