import Mathlib.Data.Nat.ModEq
import Mathlib.Tactic.NormNum
import Zippylog.LinuxTimer

/-!
# Durations

The times that `platform.cpp` hands to the system: `sleep`, `Timer::Start` and
`ConditionalWait::Wait` as they split a duration into seconds and nanoseconds. The system takes a
split only with fewer than 10^9 nanoseconds, so a time has exactly one.

- Products and remainders are taken in the widths that the source declares. Signed sums
  of 64 bits are undefined when they do not fit.
- `represents_iff`: a time has one split that a system call takes.
- `splits_iff`: where each of the functions finds it. `sleep` multiplies in front of the remainder,
  and `Wait` carries a second only when there is more than one.
-/

namespace Zippylog

/-- `struct timespec`. -/
structure Timespec where
  tvSec : Int
  tvNsec : Int
  deriving DecidableEq

namespace Timespec

/-- The time, in nanoseconds. -/
def nanoseconds (ts : Timespec) : Int := ts.tvSec * 1000000000 + ts.tvNsec

/-- What a system call takes; for any other value it fails with `EINVAL`. -/
def Valid (ts : Timespec) : Prop := 0 ≤ ts.tvNsec ∧ ts.tvNsec < 1000000000

instance (ts : Timespec) : Decidable ts.Valid := inferInstanceAs (Decidable (_ ∧ _))

/-- It is valid, and exactly the time. -/
structure Represents (ts : Timespec) (time : Int) : Prop where
  valid : ts.Valid
  nanoseconds : ts.nanoseconds = time

/-- There is one split of a time. -/
theorem represents_iff {ts : Timespec} {time : Int} :
    ts.Represents time ↔ ts.tvSec = time / 1000000000 ∧ ts.tvNsec = time % 1000000000 := by
  constructor
  · rintro ⟨⟨hnonneg, hlt⟩, htime⟩
    simp only [Timespec.nanoseconds] at htime
    omega
  · rintro ⟨hsec, hnsec⟩
    refine ⟨⟨?_, ?_⟩, ?_⟩
    · rw [hnsec]
      exact Int.emod_nonneg _ (by decide)
    · rw [hnsec]
      exact Int.emod_lt_of_pos _ (by decide)
    · rw [Timespec.nanoseconds, hsec, hnsec, Int.mul_comm]
      exact Int.mul_ediv_add_emod time 1000000000

instance (ts : Timespec) (time : Int) : Decidable (ts.Represents time) :=
  decidable_of_iff _ represents_iff.symm

end Timespec

/-! ## sleep -/

namespace Platform

/-- The time that `sleep` gives to `nanosleep`. -/
def sleepTime (milliseconds : UInt32) : Timespec where
  tvSec := (milliseconds / 1000).toNat
  tvNsec := (milliseconds * 1000000 % 1000000000).toNat

/-- How many times `2 ^ 32` a product of 32 bits loses. -/
def lost (n : Nat) : Nat := n * 1000000 / 4294967296

theorem lost_eq_zero_iff (n : Nat) : lost n = 0 ↔ n ≤ 4294 := by
  rw [lost]
  omega

theorem lost_lt {n : Nat} (hn : n < 4294967296) : lost n < 1953125 := by
  rw [lost]
  omega

/-- `10 ^ 9` divides what is lost only if it is nothing: it has `5 ^ 9` as a factor. -/
theorem product_mod_iff {n : Nat} (hn : n < 4294967296) :
    n * 1000000 % 4294967296 % 1000000000 = n * 1000000 % 1000000000 ↔ n ≤ 4294 := by
  rw [← lost_eq_zero_iff]
  have hsplit : 4294967296 * lost n + n * 1000000 % 4294967296 = n * 1000000 :=
    Nat.div_add_mod ..
  constructor
  · intro heq
    have hdvd : 1000000000 ∣ 4294967296 * lost n := by
      have := (Nat.modEq_iff_dvd' (Nat.mod_le _ _)).mp heq
      rwa [← Nat.eq_sub_of_add_eq hsplit] at this
    have hcoprime : Nat.Coprime 1953125 4294967296 := by decide
    have hfive : 1953125 ∣ lost n :=
      hcoprime.dvd_of_dvd_mul_left (Nat.dvd_trans (by norm_num) hdvd)
    exact Nat.eq_zero_of_dvd_of_lt hfive (lost_lt hn)
  · intro hzero
    rw [hzero, Nat.mul_zero, Nat.zero_add] at hsplit
    rw [hsplit]

/-- The product is exact up to 4294 milliseconds. -/
theorem sleepTime_represents_iff (milliseconds : UInt32) :
    (sleepTime milliseconds).Represents (milliseconds.toNat * 1000000) ↔
      milliseconds.toNat ≤ 4294 := by
  have hsec : milliseconds.toNat / 1000 = milliseconds.toNat * 1000000 / 1000000000 :=
    (Nat.mul_div_mul_right _ 1000 (by decide : 0 < 1000000)).symm
  rw [Timespec.represents_iff, ← product_mod_iff milliseconds.toNat_lt]
  simp only [sleepTime, UInt32.toNat_div, UInt32.toNat_mul, UInt32.toNat_mod, UInt32.reduceToNat]
  norm_cast
  exact and_iff_right hsec

/-- It is valid in any case, so `nanosleep` takes it. -/
theorem sleepTime_valid (milliseconds : UInt32) : (sleepTime milliseconds).Valid := by
  simp only [Timespec.Valid, sleepTime, UInt32.toNat_mod, UInt32.reduceToNat]
  omega

end Platform

/-! ## Timer::Start -/

namespace Linux.Timer

/-- The time that `Start` gives to `timer_settime`. -/
def itValueTime (microseconds : UInt32) : Timespec where
  tvSec := (microseconds / 1000000).toNat
  tvNsec := (microseconds % 1000000 * 1000).toNat

theorem itValueTime_represents (microseconds : UInt32) :
    (itValueTime microseconds).Represents (microseconds.toNat * 1000) := by
  have hlt := microseconds.toNat_lt
  rw [Timespec.represents_iff]
  simp only [itValueTime, UInt32.toNat_div, UInt32.toNat_mul, UInt32.toNat_mod,
    UInt32.reduceToNat]
  rw [Nat.mod_eq_of_lt (b := 2 ^ 32) (by omega)]
  omega

/-- The interval that `Start` is asked for: the last one that the timer was given, if the
argument is zero. -/
def requested (t : Timer) (microseconds : UInt32) : Option UInt32 :=
  if 0 < microseconds then some microseconds else t.microseconds

/-- It is the time with which `Start` sets the timer. -/
theorem arm_eq {Owner : Type} (t : Timer) (os : TimerTable Owner) (now : Nat)
    (microseconds : UInt32) :
    t.arm os now microseconds = match t.requested microseconds with
      | none => .error .undefinedBehavior
      | some interval =>
        match os.settime t.timer now (itValueTime interval).nanoseconds.toNat with
        | none => .ok (false, { t with microseconds := some interval }, os)
        | some os => .ok (true, { t with microseconds := some interval, running := true }, os) := by
  have hvalue (interval : UInt32) :
      (itValueTime interval).nanoseconds.toNat = itValue interval := by
    rw [(itValueTime_represents interval).nanoseconds, itValue_eq]
    norm_cast
  simp only [arm, requested, hvalue]
  split_ifs with hpos
  · rfl
  · cases hinterval : t.microseconds with
    | none => rfl
    | some interval =>
      cases t
      dsimp only at hinterval
      subst hinterval
      rfl

end Linux.Timer

/-! ## ConditionalWait -/

/-- `struct timeval`, as `gettimeofday` has it. -/
structure Timeval where
  tvSec : Int
  tvUsec : Int
  tvSec_bounds : -2 ^ 63 ≤ tvSec ∧ tvSec < 2 ^ 63
  tvUsec_bounds : 0 ≤ tvUsec ∧ tvUsec < 1000000

/-- The time, in nanoseconds. -/
def Timeval.nanoseconds (tv : Timeval) : Int := tv.tvSec * 1000000000 + tv.tvUsec * 1000

namespace ConditionalWait

/-- A sum of type `time_t`. -/
def timeT (n : Int) : Except Fault Int :=
  if -2 ^ 63 ≤ n ∧ n < 2 ^ 63 then .ok n else .error .undefinedBehavior

/-- The time until which `Wait` waits. -/
def deadline (now : Timeval) (microseconds : Int32) : Except Fault Timespec :=
  match timeT (now.tvSec + (microseconds / 1000000).toInt) with
  | .error f => .error f
  | .ok sec =>
    let nsec := now.tvUsec * 1000 + (1000 * (microseconds % 1000000)).toInt
    if 1000000000 < nsec then
      (timeT (sec + 1)).map fun sec => { tvSec := sec, tvNsec := nsec - 1000000000 }
    else .ok { tvSec := sec, tvNsec := nsec }

/-- How `Wait` ends. -/
inductive Waited where
  | returned (signaled : Bool)
  | fault (f : Fault)
  /-- `logic_error`, for a result that `Wait` does not know -/
  | logicError (result : Nat)

def einval : Nat := 22

def etimedout : Nat := 110

/-- `Wait`, with what `pthread_cond_timedwait` returns in the end if it is not
interrupted, and whether `pthread_mutex_trylock` found the mutex taken. -/
def wait (signaled : Bool) (microseconds : Int32) (busy : Bool) (now : Timeval)
    (timedwait : Timespec → Nat) : Waited :=
  if microseconds < -1 then
    .fault (.exception (.invalidArgument "timeout cannot be less than -1"))
  else if signaled then .returned true
  else if microseconds = -1 then .returned true
  else if microseconds = 0 ∧ busy then .returned false
  else match deadline now microseconds with
    | .error f => .fault f
    | .ok ts =>
      if timedwait ts = 0 then .returned true
      else if timedwait ts = etimedout then .returned false
      else .logicError (timedwait ts)

section Deadline

variable (now : Timeval) {microseconds : Int32}

theorem toInt_nonneg (hnonneg : 0 ≤ microseconds) : 0 ≤ microseconds.toInt :=
  Int32.le_iff_toInt_le.mp hnonneg

theorem toInt_seconds (hnonneg : 0 ≤ microseconds) :
    (microseconds / 1000000).toInt = microseconds.toInt / 1000000 := by
  have hlt := microseconds.toInt_lt
  have hpos := toInt_nonneg hnonneg
  rw [Int32.toInt_div, show (1000000 : Int32).toInt = 1000000 from rfl,
    Int.tdiv_eq_ediv_of_nonneg hpos]
  exact Int.bmod_eq_of_le (by omega) (by omega)

/-- The product of 32 bits is exact. -/
theorem toInt_nanoseconds (hnonneg : 0 ≤ microseconds) :
    (1000 * (microseconds % 1000000)).toInt = 1000 * (microseconds.toInt % 1000000) := by
  have hpos := toInt_nonneg hnonneg
  rw [Int32.toInt_mul, Int32.toInt_mod, show (1000000 : Int32).toInt = 1000000 from rfl,
    show (1000 : Int32).toInt = 1000 from rfl, Int.tmod_eq_emod_of_nonneg hpos]
  exact Int.bmod_eq_of_le (by omega) (by omega)

/-- The deadline is exact unless the fractions of a second add up to a second, which
`Wait` leaves in the nanoseconds. -/
theorem deadline_represents_iff (hnonneg : 0 ≤ microseconds) :
    (∃ ts, deadline now microseconds = .ok ts ∧
        ts.Represents (now.nanoseconds + microseconds.toInt * 1000)) ↔
      now.tvUsec + microseconds.toInt % 1000000 ≠ 1000000 ∧
        now.tvSec + (now.tvUsec + microseconds.toInt) / 1000000 < 2 ^ 63 := by
  obtain ⟨sec, usec, hsec, husec⟩ := now
  have hpos := toInt_nonneg hnonneg
  have hlt := microseconds.toInt_lt
  simp only [deadline, toInt_seconds hnonneg, toInt_nanoseconds hnonneg, Timeval.nanoseconds]
  generalize microseconds.toInt = micros at hpos hlt
  by_cases hsum : sec + micros / 1000000 < 2 ^ 63
  · rw [timeT, if_pos ⟨by omega, hsum⟩]
    dsimp only
    split_ifs with hcarry
    · by_cases hnext : sec + micros / 1000000 + 1 < 2 ^ 63
      · rw [timeT, if_pos ⟨by omega, hnext⟩]
        simp only [Except.map, Except.ok.injEq, exists_eq_left', Timespec.represents_iff]
        omega
      · rw [timeT, if_neg fun h => hnext h.2]
        simp only [Except.map, reduceCtorEq, false_and, exists_false, false_iff]
        omega
    · simp only [Except.ok.injEq, exists_eq_left', Timespec.represents_iff]
      omega
  · rw [timeT, if_neg fun h => hsum h.2]
    simp only [reduceCtorEq, false_and, exists_false, false_iff]
    omega

/-- Where it is not, the deadline is a whole second as nanoseconds. -/
theorem deadline_of_second (hnonneg : 0 ≤ microseconds)
    (hsecond : now.tvUsec + microseconds.toInt % 1000000 = 1000000)
    (hfits : now.tvSec + microseconds.toInt / 1000000 < 2 ^ 63) :
    deadline now microseconds = .ok
      { tvSec := now.tvSec + microseconds.toInt / 1000000, tvNsec := 1000000000 } := by
  obtain ⟨sec, usec, hsec, husec⟩ := now
  have hpos := toInt_nonneg hnonneg
  simp only [deadline, toInt_seconds hnonneg, toInt_nanoseconds hnonneg] at hsecond hfits ⊢
  have hnsec : usec * 1000 + 1000 * (microseconds.toInt % 1000000) = 1000000000 := by omega
  rw [timeT, if_pos ⟨by omega, hfits⟩, hnsec]
  rfl

/-- `Wait` does not wait then, but throws. -/
theorem wait_of_second (hpos : 0 < microseconds)
    (hsecond : now.tvUsec + microseconds.toInt % 1000000 = 1000000)
    (hfits : now.tvSec + microseconds.toInt / 1000000 < 2 ^ 63) (busy : Bool)
    {timedwait : Timespec → Nat} (hrejects : ∀ ts, ¬ ts.Valid → timedwait ts = einval) :
    wait false microseconds busy now timedwait = .logicError einval := by
  have hpos' : 0 < microseconds.toInt := Int32.lt_iff_toInt_lt.mp hpos
  have hnonneg : 0 ≤ microseconds := Int32.le_iff_toInt_le.mpr hpos'.le
  have hlow : ¬ microseconds < -1 := by
    rw [Int32.lt_iff_toInt_lt, Int32.toInt_neg]
    exact fun h => absurd (h.trans (by decide)) hpos'.not_gt
  have hne (n : Int32) (hn : n.toInt ≤ 0) : microseconds ≠ n := by
    rintro rfl
    exact absurd hpos' hn.not_gt
  rw [wait, if_neg hlow, if_neg Bool.false_ne_true, if_neg (hne (-1) (by decide)),
    if_neg fun h => hne 0 (by decide) h.1, deadline_of_second now hnonneg hsecond hfits]
  dsimp only
  rw [hrejects _ (by simp [Timespec.Valid])]
  rfl

end Deadline

end ConditionalWait

/-! ## All three -/

/-- Each of the functions hands the system exactly the duration that it is asked for. -/
structure Splits (milliseconds : UInt32) (t : Linux.Timer) (microseconds : UInt32) (now : Timeval)
    (timeout : Int32) : Prop where
  sleep : (Platform.sleepTime milliseconds).Represents (milliseconds.toNat * 1000000)
  start : ∀ interval, t.requested microseconds = some interval →
    (Linux.Timer.itValueTime interval).Represents (interval.toNat * 1000)
  wait : ∃ ts, ConditionalWait.deadline now timeout = .ok ts ∧
    ts.Represents (now.nanoseconds + timeout.toInt * 1000)

/-- **Durations**: `sleep` finds the split of its milliseconds exactly up to 4294, `Timer::Start`
that of any number of microseconds, and `Wait` that of its deadline exactly when the fractions of
the clock and of the duration do not add up to one second, and the seconds fit. -/
theorem splits_iff (milliseconds : UInt32) (t : Linux.Timer) (microseconds : UInt32)
    (now : Timeval) {timeout : Int32} (hnonneg : 0 ≤ timeout) :
    Splits milliseconds t microseconds now timeout ↔
      milliseconds.toNat ≤ 4294 ∧
        now.tvUsec + timeout.toInt % 1000000 ≠ 1000000 ∧
        now.tvSec + (now.tvUsec + timeout.toInt) / 1000000 < 2 ^ 63 := by
  rw [← Platform.sleepTime_represents_iff, ← ConditionalWait.deadline_represents_iff now hnonneg]
  constructor
  · intro h
    exact ⟨h.sleep, h.wait⟩
  · rintro ⟨hsleep, hwait⟩
    exact ⟨hsleep, fun interval _ => Linux.Timer.itValueTime_represents interval, hwait⟩

/-- A time of day with 999999 microseconds. -/
def lastMicrosecond : Timeval where
  tvSec := 1300000000
  tvUsec := 999999
  tvSec_bounds := by decide
  tvUsec_bounds := by decide

/-- Four seconds, a timer of a minute, and a wait of two microseconds. -/
theorem splits_short :
    (0 : Int32) ≤ 2 ∧ Splits 4000 {} 60000000 lastMicrosecond 2 :=
  ⟨by decide, (splits_iff 4000 {} 60000000 lastMicrosecond (by decide)).mpr (by decide)⟩

/-- Five seconds, and a wait of one microsecond, which throws. -/
theorem not_splits_five_seconds :
    ¬ Splits 5000 {} 60000000 lastMicrosecond 2 ∧ ¬ Splits 4000 {} 60000000 lastMicrosecond 1 ∧
      ∀ timedwait : Timespec → Nat, (∀ ts, ¬ ts.Valid → timedwait ts = ConditionalWait.einval) →
        ConditionalWait.wait false 1 false lastMicrosecond timedwait =
          .logicError ConditionalWait.einval := by
  refine ⟨?_, ?_, fun timedwait hrejects => ?_⟩
  · intro h
    exact absurd h.sleep (by decide)
  · intro h
    obtain ⟨ts, hts, hrepresents⟩ := h.wait
    rw [ConditionalWait.deadline_of_second lastMicrosecond (by decide) (by decide) (by decide)]
      at hts
    cases hts
    exact absurd hrepresents.valid (by decide)
  · exact ConditionalWait.wait_of_second lastMicrosecond (by decide) (by decide) (by decide) false
      hrejects

end Zippylog
