import Mathlib.Data.Rat.Floor
import Zippylog.PythonStream
import Zippylog.StreamNames

/-!
# The Python store

`stream_name_for_time` and `StreamSet.write_envelope` of `store.py`. A stream set does not name
the stream of every envelope it writes: it remembers when the name changes next, and asks for a
new name and a new stream only when an envelope is not older than that. So the times at which
`stream_name_for_time` says that the next stream is due have to be exactly those at which the
names change.

- `PyNumber`: integers have no bound, and `/` of two of them rounds down; of a floating point
  number it does not, so an interval like 7.5 is accepted and its parts of the hour are not
  whole (`streamNameForTime_half`).
- `streamNameForTime_accepted`: the name of a period and its end, for an interval that is an
  integer, up to the last time that `calendar.timegm` can handle (`timeLimit`).
- `agree_iff`: Python and C++ name the same streams up to the end of 32-bit time.
- `Valid.writeEnvelope`, `Valid.writeEnvelopes`: the open stream is that of the time until the
  switch is due, over one call and over a run of them.
-/

namespace Zippylog

open Wire Platform Calendar Store

namespace PyStore

/-- What `time.gmtime` returns, as far as it is read. -/
structure StructTime where
  year : Nat
  mon : Nat
  mday : Nat
  hour : Nat
  min : Nat
  sec : Nat

/-- `time.gmtime`. -/
def gmtime (t : Int) : StructTime :=
  let date := Date.ofDays (t / 86400)
  let second := (t % 86400).toNat
  { year := date.year
    mon := date.mon
    mday := date.mday
    hour := second / 3600
    min := second % 3600 / 60
    sec := second % 60 }

/-- `calendar.timegm`, of a minute and second of zero. It counts the days with
`datetime.date`, which has the years 1 to 9999 and raises `ValueError` for any other. A time
that the platform's `gmtime` cannot break down, which raises `ValueError` too, is far behind
those years. -/
def timegm (year mon mday hour : Nat) : Except PyExn Int :=
  if year < 1 ∨ 9999 < year then .error .valueError
  else
    let days : Int := Date.ordinal ⟨year, mon, 1⟩ - Date.epoch.ordinal + mday - 1
    .ok ((days * 24 + hour) * 60 * 60)

/-- `int(x)`. -/
def int (x : ℚ) : Int := if 0 ≤ x then ⌊x⌋ else ⌈x⌉

/-- The numbers that are computed with: integers without bound, and finite floating point
numbers, which are taken to be exact. -/
inductive PyNumber where
  | int (n : Int)
  | float (x : ℚ)
  deriving DecidableEq

namespace PyNumber

/-- What numbers are compared by. -/
def value : PyNumber → ℚ
  | int n => n
  | float x => x

/-- What `%d` prints. -/
def toInt : PyNumber → Int
  | int n => n
  | float x => PyStore.int x

/-- `+`. -/
def add : PyNumber → PyNumber → PyNumber
  | int m, int n => int (m + n)
  | x, y => float (x.value + y.value)

/-- `*`. -/
def mul : PyNumber → PyNumber → PyNumber
  | int m, int n => int (m * n)
  | x, y => float (x.value * y.value)

/-- `/`, which rounds down only if both are integers. -/
def div : PyNumber → PyNumber → PyNumber
  | int m, int n => int (m.fdiv n)
  | x, y => float (x.value / y.value)

/-- `%`. -/
def mod : PyNumber → PyNumber → PyNumber
  | int m, int n => int (m.fmod n)
  | x, y => float (x.value - y.value * ⌊x.value / y.value⌋)

end PyNumber

/-- `stream_name_for_time`: the name, and when the next one is due. -/
def streamNameForTime (t : Int) (secondsPerFile : PyNumber) : Except PyExn (Bytes × PyNumber) :=
  let st := gmtime t
  let day := padded 4 st.year ++ dash :: (padded 2 st.mon ++ dash :: padded 2 st.mday)
  let hour := day ++ dash :: padded 2 st.hour
  if secondsPerFile.value = 86400 then
    let tomorrow := gmtime (t + 86400)
    (timegm tomorrow.year tomorrow.mon tomorrow.mday 0).map fun next => (day, .int next)
  else if secondsPerFile.value = 3600 then
    let next := gmtime (t + 3600)
    (timegm next.year next.mon next.mday next.hour).map fun next => (hour, .int next)
  else if 3600 < secondsPerFile.value ∨ secondsPerFile.value < 4 then
    .error (.pbException s!"{secondsPerFile.toInt} is not an allowed seconds_per_file value")
  else if 0 < (PyNumber.mod (.int 3600) secondsPerFile).value then
    .error (.pbException s!"{secondsPerFile.toInt} does not divide into 3600 evenly")
  else
    let seriesMax := PyNumber.div (.int 3600) secondsPerFile
    let secondsSinceHour := PyNumber.int (st.min * 60 + st.sec)
    let current := (secondsSinceHour.div secondsPerFile).add (.int 1)
    let name := hour ++ dash ::
      (padded 3 current.toInt.toNat ++ dash :: padded 3 seriesMax.toInt.toNat)
    (timegm st.year st.mon st.mday st.hour).map fun t =>
      (name, (PyNumber.int t).add (current.mul secondsPerFile))

/-! ## Names -/

/-- The same time as C++ has it. -/
def StructTime.toTime (st : StructTime) : Time where
  epochMicro := 0
  epochSec := 0
  usec := 0
  year := st.year
  mon := st.mon
  mday := st.mday
  hour := st.hour
  min := st.min
  sec := st.sec

/-- When the next stream is due, for an interval that is an integer. -/
def nextSwitch (t s : Int) : Except PyExn Int :=
  if s = 86400 then
    let tomorrow := gmtime (t + 86400)
    timegm tomorrow.year tomorrow.mon tomorrow.mday 0
  else if s = 3600 then
    let next := gmtime (t + 3600)
    timegm next.year next.mon next.mday next.hour
  else
    let st := gmtime t
    (timegm st.year st.mon st.mday st.hour).map fun hour =>
      hour + ((st.min * 60 + st.sec) / s.toNat + 1 : Nat) * s

/-- Of one time, both languages print the same. -/
theorem streamNameForTime_int {t s : Int} {name : Bytes}
    (h : Store.streamNameForTime (gmtime t).toTime s = .ok name) :
    streamNameForTime t (.int s) = (nextSwitch t s).map fun next => (name, .int next) := by
  rw [Store.streamNameForTime] at h
  rw [streamNameForTime, nextSwitch]
  simp only [PyNumber.value, PyNumber.mod, Int.cast_pos, ← Int.cast_ofNat (R := ℚ), Int.cast_inj,
    Int.cast_lt]
  by_cases hday : s = 86400
  · rw [if_pos hday] at h
    rw [if_pos hday, if_pos hday, ← Except.ok.inj h]
    rfl
  rw [if_neg hday] at h
  rw [if_neg hday, if_neg hday]
  by_cases hhour : s = 3600
  · rw [if_pos hhour] at h
    rw [if_pos hhour, if_pos hhour, ← Except.ok.inj h]
    rfl
  rw [if_neg hhour] at h
  rw [if_neg hhour, if_neg hhour]
  split_ifs at h with hbounds hmod
  obtain ⟨n, rfl⟩ := Int.eq_ofNat_of_zero_le (by omega : 0 ≤ s)
  have hfmod : ¬ 0 < (3600 : Int).fmod n := by
    rwa [Int.fmod_eq_emod_of_nonneg _ (Int.natCast_nonneg n)]
  have hfdiv (m : Nat) : (m : Int).fdiv n = (m / n : Nat) := by
    rw [Int.fdiv_eq_ediv_of_nonneg _ (Int.natCast_nonneg n), Int.natCast_ediv]
  have hcurrent := hfdiv ((gmtime t).min * 60 + (gmtime t).sec)
  have hmax := hfdiv 3600
  push_cast at hcurrent hmax
  rw [if_neg hbounds, if_neg hfmod, ← Except.ok.inj h]
  simp only [PyNumber.div, hcurrent, hmax]
  cases timegm (gmtime t).year (gmtime t).mon (gmtime t).mday (gmtime t).hour with
  | error e => rfl
  | ok hour => rfl

/-- Both refuse the same intervals. -/
theorem streamNameForTime_refused {t s : Int} {e : Exn}
    (h : Store.streamNameForTime (gmtime t).toTime s = .error e) :
    ∃ e, streamNameForTime t (.int s) = .error e := by
  rw [Store.streamNameForTime] at h
  rw [streamNameForTime]
  simp only [PyNumber.value, PyNumber.mod, Int.cast_pos, ← Int.cast_ofNat (R := ℚ), Int.cast_inj,
    Int.cast_lt]
  split_ifs at h with hday hhour hbounds hmod
  · rw [if_neg hday, if_neg hhour, if_pos hbounds]
    exact ⟨_, rfl⟩
  · have hfmod : 0 < (3600 : Int).fmod s := by
      rwa [Int.fmod_eq_emod_of_nonneg _ (by omega)]
    rw [if_neg hday, if_neg hhour, if_neg hbounds, if_pos hfmod]
    exact ⟨_, rfl⟩

theorem clock_gmtime (t : Nat) : Clock (gmtime t).toTime t := by
  have hday : (t : Int) / 86400 = (t / 86400 : Nat) := by omega
  refine ⟨?_, ?_, ?_, ?_, ?_⟩
  · simp only [gmtime, StructTime.toTime, hday]
  · simp only [gmtime, StructTime.toTime, hday]
  · simp only [gmtime, StructTime.toTime, hday]
  · simp only [gmtime, StructTime.toTime]
    omega
  · simp only [gmtime, StructTime.toTime]
    omega

/-! ## The next switch -/

/-- Midnight of a day, and the hours after it, up to the end of the year 9999. -/
theorem timegm_ofDays (day hour : Nat) :
    timegm (Date.ofDays day).year (Date.ofDays day).mon (Date.ofDays day).mday hour =
      if day < 2932897 then .ok ((day * 24 + hour : Nat) * 3600) else .error .valueError := by
  have hyear := Date.year_ofDays_lt_iff day
  have hordinal := Date.ordinal_ofDays day
  have hpast := Date.le_year_ofDays day
  rw [Date.ordinal] at hordinal
  rw [timegm, Date.ordinal]
  by_cases hday : day < 2932897
  · rw [if_pos hday, if_neg (by have := hyear.mpr hday; omega)]
    refine congrArg Except.ok ?_
    dsimp only
    omega
  · rw [if_neg hday, if_pos (.inr (Nat.lt_of_not_le fun h => hday (hyear.mp (Nat.lt_succ_of_le h))))]

/-- The midnight before a time. -/
theorem timegm_day (t : Nat) :
    timegm (gmtime t).year (gmtime t).mon (gmtime t).mday 0 =
      if t < 253402300800 then .ok (t / 86400 * 86400 : Nat) else .error .valueError := by
  obtain ⟨hyear, hmon, hmday, -, -⟩ := clock_gmtime t
  dsimp only [StructTime.toTime] at hyear hmon hmday
  rw [hyear, hmon, hmday, timegm_ofDays]
  refine if_congr (by omega) (congrArg Except.ok ?_) rfl
  omega

/-- The full hour before a time. -/
theorem timegm_hour (t : Nat) :
    timegm (gmtime t).year (gmtime t).mon (gmtime t).mday (gmtime t).hour =
      if t < 253402300800 then .ok (t / 3600 * 3600 : Nat) else .error .valueError := by
  obtain ⟨hyear, hmon, hmday, hhour, -⟩ := clock_gmtime t
  dsimp only [StructTime.toTime] at hyear hmon hmday hhour
  rw [hyear, hmon, hmday, hhour, timegm_ofDays]
  refine if_congr (by omega) (congrArg Except.ok ?_) rfl
  omega

/-- The times that are named end with the year 9999, and for whole days and hours already
where the next stream would be of the year 10000: its beginning is looked up too. -/
def timeLimit (s : Int) : Int :=
  if s = 86400 ∨ s = 3600 then 253402300800 - s else 253402300800

/-- The next stream is due when the period ends. -/
theorem nextSwitch_accepted (t : Nat) {s : Int} (hs : Accepted s) :
    nextSwitch t s =
      if t < timeLimit s then .ok ((t / s.toNat + 1) * s.toNat : Nat) else .error .valueError := by
  obtain rfl | rfl | ⟨n, m, rfl, hnm, h4, hlt⟩ := hs.cases
  · have hlimit : timeLimit 86400 = 253402214400 := by decide
    rw [nextSwitch, if_pos rfl, hlimit]
    refine (timegm_day (t + 86400)).trans (if_congr (by omega) (congrArg Except.ok ?_) rfl)
    show _ = (((t / 86400 + 1) * 86400 : Nat) : Int)
    omega
  · have hlimit : timeLimit 3600 = 253402297200 := by decide
    rw [nextSwitch, if_neg (by decide), if_pos rfl, hlimit]
    refine (timegm_hour (t + 3600)).trans (if_congr (by omega) (congrArg Except.ok ?_) rfl)
    show _ = (((t / 3600 + 1) * 3600 : Nat) : Int)
    omega
  · have hsecond : (gmtime t).min * 60 + (gmtime t).sec = t % 3600 := (clock_gmtime t).second
    have hlimit : timeLimit n = 253402300800 := if_neg (by omega)
    rw [nextSwitch, if_neg (by omega), if_neg (by omega), hlimit]
    dsimp only
    rw [timegm_hour, hsecond, Int.toNat_natCast, apply_ite (Except.map _)]
    refine if_congr (by omega) (congrArg Except.ok ?_) rfl
    -- so many parts of the hour, and so many of all hours before it
    have hparts : t / 3600 * 3600 + (t % 3600 / n + 1) * n = (t / n + 1) * n := by
      have hdiv : t / n / m = t / 3600 := by rw [Nat.div_div_eq_div_mul, hnm]
      have hmod : t / n % m = t % 3600 / n := by rw [← hnm, Nat.mod_mul_right_div_self]
      have hsum := Nat.div_add_mod (t / n) m
      rw [hdiv, hmod] at hsum
      calc t / 3600 * 3600 + (t % 3600 / n + 1) * n
          = (m * (t / 3600) + t % 3600 / n + 1) * n := by rw [← hnm]; ring
        _ = (t / n + 1) * n := by rw [hsum]
    show ((t / 3600 * 3600 : Nat) : Int) + (t % 3600 / n + 1 : Nat) * n = _
    exact_mod_cast hparts

/-- The name is due until the period ends. -/
theorem streamNameForTime_accepted (t : Nat) {s : Int} (hs : Accepted s) :
    streamNameForTime t (.int s) =
      if t < timeLimit s then
        .ok (periodName s.toNat (t / s.toNat), .int ((t / s.toNat + 1) * s.toNat : Nat))
      else .error .valueError := by
  rw [streamNameForTime_int (streamNameForTime_clock (clock_gmtime t) hs),
    nextSwitch_accepted t hs, apply_ite (Except.map _)]
  rfl

/-! ## The languages -/

/-- `(int64)n`. -/
def toInt64 (n : Int) : Int := n.bmod (2 ^ 64)

/-- For a time in seconds, both languages return one name, or both throw. -/
def Agree (t s : Int) : Prop :=
  (streamNameForTime t (.int s)).toOption.map Prod.fst =
    (streamNameForMicro (toInt64 (t * 1000000)) s).toOption

/-- Names that are printed of two times are equal only if the dates are. -/
theorem date_eq_of_name_eq {t t' : Time} {s : Int} (hs : Accepted s)
    (h : (Store.streamNameForTime t s).toOption = (Store.streamNameForTime t' s).toOption) :
    t.year = t'.year ∧ t.mon = t'.mon ∧ t.mday = t'.mday := by
  have hdash {width n : Nat} := dash_notMem_padded width n
  obtain rfl | rfl | ⟨n, m, rfl, hnm, h4, hlt⟩ := hs.cases
  · rw [Store.streamNameForTime, Store.streamNameForTime, if_pos rfl, if_pos rfl] at h
    obtain ⟨hyear, hrest⟩ := append_dash_inj hdash hdash (Option.some.inj h)
    obtain ⟨hmon, hmday⟩ := append_dash_inj hdash hdash hrest
    exact ⟨padded_injective hyear, padded_injective hmon, padded_injective hmday⟩
  · rw [Store.streamNameForTime, Store.streamNameForTime, if_neg (by decide), if_pos rfl,
      if_neg (by decide), if_pos rfl] at h
    have hname := Option.some.inj h
    simp only [List.append_assoc, List.cons_append] at hname
    obtain ⟨hyear, hrest⟩ := append_dash_inj hdash hdash hname
    obtain ⟨hmon, hrest⟩ := append_dash_inj hdash hdash hrest
    obtain ⟨hmday, -⟩ := append_dash_inj hdash hdash hrest
    exact ⟨padded_injective hyear, padded_injective hmon, padded_injective hmday⟩
  · have hmod := not_lt_emod hnm
    rw [Store.streamNameForTime, Store.streamNameForTime, if_neg (by omega), if_neg (by omega),
      if_neg (by omega), if_neg hmod, if_neg (by omega), if_neg (by omega), if_neg (by omega),
      if_neg hmod] at h
    have hname := Option.some.inj h
    simp only [List.append_assoc, List.cons_append] at hname
    obtain ⟨hyear, hrest⟩ := append_dash_inj hdash hdash hname
    obtain ⟨hmon, hrest⟩ := append_dash_inj hdash hdash hrest
    obtain ⟨hmday, -⟩ := append_dash_inj hdash hdash hrest
    exact ⟨padded_injective hyear, padded_injective hmon, padded_injective hmday⟩

/-- So the day is one that 32 bits count. -/
theorem day_eq_of_name_eq {t : Nat} {micro s : Int} (hs : Accepted s)
    (h : (Store.streamNameForTime (gmtime t).toTime s).toOption =
      (streamNameForMicro micro s).toOption) :
    toInt32 (micro.tdiv 1000000) / 86400 = (t / 86400 : Nat) := by
  obtain ⟨hyear, hmon, hmday⟩ := date_eq_of_name_eq hs h
  obtain ⟨hyear', hmon', hmday', -, -⟩ := clock_gmtime t
  exact Date.ofDays_eq_ofNat
    (Date.ext (hyear.symm.trans hyear') (hmon.symm.trans hmon') (hmday.symm.trans hmday'))

theorem toInt32_lt (n : Int) : toInt32 n < 2 ^ 31 := Int.bmod_lt (by decide)

/-- From 2^31 seconds on, for as long as the day does not end. -/
theorem toInt32_neg {t : Nat} (h : 2 ^ 31 ≤ t) (h' : t < 2 ^ 32) : toInt32 t < 0 := by
  have hmod : (t : Int) % ((2 ^ 32 : Nat) : Int) = t := Int.emod_eq_of_lt (by omega) (by omega)
  rw [toInt32, Int.bmod_def, hmod, if_neg (by omega)]
  omega

theorem toInt64_micro {t : Nat} (h : t < 2 ^ 32) : toInt64 (t * 1000000) = t * 1000000 :=
  Int.bmod_eq_of_le (by omega) (by omega)

theorem not_agree {t : Nat} {s : Int} (ht : 2 ^ 31 ≤ t) (hs : Accepted s) : ¬ Agree t s := by
  intro h
  obtain ⟨name, hname⟩ := streamNameForTime_ok hs (gmtime t).toTime
  obtain ⟨name', hname'⟩ :=
    streamNameForTime_ok hs (unixMicroTimeToZippyTime (toInt64 (t * 1000000)))
  rw [Agree, streamNameForTime_int hname, streamNameForMicro, hname'] at h
  cases hnext : nextSwitch t s with
  | error e =>
    -- Python refuses the time, which C++ never does
    rw [hnext] at h
    cases h
  | ok next =>
    rw [hnext] at h
    obtain rfl : name = name' := Option.some.inj h
    have hday := day_eq_of_name_eq hs
      (congrArg Except.toOption (hname.trans (Eq.symm hname')) : _ = (streamNameForMicro _ s).toOption)
    have hlt := toInt32_lt ((toInt64 (t * 1000000)).tdiv 1000000)
    have ht' : t < 2 ^ 32 := by omega
    rw [toInt64_micro ht', Int.mul_tdiv_cancel _ (by decide)] at hday
    have hneg := toInt32_neg ht ht'
    omega

/-- **Python and C++ name the same streams**, for a time in seconds from the epoch and any interval,
if and only if both refuse the interval, or the time is before 2^31 seconds: C++ takes it into an
`int` of 32 bits, and Python does not. -/
theorem agree_iff (t : Nat) (s : Int) : Agree t s ↔ ¬ Accepted s ∨ t < 2 ^ 31 := by
  constructor
  · intro h
    by_cases hs : Accepted s
    · by_contra hlt
      rw [not_or, not_not, Nat.not_lt] at hlt
      exact not_agree hlt.2 hs h
    · exact .inl hs
  · intro h
    rw [Agree]
    by_cases hs : Accepted s
    · have ht := h.resolve_left (not_not.mpr hs)
      have hsecond : ((t : Int) * 1000000 / 1000000).toNat = t := by omega
      have hlimit : (t : Int) < timeLimit s := by
        rw [timeLimit]
        split_ifs <;> omega
      rw [toInt64_micro (by omega), streamNameForMicro_accepted (by omega) (by omega) hs, hsecond,
        streamNameForTime_accepted t hs, if_pos hlimit]
      rfl
    · obtain ⟨e, he⟩ := Store.streamNameForTime_refused hs (gmtime t).toTime
      obtain ⟨e', he'⟩ := Store.streamNameForTime_refused hs
        (unixMicroTimeToZippyTime (toInt64 (t * 1000000)))
      obtain ⟨e, he⟩ := streamNameForTime_refused he
      rw [he, streamNameForMicro, he']
      rfl

/-- On 2038-01-19, the daily streams part. -/
theorem not_agree_2038 : ¬ ∀ (t : Nat) (s : Int), Agree t s :=
  fun h => not_agree (Nat.le_refl _) (.inl rfl) (h (2 ^ 31) 86400)

/-! ## Stream sets -/

/-- `StreamSet`, with what has been done through it. -/
structure StreamSet (S E : Type) where
  nextWriteSwitchTime : PyNumber := .int 0
  activeStreamName : Option Bytes := none
  secondsPerFile : PyNumber := .int 3600
  activeOutStream : Option S := none
  /-- The names that streams were asked for. -/
  asked : List Bytes := []
  /-- The envelopes that were written, and to which stream. -/
  written : List (S × E) := []

namespace StreamSet

variable {S E : Type} (getWriteStream : List Bytes → Bytes → S)

/-- `StreamSet.write_envelope`. What the callback returns for a name can depend on the names
it was called with before. -/
def writeEnvelope (set : StreamSet S E) (envelope : E) (t : ℚ) :
    Except PyExn (StreamSet S E) :=
  if set.nextWriteSwitchTime.value ≤ t then
    match streamNameForTime (int t) set.secondsPerFile with
    | .error e => .error e
    | .ok (name, next) =>
      let stream := getWriteStream set.asked name
      .ok { set with
        nextWriteSwitchTime := next
        activeStreamName := some name
        activeOutStream := some stream
        asked := set.asked ++ [name]
        written := set.written ++ [(stream, envelope)] }
  else
    match set.activeOutStream with
    | none => .error .attributeError
    | some stream => .ok { set with written := set.written ++ [(stream, envelope)] }

/-- Envelopes written one after the other, each at its time. -/
def writeEnvelopes : List (E × ℚ) → StreamSet S E → Except PyExn (StreamSet S E)
  | [], set => .ok set
  | (envelope, t) :: calls, set =>
    match set.writeEnvelope getWriteStream envelope t with
    | .error e => .error e
    | .ok set => writeEnvelopes calls set

/-- A stream that the callback returned for the name of a time. -/
def Named (secondsPerFile : PyNumber) (t : ℚ) (stream : S) : Prop :=
  ∃ asked name next, streamNameForTime (int t) secondsPerFile = .ok (name, next) ∧
    stream = getWriteStream asked name

/-- Each envelope was written to a stream of its time. -/
def WrittenAsNamed (secondsPerFile : PyNumber) (written : List (S × E)) (calls : List (E × ℚ)) :
    Prop :=
  List.Forall₂ (fun w call => w.2 = call.1 ∧ Named getWriteStream secondsPerFile call.2 w.1)
    written calls

/-- An interval of so many seconds whose switch times are whole: an integer that is accepted,
or a floating point number that is compared equal to an hour or a day. -/
inductive Interval : PyNumber → Int → Prop
  | int {s : Int} (hs : Accepted s) : Interval (.int s) s
  | hour : Interval (.float 3600) 3600
  | day : Interval (.float 86400) 86400

/-- Until the switch is due, the open stream is that of the time. -/
structure Valid (n : PyNumber) (s : Int) (set : StreamSet S E) (t₀ : ℚ) : Prop where
  secondsPerFile : set.secondsPerFile = n
  active {t : ℚ} (h : t₀ ≤ t) (hlt : t < set.nextWriteSwitchTime.value) (hlimit : t < timeLimit s) :
    ∃ stream, set.activeOutStream = some stream ∧ Named getWriteStream n t stream

variable {getWriteStream} {n : PyNumber} {s : Int}

theorem Interval.accepted (h : Interval n s) : Accepted s := by
  cases h with
  | int hs => exact hs
  | hour => exact .inr ⟨dvd_refl _, by decide⟩
  | day => exact .inl rfl

/-- An hour and a day are only compared. -/
theorem Interval.streamNameForTime_eq (h : Interval n s) (t : Int) :
    streamNameForTime t n = streamNameForTime t (.int s) := by
  cases h with
  | int hs => rfl
  | hour => rw [streamNameForTime, streamNameForTime]; simp [PyNumber.value]
  | day => rw [streamNameForTime, streamNameForTime]; simp [PyNumber.value]

theorem int_of_nonneg {t : ℚ} (h : 0 ≤ t) : int t = ⌊t⌋.toNat := by
  rw [int, if_pos h, Int.toNat_of_nonneg (Int.floor_nonneg.mpr h)]

/-- The name of a time, or the exception behind the last one. -/
theorem Interval.streamNameForTime_int (h : Interval n s) {t : ℚ} (h0 : 0 ≤ t) :
    streamNameForTime (PyStore.int t) n =
      if t < timeLimit s then
        .ok (periodName s.toNat (⌊t⌋.toNat / s.toNat),
          .int ((⌊t⌋.toNat / s.toNat + 1) * s.toNat : Nat))
      else .error .valueError := by
  rw [h.streamNameForTime_eq, int_of_nonneg h0, streamNameForTime_accepted _ h.accepted,
    Int.toNat_of_nonneg (Int.floor_nonneg.mpr h0)]
  exact if_congr Int.floor_lt rfl rfl

/-- Before its end, time stays in the period. -/
theorem period_eq {t t' : ℚ} (hs : 0 < s) (h0 : 0 ≤ t) (h : t ≤ t')
    (hlt : t' < ((⌊t⌋.toNat / s.toNat + 1) * s.toNat : Nat)) :
    ⌊t'⌋.toNat / s.toNat = ⌊t⌋.toNat / s.toNat := by
  have hfloor : ⌊t⌋ ≤ ⌊t'⌋ := Int.floor_le_floor h
  have hfloor' : ⌊t'⌋ < ((⌊t⌋.toNat / s.toNat + 1) * s.toNat : Nat) :=
    Int.floor_lt.mpr (by exact_mod_cast hlt)
  have hpos := Int.floor_nonneg.mpr h0
  refine Nat.le_antisymm (Nat.le_of_lt_succ ?_) (Nat.div_le_div_right (by omega))
  rw [Nat.div_lt_iff_lt_mul (by omega), Nat.succ_eq_add_one]
  generalize (⌊t⌋.toNat / s.toNat + 1) * s.toNat = ends at *
  omega

/-- **Step lemma**: the envelope goes to the stream of its time. -/
theorem Valid.writeEnvelope {set : StreamSet S E} {t₀ t : ℚ} (h : Valid getWriteStream n s set t₀)
    (hn : Interval n s) (h0 : 0 ≤ t) (ht : t₀ ≤ t) (hlimit : t < timeLimit s) (envelope : E) :
    ∃ set' stream, set.writeEnvelope getWriteStream envelope t = .ok set' ∧
      Valid getWriteStream n s set' t ∧ Named getWriteStream n t stream ∧
      set'.written = set.written ++ [(stream, envelope)] := by
  by_cases hdue : set.nextWriteSwitchTime.value ≤ t
  · have hname := hn.streamNameForTime_int h0
    rw [if_pos hlimit] at hname
    rw [StreamSet.writeEnvelope, if_pos hdue, h.secondsPerFile, hname]
    refine ⟨_, _, rfl, ⟨rfl, ?_⟩, ⟨_, _, _, hname, rfl⟩, rfl⟩
    intro t' ht' hlt hlimit'
    have hname' := hn.streamNameForTime_int (h0.trans ht')
    rw [if_pos hlimit', period_eq hn.accepted.pos h0 ht' (by exact_mod_cast hlt)] at hname'
    exact ⟨_, rfl, _, _, _, hname', rfl⟩
  · obtain ⟨stream, hactive, hnamed⟩ := h.active ht (not_le.mp hdue) hlimit
    rw [StreamSet.writeEnvelope, if_neg hdue, hactive]
    refine ⟨_, _, rfl, ⟨h.secondsPerFile, ?_⟩, hnamed, rfl⟩
    intro t' ht' hlt hlimit'
    obtain ⟨stream', hactive', hnamed'⟩ := h.active (ht.trans ht') hlt hlimit'
    rw [hactive] at hactive'
    exact ⟨stream, rfl, Option.some.inj hactive' ▸ hnamed'⟩

/-- **Run lemma**. -/
theorem Valid.writeEnvelopes (hn : Interval n s) {calls : List (E × ℚ)} :
    ∀ {set : StreamSet S E} {t₀ : ℚ}, Valid getWriteStream n s set t₀ → 0 ≤ t₀ →
      (t₀ :: calls.map Prod.snd).IsChain (· ≤ ·) → (∀ call ∈ calls, call.2 < timeLimit s) →
      ∃ set' new, StreamSet.writeEnvelopes getWriteStream calls set = .ok set' ∧
        set'.written = set.written ++ new ∧ WrittenAsNamed getWriteStream n new calls := by
  induction calls with
  | nil => exact fun _ _ _ _ => ⟨_, [], rfl, (List.append_nil _).symm, .nil⟩
  | cons call calls ih =>
    obtain ⟨envelope, t⟩ := call
    intro set t₀ h h0 hchain hlimit
    obtain ⟨ht, hchain⟩ := List.isChain_cons_cons.mp hchain
    obtain ⟨hcall, hcalls⟩ := List.forall_mem_cons.mp hlimit
    obtain ⟨set₁, stream, hwrite, hvalid, hnamed, hwritten⟩ :=
      h.writeEnvelope hn (h0.trans ht) ht hcall envelope
    obtain ⟨set', new, hrun, hnew, hforall⟩ := ih hvalid (h0.trans ht) hchain hcalls
    refine ⟨set', (stream, envelope) :: new, ?_, ?_, .cons ⟨rfl, hnamed⟩ hforall⟩
    · rw [StreamSet.writeEnvelopes, hwrite]
      exact hrun
    · rw [hnew, hwritten, List.append_assoc]
      rfl

/-- What is named is not behind the last name. -/
theorem Named.lt_timeLimit (hn : Interval n s) {t : ℚ} (h0 : 0 ≤ t) {stream : S}
    (h : Named getWriteStream n t stream) : t < timeLimit s := by
  obtain ⟨asked, name, next, hname, -⟩ := h
  rw [hn.streamNameForTime_int h0] at hname
  by_contra hlimit
  rw [if_neg hlimit] at hname
  cases hname

/-- **Every envelope is written to the stream of its time**: for an interval of a whole number
of seconds and times that do not decrease, although the name is only asked for when the switch
is due. This is so if and only if no time reaches the end of the year 9999, behind which
`stream_name_for_time` raises an exception and there is no name to write to. -/
theorem writeEnvelopes_named_iff (hn : Interval n s) {calls : List (E × ℚ)}
    (h0 : ∀ call ∈ calls, 0 ≤ call.2) (hchain : (calls.map Prod.snd).IsChain (· ≤ ·)) :
    (∃ set', StreamSet.writeEnvelopes getWriteStream calls { secondsPerFile := n } = .ok set' ∧
      WrittenAsNamed getWriteStream n set'.written calls) ↔
    ∀ call ∈ calls, call.2 < timeLimit s := by
  constructor
  · rintro ⟨set', -, hwritten⟩
    generalize set'.written = written at hwritten
    induction hwritten with
    | nil => exact List.forall_mem_nil _
    | cons h _ ih =>
      obtain ⟨hcall, hcalls⟩ := List.forall_mem_cons.mp h0
      exact List.forall_mem_cons.mpr
        ⟨h.2.lt_timeLimit hn hcall, ih hcalls (List.isChain_of_isChain_cons hchain)⟩
  · intro hlimit
    have hvalid : Valid getWriteStream n s ({ secondsPerFile := n } : StreamSet S E) 0 :=
      ⟨rfl, fun ht hlt _ => absurd ht (not_le.mpr (by simpa [PyNumber.value] using hlt))⟩
    have hchain' : ((0 : ℚ) :: calls.map Prod.snd).IsChain (· ≤ ·) := by
      cases calls with
      | nil => exact .singleton _
      | cons call calls => exact List.isChain_cons_cons.mpr ⟨h0 call List.mem_cons_self, hchain⟩
    obtain ⟨set', new, hrun, hnew, hwritten⟩ := hvalid.writeEnvelopes hn (le_refl _) hchain' hlimit
    refine ⟨set', hrun, ?_⟩
    rw [hnew]
    exact hwritten

/-- Three envelopes about the end of an hour. -/
theorem writeEnvelopes_hour :
    (∃ set', StreamSet.writeEnvelopes (fun _ name => name)
        [('a', (3599 : ℚ)), ('b', 7199 / 2), ('c', 3600)] { secondsPerFile := .int 3600 } =
          .ok set' ∧
      WrittenAsNamed (fun _ name => name) (.int 3600) set'.written
        [('a', (3599 : ℚ)), ('b', 7199 / 2), ('c', 3600)]) ↔
    ∀ call ∈ [('a', (3599 : ℚ)), ('b', 7199 / 2), ('c', 3600)], call.2 < timeLimit 3600 :=
  writeEnvelopes_named_iff (.int (.inr ⟨dvd_refl _, by decide⟩)) (by simp; norm_num)
    (by simp; norm_num)

/-- Seven and a half seconds are accepted, and the next stream is then due that long after the
time that was asked for, not when its part of the hour ends. -/
theorem streamNameForTime_half {t : Nat} (h : t < 60) :
    streamNameForTime t (.float (15 / 2)) =
      .ok (hourName 0 ++ dash :: (padded 3 (2 * t / 15 + 1) ++ dash :: padded 3 480),
        .float (t + 15 / 2)) := by
  have hgmtime : gmtime t = ⟨1970, 1, 1, 0, 0, t⟩ := by
    rw [gmtime, (by omega : (t : Int) / 86400 = 0), (by omega : ((t : Int) % 86400).toNat = t),
      Nat.mod_eq_of_lt (by omega), Nat.div_eq_of_lt (by omega), Nat.div_eq_of_lt (by omega),
      Nat.mod_eq_of_lt h]
    rfl
  have htimegm : timegm 1970 1 1 0 = .ok 0 := by decide +kernel
  have hcurrent : int ((t : ℚ) / (15 / 2) + 1) = (2 * t / 15 + 1 : Nat) := by
    have hdiv : (t : ℚ) / (15 / 2) = ((2 * t : Nat) : ℚ) / (15 : Nat) := by
      push_cast
      ring
    rw [hdiv, int, if_pos (by positivity), Int.floor_add_one, Rat.floor_natCast_div_natCast]
    rfl
  have hmax : int (3600 / (15 / 2)) = 480 := by decide +kernel
  rw [streamNameForTime, hgmtime]
  dsimp only
  rw [htimegm, if_neg (by decide +kernel), if_neg (by decide +kernel), if_neg (by decide +kernel),
    if_neg (by decide +kernel)]
  have hdue : (0 : ℚ) + (t / (15 / 2) + 1) * (15 / 2) = t + 15 / 2 := by ring
  simp only [PyNumber.div, PyNumber.add, PyNumber.mul, PyNumber.value, PyNumber.toInt,
    Int.cast_ofNat, Nat.cast_zero, zero_mul, zero_add, Int.cast_natCast, Int.cast_one, Int.cast_zero,
    hcurrent, hmax, Except.map, hdue]
  rfl

/-- A time behind the last name, and an interval that is accepted but not whole. -/
theorem not_writeEnvelopes_named :
    (¬ ∃ set', StreamSet.writeEnvelopes (fun _ name => name) [('a', (253402300800 : ℚ))]
        { secondsPerFile := .int 3600 } = .ok set' ∧
      WrittenAsNamed (fun _ name => name) (.int 3600) set'.written
        [('a', (253402300800 : ℚ))]) ∧
    (∃ name next, streamNameForTime 10 (.float (15 / 2)) = .ok (name, next)) ∧
    ¬ ∃ set', StreamSet.writeEnvelopes (fun _ name => name) [('a', (10 : ℚ)), ('b', 16)]
        { secondsPerFile := .float (15 / 2) } = .ok set' ∧
      WrittenAsNamed (fun _ name => name) (.float (15 / 2)) set'.written
        [('a', (10 : ℚ)), ('b', 16)] := by
  have hten := streamNameForTime_half (t := 10) (by decide)
  have hsixteen := streamNameForTime_half (t := 16) (by decide)
  have hint (n : Nat) : int n = n := by
    rw [int, if_pos (Nat.cast_nonneg n), Int.floor_natCast]
  refine ⟨?_, ⟨_, _, hten⟩, ?_⟩
  · rintro ⟨set', -, hwritten⟩
    generalize set'.written = written at hwritten
    obtain - | ⟨h, -⟩ := hwritten
    have hlt := h.2.lt_timeLimit (.int (.inr ⟨dvd_refl _, by decide⟩)) (by norm_num)
    exact absurd hlt (by decide +kernel)
  · rintro ⟨set', hrun, hwritten⟩
    -- the second envelope goes to the stream that is still open
    obtain ⟨stream, hwrites⟩ : ∃ stream, set'.written = [(stream, 'a'), (stream, 'b')] := by
      have hname : streamNameForTime (int 10) (.float (15 / 2)) = _ := (hint 10) ▸ hten
      rw [StreamSet.writeEnvelopes, StreamSet.writeEnvelope, if_pos (by decide +kernel), hname]
        at hrun
      dsimp only at hrun
      rw [StreamSet.writeEnvelopes, StreamSet.writeEnvelope, if_neg (by decide +kernel)] at hrun
      obtain rfl := Except.ok.inj hrun
      exact ⟨_, rfl⟩
    rw [hwrites] at hwritten
    obtain - | ⟨ha, - | ⟨hb, -⟩⟩ := hwritten
    obtain ⟨-, _, name, _, hname, hstream⟩ := ha
    obtain ⟨-, _, name', _, hname', hstream'⟩ := hb
    rw [show int 10 = (10 : Nat) from hint 10, hten] at hname
    rw [show int 16 = (16 : Nat) from hint 16, hsixteen] at hname'
    obtain ⟨rfl, -⟩ := Prod.mk.inj (Except.ok.inj hname)
    obtain ⟨rfl, -⟩ := Prod.mk.inj (Except.ok.inj hname')
    have heq := (List.cons.inj (List.append_cancel_left (hstream.symm.trans hstream'))).2
    exact absurd (padded_injective (List.append_inj_left' heq rfl)) (by decide)

end StreamSet

end PyStore

end Zippylog
