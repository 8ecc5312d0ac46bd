import Zippylog.SimpleDirectoryStoreProof

/-!
# Names of streams

`StreamNameForTime` cuts the time from the epoch into periods of `seconds_per_file`, which is a day,
an hour, or a part of an hour of at least four seconds. A period is named by its day, by the hour as
well, and, if it is shorter, by its number in that hour and how many there are.

- `periodName`: the name of the n-th period;
- `streamNameForTime_accepted`, `streamNameForTime_refused`: what `StreamNameForTime`
  returns;
- `periodName_lt`: names are in the order of the periods, as long as the year has four
  digits: the names have one length, and the fields stand in the order of their weight;
- `streamNameForMicro_partitions`: what that means for times, which are in microseconds and are
  cut to seconds of 32 bits.
-/

namespace Zippylog

open Wire Platform Calendar

namespace Store

/-- `StreamNameForTime` of a number of microseconds. -/
def streamNameForMicro (time : Int) (secondsPerFile : Int) : Except Exn Bytes :=
  streamNameForTime (unixMicroTimeToZippyTime time) secondsPerFile

/-- The intervals that streams can have. -/
def Accepted (s : Int) : Prop := s = 86400 ∨ s ∣ 3600 ∧ 4 ≤ s

theorem Accepted.pos {s : Int} (h : Accepted s) : 0 < s := by
  obtain rfl | ⟨-, h⟩ := h
  · decide
  · omega

/-- An interval is a day, an hour, or a part of an hour. -/
theorem Accepted.cases {s : Int} (h : Accepted s) : s = 86400 ∨ s = 3600 ∨
    ∃ n m : Nat, s = n ∧ n * m = 3600 ∧ 4 ≤ n ∧ n < 3600 := by
  obtain rfl | ⟨hdvd, h4⟩ := h
  · exact .inl rfl
  · by_cases hhour : s = 3600
    · exact .inr (.inl hhour)
    · have hle := Int.le_of_dvd (by decide) hdvd
      obtain ⟨n, rfl⟩ := Int.eq_ofNat_of_zero_le (by omega : 0 ≤ s)
      obtain ⟨m, hm⟩ := Int.natCast_dvd_natCast.mp hdvd
      exact .inr (.inr ⟨n, m, rfl, hm.symm, by omega, by omega⟩)

theorem not_lt_emod {n m : Nat} (hnm : n * m = 3600) : ¬ 0 < (3600 : Int) % n := by
  have hmul : (3600 : Int) = n * m := by exact_mod_cast hnm.symm
  rw [hmul, Int.mul_emod_right]
  decide

/-! ## Periods -/

/-- The name of a day, counted from the epoch: `YYYY-MM-DD`. -/
def dayName (day : Nat) : Bytes :=
  let date := Date.ofDays day
  padded 4 date.year ++ dash :: (padded 2 date.mon ++ dash :: padded 2 date.mday)

/-- The name of a period of so many seconds, counted from the epoch. -/
def periodName (s k : Nat) : Bytes :=
  if s = 86400 then dayName k
  else if s = 3600 then hourName k
  else
    hourName (k / (3600 / s)) ++ dash :: (padded 3 (k % (3600 / s) + 1) ++
      dash :: padded 3 (3600 / s))

theorem hourName_eq (hour : Nat) :
    hourName hour = dayName (hour / 24) ++ dash :: padded 2 (hour % 24) := rfl

theorem periodName_of_mul {n m : Nat} (hnm : n * m = 3600) (hlt : n < 3600) (k : Nat) :
    periodName n k =
      hourName (k / m) ++ dash :: (padded 3 (k % m + 1) ++ dash :: padded 3 m) := by
  have hn : 0 < n := Nat.pos_of_ne_zero (by rintro rfl; rw [Nat.zero_mul] at hnm; cases hnm)
  have hm : 3600 / n = m := by rw [← hnm, Nat.mul_div_cancel_left _ hn]
  rw [periodName, if_neg (by omega), if_neg (by omega), hm]

/-! ## What `StreamNameForTime` returns -/

/-- For a time of the calendar the name is that of its period. -/
theorem streamNameForTime_clock {t : Time} {n : Nat} {s : Int} (h : Clock t n)
    (hs : Accepted s) : streamNameForTime t s = .ok (periodName s.toNat (n / s.toNat)) := by
  have hname := h.streamNameForTime_hour
  obtain ⟨hyear, hmon, hmday, hhour, hsecond⟩ := h
  obtain rfl | rfl | ⟨d, m, rfl, hdm, h4, hlt⟩ := hs.cases
  · rw [streamNameForTime, if_pos rfl, hyear, hmon, hmday]
    rfl
  · exact hname
  · have hd : 0 < d := by omega
    have hm : 3600 / d = m := by rw [← hdm, Nat.mul_div_cancel_left _ hd]
    have hmod := not_lt_emod hdm
    have hhour' : n / 3600 = n / d / m := by rw [Nat.div_div_eq_div_mul, hdm]
    have hday : n / 86400 = n / d / m / 24 := by rw [← hhour', Nat.div_div_eq_div_mul]
    have hcurrent : n % 3600 / d = n / d % m := by rw [← hdm, Nat.mod_mul_right_div_self]
    rw [streamNameForTime, if_neg (by omega), if_neg (by omega), if_neg (by omega), if_neg hmod,
      hyear, hmon, hmday, hhour, hsecond, Int.toNat_natCast, hm, hcurrent, hday, hhour',
      periodName_of_mul hdm hlt]
    rfl

/-- An accepted interval: the time is in the period that is named. -/
theorem streamNameForMicro_accepted {time s : Int} (h0 : 0 ≤ time) (hlt : time < 2 ^ 31 * 1000000)
    (hs : Accepted s) :
    streamNameForMicro time s = .ok (periodName s.toNat ((time / 1000000).toNat / s.toNat)) :=
  streamNameForTime_clock (clock_unixMicroTimeToZippyTime h0 hlt) hs

/-- An accepted interval is never refused. -/
theorem streamNameForTime_ok {s : Int} (hs : Accepted s) (t : Time) :
    ∃ name, streamNameForTime t s = .ok name := by
  obtain rfl | rfl | ⟨n, m, rfl, hnm, h4, hlt⟩ := hs.cases
  · rw [streamNameForTime, if_pos rfl]
    exact ⟨_, rfl⟩
  · rw [streamNameForTime, if_neg (by decide), if_pos rfl]
    exact ⟨_, rfl⟩
  · have hmod := not_lt_emod hnm
    rw [streamNameForTime, if_neg (by omega), if_neg (by omega), if_neg (by omega), if_neg hmod]
    exact ⟨_, rfl⟩

/-- Any other interval is, by one of the two checks. -/
theorem streamNameForTime_refused {s : Int} (hs : ¬ Accepted s) (t : Time) :
    ∃ e, streamNameForTime t s = .error e := by
  rw [Accepted, not_or] at hs
  obtain ⟨hday, hpart⟩ := hs
  have hhour : s ≠ 3600 := by
    rintro rfl
    exact hpart ⟨dvd_refl _, by decide⟩
  rw [streamNameForTime, if_neg hday, if_neg hhour]
  by_cases hbounds : 3600 < s ∨ s < 4
  · exact ⟨_, if_pos hbounds⟩
  · have hmod : 0 < 3600 % s := by
      have hne : 3600 % s ≠ 0 := fun h => hpart ⟨Int.dvd_of_emod_eq_zero h, by omega⟩
      exact lt_of_le_of_ne (Int.emod_nonneg _ (by omega)) hne.symm
    rw [if_neg hbounds]
    exact ⟨_, if_pos hmod⟩

/-! ## Names as keys -/

/-- As long as the year has four digits. -/
theorem year_lt_of_lt {day : Nat} (h : day < 2900000) : (Date.ofDays day).year < 10 ^ 4 :=
  (Date.year_ofDays_lt_iff day).mpr (h.trans (by decide))

theorem mon_lt (day : Nat) : (Date.ofDays day).mon < 10 ^ 2 :=
  (Date.valid_ofDays day).mon_le.trans_lt (by decide)

theorem mday_lt (day : Nat) : (Date.ofDays day).mday < 10 ^ 2 :=
  ((Date.valid_ofDays day).mday_le.trans (daysInMonth_le _ _)).trans_lt (by decide)

theorem length_dayName {day : Nat} (h : day < 2900000) : (dayName day).length = 10 := by
  simp [dayName, length_padded (year_lt_of_lt h), length_padded (mon_lt day),
    length_padded (mday_lt day)]

/-- Days are in the order of their names as long as the year has four digits. -/
theorem dayName_lt {day day' : Nat} (h : day < day') (h' : day' < 2900000) :
    dayName day < dayName day' := by
  rw [dayName, dayName]
  obtain hyear | ⟨hyear, hmon | ⟨hmon, hmday⟩⟩ := Date.before_ofDays h
  · refine append_lt_append ?_ (padded_lt hyear (year_lt_of_lt h')) _ _
    rw [length_padded (year_lt_of_lt (h.trans h')), length_padded (year_lt_of_lt h')]
  · rw [hyear]
    refine List.append_left_lt (.cons (append_lt_append ?_ (padded_lt hmon (mon_lt _)) _ _))
    rw [length_padded (mon_lt _), length_padded (mon_lt _)]
  · rw [hyear, hmon]
    exact List.append_left_lt (.cons (List.append_left_lt (.cons (padded_lt hmday (mday_lt _)))))

theorem length_hourName {hour : Nat} (h : hour / 24 < 2900000) :
    (hourName hour).length = 13 := by
  rw [hourName_eq, List.length_append, length_dayName h, List.length_cons,
    length_padded (by omega)]

theorem hourName_lt {hour hour' : Nat} (h : hour < hour') (h' : hour' / 24 < 2900000) :
    hourName hour < hourName hour' := by
  rw [hourName_eq, hourName_eq]
  by_cases hday : hour / 24 = hour' / 24
  · rw [hday]
    exact List.append_left_lt (.cons (padded_lt (by omega) (by omega)))
  · refine append_lt_append ?_ (dayName_lt (by omega) h') _ _
    rw [length_dayName (by omega), length_dayName h']

/-- Later periods have greater names. -/
theorem periodName_lt {s : Int} (hs : Accepted s) {k k' : Nat} (h : k < k')
    (h' : k' * s.toNat < 2900000 * 86400) : periodName s.toNat k < periodName s.toNat k' := by
  obtain rfl | rfl | ⟨n, m, rfl, hnm, h4, hlt⟩ := hs.cases
  · have hday : k' * 86400 < 2900000 * 86400 := h'
    exact dayName_lt h (by omega)
  · have hhour : k' * 3600 < 2900000 * 86400 := h'
    exact hourName_lt h (by omega)
  · rw [Int.toNat_natCast] at h' ⊢
    rw [periodName_of_mul hnm hlt, periodName_of_mul hnm hlt]
    have hm : m ≤ 900 := by
      by_contra hm
      have : 4 * 901 ≤ n * m := Nat.mul_le_mul h4 (by omega)
      omega
    have hm0 : 0 < m := Nat.pos_of_ne_zero (by rintro rfl; cases hnm)
    have hhour : k' / m * 3600 ≤ k' * n := by
      calc k' / m * 3600 = k' / m * m * n := by rw [← hnm, Nat.mul_comm n m, Nat.mul_assoc]
        _ ≤ k' * n := Nat.mul_le_mul_right _ (Nat.div_mul_le_self _ _)
    have hle : k / m ≤ k' / m := Nat.div_le_div_right h.le
    by_cases heq : k / m = k' / m
    · -- one hour: the number in it decides
      have hcurrent : k % m + 1 < k' % m + 1 := by
        have hk := Nat.div_add_mod k m
        have hk' := Nat.div_add_mod k' m
        rw [heq] at hk
        omega
      have hmod : k' % m < m := Nat.mod_lt _ hm0
      rw [heq]
      refine List.append_left_lt (.cons (append_lt_append ?_ (padded_lt hcurrent (by omega)) _ _))
      rw [length_padded (by omega), length_padded (by omega)]
    · refine append_lt_append ?_ (hourName_lt (by omega) (by omega)) _ _
      rw [length_hourName (by omega), length_hourName (by omega)]

/-- **Names partition time**: for an interval that is accepted, two times before 2^31
seconds have one name if and only if they are in one period, and the names are in the order
of the times; any other interval is refused. -/
theorem streamNameForMicro_partitions :
    (∀ s, Accepted s → ∀ t₁ t₂ : Int, 0 ≤ t₁ → t₁ ≤ t₂ → t₂ < 2 ^ 31 * 1000000 →
      ∃ name₁ name₂, streamNameForMicro t₁ s = .ok name₁ ∧ streamNameForMicro t₂ s = .ok name₂ ∧
        (name₁ = name₂ ↔ t₁ / (s * 1000000) = t₂ / (s * 1000000)) ∧ name₁ ≤ name₂) ∧
    ∀ s, ¬ Accepted s → ∀ t, ∃ e, streamNameForMicro t s = .error e := by
  refine ⟨?_, fun s hs t => streamNameForTime_refused hs _⟩
  intro s hs t₁ t₂ h0 hle hlt
  have hperiod {t : Int} (ht : 0 ≤ t) :
      (((t / 1000000).toNat / s.toNat : Nat) : Int) = t / (s * 1000000) := by
    have hpos := hs.pos
    rw [Int.natCast_ediv, Int.toNat_of_nonneg hpos.le, Int.toNat_of_nonneg (by omega),
      Int.mul_comm, Int.ediv_ediv_of_nonneg (by decide)]
  have hsecond : (t₁ / 1000000).toNat ≤ (t₂ / 1000000).toNat := by omega
  have hle' := Nat.div_le_div_right (c := s.toNat) hsecond
  have hbound := Nat.div_mul_le_self (t₂ / 1000000).toNat s.toNat
  have hlt' : (t₂ / 1000000).toNat < 2900000 * 86400 := by omega
  rw [← hperiod h0, ← hperiod (h0.trans hle), Int.natCast_inj]
  refine ⟨_, _, streamNameForMicro_accepted h0 (hle.trans_lt hlt) hs,
    streamNameForMicro_accepted (h0.trans hle) hlt hs, ?_⟩
  obtain heq | hlt := hle'.eq_or_lt
  · rw [heq]
    exact ⟨⟨fun _ => rfl, fun _ => rfl⟩, List.le_refl _⟩
  · have hname := periodName_lt hs hlt (hbound.trans_lt hlt')
    refine ⟨⟨fun h => ?_, fun h => absurd h hlt.ne⟩, List.le_of_lt hname⟩
    rw [h] at hname
    exact absurd hname (List.lt_irrefl _)

end Store

end Zippylog
