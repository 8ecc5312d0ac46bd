import Mathlib.Data.Nat.Digits.Lemmas
import Mathlib.Order.Monotone.Basic

/-!
# Calendar dates

The Gregorian calendar as one day after the other, and numbers printed with
leading zeros.

- `Date.ofDays`: the date a number of days after 1970-01-01, which determines
  that number (`ofDays_injective`);
- `Date.ordinal`: the number of a date, counted with the lengths of years and months;
- `padded`: what `%0<width>d` prints for a number that is not negative, which
  determines it (`padded_injective`), in their order as far as they fit (`padded_lt`).
-/

namespace Calendar

@[ext]
structure Date where
  year : Nat
  mon : Nat
  mday : Nat
  deriving DecidableEq

def isLeapYear (year : Nat) : Bool := year % 4 = 0 && (year % 100 ≠ 0 || year % 400 = 0)

def daysInMonth (year mon : Nat) : Nat :=
  if mon = 2 then if isLeapYear year then 29 else 28
  else if mon = 4 ∨ mon = 6 ∨ mon = 9 ∨ mon = 11 then 30
  else 31

theorem daysInMonth_le (year mon : Nat) : daysInMonth year mon ≤ 31 := by
  rw [daysInMonth]
  split_ifs <;> decide

theorem daysInMonth_pos (year mon : Nat) : 0 < daysInMonth year mon := by
  rw [daysInMonth]
  split_ifs <;> decide

namespace Date

/-- The first day of the epoch. -/
def epoch : Date := ⟨1970, 1, 1⟩

/-- The day after. -/
def next (d : Date) : Date :=
  if d.mday < daysInMonth d.year d.mon then { d with mday := d.mday + 1 }
  else if d.mon < 12 then ⟨d.year, d.mon + 1, 1⟩
  else ⟨d.year + 1, 1, 1⟩

/-- The day before. -/
def prev (d : Date) : Date :=
  if 1 < d.mday then { d with mday := d.mday - 1 }
  else if 1 < d.mon then ⟨d.year, d.mon - 1, daysInMonth d.year (d.mon - 1)⟩
  else ⟨d.year - 1, 12, 31⟩

/-- The date a number of days after the epoch, or before it. -/
def ofDays : Int → Date
  | .ofNat n => next^[n] epoch
  | .negSucc n => prev^[n + 1] epoch

/-- A date that exists. -/
structure Valid (d : Date) : Prop where
  one_le_mon : 1 ≤ d.mon
  mon_le : d.mon ≤ 12
  one_le_mday : 1 ≤ d.mday
  mday_le : d.mday ≤ daysInMonth d.year d.mon

theorem valid_epoch : epoch.Valid := ⟨by decide, by decide, by decide, by decide⟩

theorem Valid.next {d : Date} (h : d.Valid) : d.next.Valid := by
  obtain ⟨h1, h2, h3, h4⟩ := h
  rw [Date.next]
  split_ifs with hday hmon
  · exact ⟨h1, h2, Nat.le_add_left _ _, hday⟩
  · exact ⟨Nat.le_add_left _ _, hmon, Nat.le_refl _, daysInMonth_pos _ _⟩
  · exact ⟨Nat.le_refl 1, (by decide : 1 ≤ 12), Nat.le_refl 1, daysInMonth_pos _ _⟩

/-- Dates in their order. -/
def rank (d : Date) : Nat := (d.year * 13 + d.mon) * 32 + d.mday

/-- The next day is later, by the rank that compares the year first. -/
theorem Valid.rank_lt_next {d : Date} (h : d.Valid) : d.rank < d.next.rank := by
  have hday := h.mday_le.trans (daysInMonth_le _ _)
  have hmon := h.mon_le
  rw [Date.next, rank]
  split_ifs
  · show _ < (d.year * 13 + d.mon) * 32 + (d.mday + 1)
    omega
  · show _ < (d.year * 13 + (d.mon + 1)) * 32 + 1
    omega
  · show _ < ((d.year + 1) * 13 + 1) * 32 + 1
    omega

theorem valid_iterate_next (n : Nat) : (Date.next^[n] epoch).Valid := by
  induction n with
  | zero => exact valid_epoch
  | succ n ih =>
    rw [Function.iterate_succ_apply']
    exact ih.next

theorem valid_ofDays (n : Nat) : (ofDays n).Valid := valid_iterate_next n

theorem rank_strictMono : StrictMono fun n : Nat => (ofDays n).rank := by
  refine strictMono_nat_of_lt_succ fun n => ?_
  show (Date.next^[n] epoch).rank < (Date.next^[n + 1] epoch).rank
  rw [Function.iterate_succ_apply']
  exact (valid_iterate_next n).rank_lt_next

/-- No date comes back. -/
theorem ofDays_injective {n n' : Nat} (h : ofDays n = ofDays n') : n = n' :=
  rank_strictMono.injective (congrArg rank h)

example : ofDays 789 = ⟨1972, 2, 29⟩ := by decide +kernel

/-- A date is before another one. -/
def Before (d d' : Date) : Prop :=
  d.year < d'.year ∨ d.year = d'.year ∧
    (d.mon < d'.mon ∨ d.mon = d'.mon ∧ d.mday < d'.mday)

theorem Valid.before {d d' : Date} (h : d.Valid) (h' : d'.Valid) (hrank : d.rank < d'.rank) :
    d.Before d' := by
  have hday := h.mday_le.trans (daysInMonth_le _ _)
  have hday' := h'.mday_le.trans (daysInMonth_le _ _)
  have hmon := h.mon_le
  have hmon' := h'.mon_le
  rw [rank, rank] at hrank
  rw [Before]
  omega

/-- Dates follow each other as the days do. -/
theorem before_ofDays {n n' : Nat} (h : n < n') : (ofDays n).Before (ofDays n') :=
  (valid_ofDays n).before (valid_ofDays n') (rank_strictMono h)

/-! ### Years -/

/-- Days from the epoch on are not before 1970. -/
theorem le_year_ofDays (n : Nat) : 1970 ≤ (ofDays n).year := by
  show 1970 ≤ (Date.next^[n] epoch).year
  induction n with
  | zero => exact Nat.le_refl _
  | succ n ih =>
    rw [Function.iterate_succ_apply', next]
    split_ifs
    · exact ih
    · exact ih
    · exact Nat.le_succ_of_le ih

/-- And days in front of it are. -/
theorem year_ofDays_lt (n : Nat) : (ofDays (.negSucc n)).year < 1970 := by
  show (Date.prev^[n + 1] epoch).year < 1970
  induction n with
  | zero => decide
  | succ n ih =>
    rw [Function.iterate_succ_apply', prev]
    split_ifs
    · exact ih
    · exact ih
    · exact Nat.lt_of_le_of_lt (Nat.sub_le _ _) ih

/-- No date before the epoch comes back behind it. -/
theorem ofDays_eq_ofNat {z : Int} {n : Nat} (h : ofDays z = ofDays n) : z = n := by
  cases z with
  | ofNat m => exact congrArg _ (ofDays_injective h)
  | negSucc m =>
    have hlt := year_ofDays_lt m
    rw [h] at hlt
    exact absurd (le_year_ofDays n) (by omega)

/-! ### The number of a date -/

/-- The days before a year, from the year 1 on. -/
def daysBeforeYear (year : Nat) : Nat :=
  let y := year - 1
  y * 365 + y / 4 - y / 100 + y / 400

/-- The days before a month in its year. -/
def daysBeforeMonth (year mon : Nat) : Nat :=
  ((List.range (mon - 1)).map fun m => daysInMonth year (m + 1)).sum

/-- The first day of the year 1 is the first. -/
def ordinal (d : Date) : Nat := daysBeforeYear d.year + daysBeforeMonth d.year d.mon + d.mday

theorem daysBeforeMonth_succ (year : Nat) {mon : Nat} (h : 1 ≤ mon) :
    daysBeforeMonth year (mon + 1) = daysBeforeMonth year mon + daysInMonth year mon := by
  obtain ⟨m, rfl⟩ := Nat.exists_eq_add_of_le' h
  simp [daysBeforeMonth, List.range_succ]

/-- A year has the days in front of its last month and that month. The cases are those of leap
years. -/
theorem daysBeforeYear_succ {year : Nat} (h : 1 ≤ year) :
    daysBeforeYear (year + 1) = daysBeforeYear year + (daysBeforeMonth year 12 + 31) := by
  have hmonths : daysBeforeMonth year 12 = 306 + daysInMonth year 2 := by
    simp [daysBeforeMonth, List.range_succ, daysInMonth]
    omega
  obtain ⟨y, rfl⟩ := Nat.exists_eq_add_of_le' h
  rw [hmonths, daysInMonth, if_pos rfl, daysBeforeYear, daysBeforeYear, isLeapYear]
  simp only [Nat.add_sub_cancel, Nat.succ_div, Nat.dvd_iff_mod_eq_zero]
  -- a hundredth year is a fourth one, and a four hundredth is both
  have h400 (h : (y + 1) % 400 = 0) : (y + 1) % 100 = 0 := by omega
  have h100 (h : (y + 1) % 100 = 0) : (y + 1) % 4 = 0 := by omega
  have hle : y / 100 ≤ y / 4 := Nat.div_le_div_left (by decide) (by decide)
  generalize y / 4 = a at *
  generalize y / 100 = b at *
  generalize y / 400 = c at *
  by_cases hfour : (y + 1) % 4 = 0
  · by_cases hhundred : (y + 1) % 100 = 0
    · by_cases hfourhundred : (y + 1) % 400 = 0
      · simp [hfour, hhundred, hfourhundred]
        omega
      · simp [hfour, hhundred, hfourhundred]
        omega
    · have hfourhundred : ¬ (y + 1) % 400 = 0 := fun h => hhundred (h400 h)
      simp [hfour, hhundred, hfourhundred]
      omega
  · have hhundred : ¬ (y + 1) % 100 = 0 := fun h => hfour (h100 h)
    have hfourhundred : ¬ (y + 1) % 400 = 0 := fun h => hhundred (h400 h)
    simp [hfour, hhundred, hfourhundred]
    omega

/-- The ordinal counts days: the next day has the next one, also at the end of a month or a year. -/
theorem Valid.ordinal_next {d : Date} (h : d.Valid) (hyear : 1 ≤ d.year) :
    d.next.ordinal = d.ordinal + 1 := by
  have hmday := h.mday_le
  unfold ordinal
  rw [Date.next]
  split_ifs with hday hmon
  · rfl
  · show daysBeforeYear d.year + daysBeforeMonth d.year (d.mon + 1) + 1 = _
    rw [daysBeforeMonth_succ _ h.one_le_mon]
    omega
  · have hlast : d.mon = 12 := by
      have := h.mon_le
      omega
    have hmday' : d.mday = 31 := by
      rw [hlast] at hday hmday
      simp [daysInMonth] at hday hmday
      omega
    show daysBeforeYear (d.year + 1) + 0 + 1 = _
    rw [daysBeforeYear_succ hyear, hlast, hmday']
    omega

/-- The ordinal counts the days. -/
theorem ordinal_ofDays (n : Nat) : (ofDays n).ordinal = epoch.ordinal + n := by
  induction n with
  | zero => rfl
  | succ n ih =>
    have hnext : ofDays (n + 1 : Nat) = (ofDays n).next := Function.iterate_succ_apply' ..
    have hyear : 1 ≤ (ofDays n).year := (by decide : 1 ≤ 1970).trans (le_year_ofDays n)
    rw [hnext, (valid_ofDays n).ordinal_next hyear, ih, Nat.add_assoc]

theorem daysBeforeYear_mono {year year' : Nat} (h : year ≤ year') :
    daysBeforeYear year ≤ daysBeforeYear year' := by
  obtain rfl | hlt := h.eq_or_lt
  · exact Nat.le_refl _
  · rw [daysBeforeYear, daysBeforeYear]
    omega

theorem daysBeforeMonth_mono (year : Nat) {mon mon' : Nat} (h : mon ≤ mon') (h1 : 1 ≤ mon) :
    daysBeforeMonth year mon ≤ daysBeforeMonth year mon' := by
  induction mon', h using Nat.le_induction with
  | base => exact Nat.le_refl _
  | succ mon' hle ih =>
    rw [daysBeforeMonth_succ year (h1.trans hle)]
    exact Nat.le_add_right_of_le ih

/-- The days of a year are counted behind those of the years before it. -/
theorem Valid.ordinal_mem {d : Date} (h : d.Valid) (hyear : 1 ≤ d.year) :
    daysBeforeYear d.year < d.ordinal ∧ d.ordinal ≤ daysBeforeYear (d.year + 1) := by
  have hmonth : daysBeforeMonth d.year d.mon + d.mday ≤ daysBeforeMonth d.year 12 + 31 :=
    calc daysBeforeMonth d.year d.mon + d.mday
        ≤ daysBeforeMonth d.year d.mon + daysInMonth d.year d.mon :=
          Nat.add_le_add_left h.mday_le _
      _ = daysBeforeMonth d.year (d.mon + 1) := (daysBeforeMonth_succ _ h.one_le_mon).symm
      _ ≤ daysBeforeMonth d.year 13 :=
          daysBeforeMonth_mono _ (Nat.succ_le_succ h.mon_le) (Nat.le_add_left _ _)
      _ = daysBeforeMonth d.year 12 + 31 := daysBeforeMonth_succ _ (by decide)
  have hday := h.one_le_mday
  rw [daysBeforeYear_succ hyear, ordinal]
  omega

/-- 2932897 days after the epoch, the year 10000 begins. -/
theorem year_ofDays_lt_iff (n : Nat) : (ofDays n).year < 10000 ↔ n < 2932897 := by
  have hyear : 1 ≤ (ofDays n).year := (by decide : 1 ≤ 1970).trans (le_year_ofDays n)
  obtain ⟨hlt, hle⟩ := (valid_ofDays n).ordinal_mem hyear
  have hepoch : epoch.ordinal = 719163 := by decide +kernel
  have hend : daysBeforeYear 10000 = 3652059 := by decide +kernel
  rw [ordinal_ofDays, hepoch] at hlt hle
  constructor
  · intro h
    have hmono : daysBeforeYear ((ofDays n).year + 1) ≤ daysBeforeYear 10000 :=
      daysBeforeYear_mono h
    omega
  · intro h
    by_contra hge
    have hmono := daysBeforeYear_mono (Nat.le_of_not_lt hge)
    omega

end Date

/-! ## Printed numbers -/

/-- The character of a digit. -/
def digitChar (d : Nat) : UInt8 := UInt8.ofNat (48 + d)

theorem toNat_digitChar {d : Nat} (h : d < 10) : (digitChar d).toNat = 48 + d := by
  rw [digitChar, UInt8.toNat_ofNat', Nat.mod_eq_of_lt (by omega)]

/-- A number in decimal with leading zeros, as `%0<width>d` prints it. -/
def padded (width n : Nat) : List UInt8 := (Nat.digitsAppend 10 width n).reverse.map digitChar

/-- The number that was printed. -/
def value (bs : List UInt8) : Nat := Nat.ofDigits 10 (bs.map fun c => c.toNat - 48).reverse

/-- Padding with zeros does not change what a number is read as. -/
theorem value_padded (width n : Nat) : value (padded width n) = n := by
  have hdigits : (padded width n).map (fun c => c.toNat - 48) =
      (Nat.digitsAppend 10 width n).reverse := by
    rw [padded, List.map_map]
    refine (List.map_congr_left fun d hd => ?_).trans (List.map_id _)
    have hlt := Nat.lt_of_mem_digitsAppend (by decide) width d (List.mem_reverse.mp hd)
    show (digitChar d).toNat - 48 = d
    rw [toNat_digitChar hlt, Nat.add_sub_cancel_left]
  rw [value, hdigits, List.reverse_reverse, Nat.digitsAppend, Nat.ofDigits_append_replicate_zero,
    Nat.ofDigits_digits]

theorem padded_injective {width n n' : Nat} (h : padded width n = padded width n') : n = n' := by
  rw [← value_padded width n, h, value_padded]

/-- Only digits are printed. -/
theorem digit_of_mem_padded {width n : Nat} {c : UInt8} (h : c ∈ padded width n) :
    48 ≤ c ∧ c ≤ 57 := by
  obtain ⟨d, hd, rfl⟩ := List.mem_map.mp h
  have hlt := Nat.lt_of_mem_digitsAppend (by decide) width d (List.mem_reverse.mp hd)
  rw [UInt8.le_iff_toNat_le, UInt8.le_iff_toNat_le, toNat_digitChar hlt]
  exact ⟨Nat.le_add_right _ _, by show 48 + d ≤ 57; omega⟩

/-! ### The order of printed numbers -/

theorem digitChar_lt {d d' : Nat} (h : d < d') (h' : d' < 10) : digitChar d < digitChar d' := by
  rw [UInt8.lt_iff_toNat_lt, toNat_digitChar (h.trans h'), toNat_digitChar h']
  omega

/-- The last digit, and what is in front of it. -/
theorem padded_succ (width n : Nat) :
    padded (width + 1) n = padded width (n / 10) ++ [digitChar (n % 10)] := by
  have hdigits : Nat.digitsAppend 10 (width + 1) n =
      n % 10 :: Nat.digitsAppend 10 width (n / 10) := by
    rw [Nat.digitsAppend, Nat.digitsAppend]
    cases n with
    | zero => simp [List.replicate_succ]
    | succ n => simp
  rw [padded, hdigits, List.reverse_cons, List.map_append]
  rfl

/-- A number of no more digits than the width is padded to just the width. -/
theorem length_padded {width n : Nat} (h : n < 10 ^ width) : (padded width n).length = width := by
  induction width generalizing n with
  | zero =>
    obtain rfl : n = 0 := by simpa using h
    rfl
  | succ width ih =>
    rw [padded_succ, List.length_append, ih]
    · rfl
    · rw [Nat.pow_succ] at h
      omega

theorem append_lt_append {bs bs' : List UInt8} (hlen : bs.length = bs'.length) (h : bs < bs')
    (rest rest' : List UInt8) : bs ++ rest < bs' ++ rest' := by
  induction h with
  | nil => cases hlen
  | rel h => exact .rel h
  | cons h ih => exact .cons (ih (Nat.succ.inj hlen))

/-- Numbers that fit are printed in their order. -/
theorem padded_lt {width n n' : Nat} (h : n < n') (h' : n' < 10 ^ width) :
    padded width n < padded width n' := by
  induction width generalizing n n' with
  | zero =>
    rw [Nat.pow_zero] at h'
    omega
  | succ width ih =>
    rw [Nat.pow_succ] at h'
    rw [padded_succ, padded_succ]
    by_cases hdiv : n / 10 = n' / 10
    · rw [hdiv]
      exact List.append_left_lt (.rel (digitChar_lt (by omega) (by omega)))
    · refine append_lt_append ?_ (ih (by omega) (by omega)) _ _
      rw [length_padded (by omega), length_padded (by omega)]

end Calendar
