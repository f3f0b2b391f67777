import MarketLens.Replay.Aggregation

/-!
# The buckets of a chart are in the order of time

A bucket starts no later than one of a later time, whatever the timeframe. For the
months this is the calendar: years are counted from March, so that the leap day is the
last of its year, and a month starts on the day its number and its year say.
-/

namespace MarketLens.Replay

open Int

/-! ## Years and months -/

def marchFirst (year : Int) : Int := 365 * year + year / 4 - year / 100 + year / 400

variable {first last : Int}

theorem marchFirst_mono (h : first ≤ last) : marchFirst first ≤ marchFirst last := by
  unfold marchFirst
  omega

theorem marchFirst_era (year era : Int) :
    marchFirst (year + era * 400) = era * 146097 + (365 * year + year / 4 - year / 100 + year / 400) := by
  unfold marchFirst
  omega

theorem yearOfEra_spec {day year : Int} (hday : 0 ≤ day) (hera : day < 146097)
    (h : year = (day - day / 1460 + day / 36524 - day / 146096) / 365) :
    0 ≤ year ∧ year < 400 ∧ 365 * year + year / 4 - year / 100 ≤ day ∧
      day < 365 * (year + 1) + (year + 1) / 4 - (year + 1) / 100 + (year + 1) / 400 := by
  by_cases hlast : day = 146096
  · omega
  · have hcentury : day / 36524 = 0 ∨ day / 36524 = 1 ∨ day / 36524 = 2 ∨ day / 36524 = 3 := by omega
    -- The four years before the leap day of a cycle end a day early.
    have hcycle : day / 1460 = year / 4 ∨ day / 1460 = year / 4 + 1 := by
      rcases hcentury with hc | hc | hc | hc <;> rw [hc] at h <;> omega
    have hrest : year % 4 = 0 ∨ year % 4 = 1 ∨ year % 4 = 2 ∨ year % 4 = 3 := by omega
    refine ⟨by omega, by omega, ?_⟩
    rcases hcentury with hc | hc | hc | hc <;> rw [hc] at h <;> rcases hcycle with hcycle | hcycle <;>
      rcases hrest with hrest | hrest | hrest | hrest <;> omega

structure InMonth (day year month : Int) : Prop where
  atLeast : 0 ≤ month
  atMost : month ≤ 11
  started : marchFirst year + (153 * month + 2) / 5 ≤ day + 719468
  monthGoesOn : day + 719468 < marchFirst year + (153 * (month + 1) + 2) / 5
  yearGoesOn : day + 719468 < marchFirst (year + 1)
  named : monthOfDay day = if month < 10 then (year, month + 3) else (year + 1, month - 9)

theorem exists_inMonth (day : Int) : ∃ year month, InMonth day year month := by
  obtain ⟨era, dayOfEra, yearOfEra, dayOfYear, month, hera, hday, hyear, hrest, hmonth, hnamed⟩ :
      ∃ era dayOfEra yearOfEra dayOfYear month, era = (day + 719468) / 146097 ∧ dayOfEra = day + 719468 - era * 146097 ∧
        yearOfEra = (dayOfEra - dayOfEra / 1460 + dayOfEra / 36524 - dayOfEra / 146096) / 365 ∧
        dayOfYear = dayOfEra - (365 * yearOfEra + yearOfEra / 4 - yearOfEra / 100) ∧ month = (5 * dayOfYear + 2) / 153 ∧
        monthOfDay day = (yearOfEra + era * 400 + (if (if month < 10 then month + 3 else month - 9) ≤ 2 then 1 else 0),
          if month < 10 then month + 3 else month - 9) := ⟨_, _, _, _, _, rfl, rfl, rfl, rfl, rfl, rfl⟩
  obtain ⟨hpos, hlt, hfs, hlast⟩ := yearOfEra_spec (by omega) (by omega) hyear
  have hyearFirst := marchFirst_era yearOfEra era
  have hnextFirst := marchFirst_era (yearOfEra + 1) era
  have hsame : yearOfEra + 1 + era * 400 = yearOfEra + era * 400 + 1 := by omega
  rw [hsame] at hnextFirst
  refine ⟨yearOfEra + era * 400, month, by omega, by omega, ?_, ?_, ?_, ?_⟩
  · omega
  · omega
  · omega
  · rw [hnamed]
    by_cases hear : month < 10
    · rw [if_pos hear, if_pos hear, if_neg (by omega), add_zero]
    · rw [if_neg hear, if_neg hear, if_pos (by omega)]

def monthStart (day : Int) : Int := firstDayOfMonth (monthOfDay day).1 (monthOfDay day).2

/-- The first day of the month after that of a day. -/
def nextMonthStart (day : Int) : Int :=
  if (monthOfDay day).2 = 12 then firstDayOfMonth ((monthOfDay day).1 + 1) 1
  else firstDayOfMonth (monthOfDay day).1 ((monthOfDay day).2 + 1)

theorem firstDayOfMonth_march {year month : Int} (hleast : 3 ≤ month) :
    firstDayOfMonth year month = marchFirst year + (153 * (month - 3) + 2) / 5 - 719468 := by
  unfold firstDayOfMonth marchFirst
  dsimp only
  omega

theorem firstDayOfMonth_january {year month : Int} (hmost : month ≤ 2) :
    firstDayOfMonth year month = marchFirst (year - 1) + (153 * (month + 9) + 2) / 5 - 719468 := by
  unfold firstDayOfMonth marchFirst
  dsimp only
  omega

section InMonth

variable {day year month : Int}

theorem InMonth.start (h : InMonth day year month) : monthStart day = marchFirst year + (153 * month + 2) / 5 - 719468 := by
  unfold monthStart
  rw [h.named]
  by_cases hear : month < 10
  · rw [if_pos hear, firstDayOfMonth_march (by have := h.atLeast; omega)]
    rw [show month + 3 - 3 = month by omega]
  · rw [if_neg hear, firstDayOfMonth_january (by have := h.atMost; omega)]
    rw [show year + 1 - 1 = year by omega, show month - 9 + 9 = month by omega]

theorem InMonth.number (h : InMonth day year month) : 1 ≤ (monthOfDay day).2 ∧ (monthOfDay day).2 ≤ 12 := by
  have hleast := h.atLeast
  have hmost := h.atMost
  rw [h.named]
  split
  · omega
  · omega

theorem InMonth.ends (h : InMonth day year month) : day < nextMonthStart day ∧ nextMonthStart day ≤ monthStart day + 31 := by
  have hmonth := h.monthGoesOn
  have hyear := h.yearGoesOn
  have hleast := h.atLeast
  have hmost := h.atMost
  rw [h.start]
  unfold nextMonthStart
  rw [h.named]
  by_cases hear : month < 10
  · rw [if_pos hear]
    dsimp only
    by_cases hlast : month + 3 = 12
    · rw [if_pos hlast, firstDayOfMonth_january (by omega), show year + 1 - 1 = year by omega]
      omega
    · rw [if_neg hlast, firstDayOfMonth_march (by omega)]
      omega
  · rw [if_neg hear]
    rw [if_neg (by omega)]
    by_cases hlast : month = 11
    · rw [firstDayOfMonth_march (by omega)]
      unfold marchFirst at hyear ⊢
      omega
    · rw [firstDayOfMonth_january (by omega), show year + 1 - 1 = year by omega]
      omega

end InMonth

theorem monthStart_le (day : Int) : monthStart day ≤ day := by
  obtain ⟨year, month, h⟩ := exists_inMonth day
  have hstarted := h.started
  rw [h.start]
  omega

/-- **Months begin in the order of their days.** -/
theorem monthStart_mono (h : first ≤ last) : monthStart first ≤ monthStart last := by
  obtain ⟨year, month, hfs⟩ := exists_inMonth first
  obtain ⟨year', month', hlast⟩ := exists_inMonth last
  have hstarted := hfs.started
  have hleast := hfs.atLeast
  have hleast' := hlast.atLeast
  have hgoes := hfs.yearGoesOn
  have hgoes' := hlast.yearGoesOn
  have hmonth' := hlast.monthGoesOn
  rw [hfs.start, hlast.start]
  rcases lt_trichotomy year year' with hyear | hyear | hyear
  · have hnext := marchFirst_mono (add_one_le_of_lt hyear)
    omega
  · subst hyear
    have hmonth : month ≤ month' := by omega
    omega
  · -- The later day would be in a year that is over.
    have hnext := marchFirst_mono (add_one_le_of_lt hyear)
    omega

/-! ## Buckets -/

section
variable (timeframe : Timeframe)

def bucketStart (time : Int) : Int := (replayBucket time timeframe).1

/-- The second a bucket starts on. -/
def bucketUnix (unix : Int) : Int :=
  match timeframe with
  | .d1 => unix / 86400 * 86400
  | .w1 => (unix / 86400 - (unix / 86400 + 3) % 7) * 86400
  | .mo1 => monthStart (unix / 86400) * 86400
  | other => unix - unix.tmod other.seconds

theorem bucketStart_eq (time : Int) :
    bucketStart timeframe time = bucketUnix timeframe (time / second) * second := by
  cases timeframe <;> rfl

theorem tmod_start_mono (seconds : Nat) (hpos : 0 < seconds) (h : first ≤ last) :
    first - first.tmod seconds ≤ last - last.tmod seconds := by
  have hdiv := Int.tdiv_le_tdiv (c := seconds) (by omega) h
  rw [← mul_tdiv_self, ← mul_tdiv_self]
  exact Int.mul_le_mul_of_nonneg_left hdiv (by omega)

/-- **Buckets start in the order of time.** -/
theorem bucketStart_mono (h : first ≤ last) :
    bucketStart timeframe first ≤ bucketStart timeframe last := by
  have hunix : first / second ≤ last / second := by
    unfold second
    omega
  have hday : first / second / 86400 ≤ last / second / 86400 := by omega
  rw [bucketStart_eq, bucketStart_eq]
  refine Int.mul_le_mul_of_nonneg_right ?_ (by decide)
  cases timeframe with
  | d1 => exact Int.mul_le_mul_of_nonneg_right hday (by decide)
  | w1 =>
    dsimp only [bucketUnix]
    omega
  | mo1 => exact Int.mul_le_mul_of_nonneg_right (monthStart_mono hday) (by decide)
  | _ => exact tmod_start_mono _ (by decide) hunix

end

end MarketLens.Replay
