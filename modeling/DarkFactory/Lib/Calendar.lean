import Mathlib.Tactic.Common

/-! Days since 1970-01-01 on the proleptic Gregorian calendar. Years are counted from March, so that the leap day
    comes last. -/

namespace Calendar

def dayOfEra (days : Int) : Nat := ((days + 719468) % 146097).toNat

def yearOfEra (day : Nat) : Nat := (day - day / 1460 + day / 36524 - day / 146096) / 365

def dayOfYear (day : Nat) : Nat := day - (365 * yearOfEra day + yearOfEra day / 4 - yearOfEra day / 100)

def marchMonth (day : Nat) : Nat := (5 * dayOfYear day + 2) / 153

def marchYear (days : Int) : Int := (days + 719468) / 146097 * 400 + yearOfEra (dayOfEra days)

def month (days : Int) : Nat :=
  let shifted := marchMonth (dayOfEra days)
  if shifted < 10 then shifted + 3 else shifted - 9

def year (days : Int) : Int := marchYear days + if month days ≤ 2 then 1 else 0

def day (days : Int) : Nat :=
  dayOfYear (dayOfEra days) - (153 * marchMonth (dayOfEra days) + 2) / 5 + 1

def monthIndex (days : Int) : Int := 12 * year days + month days

theorem dayOfEra_lt (days : Int) : dayOfEra days < 146097 := by
  unfold dayOfEra
  omega

theorem yearOfEra_lt {day : Nat} (bound : day < 146097) : yearOfEra day < 400 := by
  unfold yearOfEra
  omega

theorem yearOfEra_mono {first second : Nat} (le : first ≤ second) (bound : second < 146097) :
    yearOfEra first ≤ yearOfEra second := by
  unfold yearOfEra
  apply Nat.div_le_div_right
  omega

theorem dayOfYear_le {day : Nat} (bound : day < 146097) : dayOfYear day ≤ 365 := by
  obtain ⟨years, named⟩ : ∃ years, yearOfEra day = years := ⟨_, rfl⟩
  unfold dayOfYear
  rw [named]
  unfold yearOfEra at named
  -- the century, and whether it is the last day of the era, fix the leap days there were
  have centuries : day / 36524 = 0 ∨ day / 36524 = 1 ∨ day / 36524 = 2 ∨ day / 36524 = 3 ∨ day / 36524 = 4 := by
    omega
  have ends : day / 146096 = 0 ∨ day / 146096 = 1 := by omega
  rcases centuries with c | c | c | c | c
  all_goals
    rw [c] at named
    rcases ends with e | e
    all_goals
      rw [e] at named
      have century : years / 100 = day / 36524 - day / 146096 := by omega
      rw [c, e] at century
      omega

theorem marchMonth_lt {day : Nat} (bound : day < 146097) : marchMonth day < 12 := by
  have inside := dayOfYear_le bound
  unfold marchMonth
  omega

theorem marchMonth_mono {first second : Nat} (le : first ≤ second) (same : yearOfEra first = yearOfEra second) :
    marchMonth first ≤ marchMonth second := by
  unfold marchMonth dayOfYear
  rw [same]
  apply Nat.div_le_div_right
  omega

theorem month_pos (days : Int) : 1 ≤ month days := by
  unfold month
  dsimp only
  split <;> omega

theorem month_le (days : Int) : month days ≤ 12 := by
  have bound := marchMonth_lt (dayOfEra_lt days)
  unfold month
  dsimp only
  split <;> omega

theorem monthIndex_eq (days : Int) : monthIndex days = 12 * marchYear days + marchMonth (dayOfEra days) + 3 := by
  have bound := marchMonth_lt (dayOfEra_lt days)
  unfold monthIndex year month
  dsimp only
  split <;> split <;> omega

theorem monthIndex_mono {first second : Int} (le : first ≤ second) : monthIndex first ≤ monthIndex second := by
  have firstBound := dayOfEra_lt first
  have secondBound := dayOfEra_lt second
  have firstMonth := marchMonth_lt firstBound
  have firstYear := yearOfEra_lt firstBound
  rw [monthIndex_eq, monthIndex_eq, marchYear, marchYear]
  by_cases era : (first + 719468) / 146097 = (second + 719468) / 146097
  · have inside : dayOfEra first ≤ dayOfEra second := by
      unfold dayOfEra
      omega
    have years := yearOfEra_mono inside secondBound
    by_cases same : yearOfEra (dayOfEra first) = yearOfEra (dayOfEra second)
    · have months := marchMonth_mono inside same
      omega
    · omega
  · have later : (first + 719468) / 146097 + 1 ≤ (second + 719468) / 146097 := by omega
    omega

/-- The calendar month decides the order of its index. -/
theorem monthIndex_lt_iff {first second : Int} : monthIndex first < monthIndex second ↔
    year first < year second ∨ (year first = year second ∧ month first < month second) := by
  have firstPos := month_pos first
  have secondPos := month_pos second
  have firstLe := month_le first
  have secondLe := month_le second
  unfold monthIndex
  omega

end Calendar
