import CertWatch.Time.Calendar

/-!
# Days and dates

The date of a day exists and is the date of that day only: the year of a day begins on or before it and
ends after it, and so does its month within the year.
-/

namespace CertWatch.Calendar
set_option autoImplicit false

/-! ## Years -/

/-- Four hundred years later the calendar repeats. -/
theorem daysBeforeYear_cycle (cycles year : Int) :
    daysBeforeYear (400 * cycles + year) = 146097 * cycles + daysBeforeYear year := by
  unfold daysBeforeYear
  omega

theorem le_daysBeforeYear {year : Int} (least : 0 ≤ year) : 365 * year ≤ daysBeforeYear year := by
  unfold daysBeforeYear
  omega

/-- Within the first four hundred years there are at most 97 leap days. -/
theorem daysBeforeYear_le {year : Int} (least : 0 ≤ year) (most : year ≤ 400) :
    daysBeforeYear year ≤ 365 * year + 97 := by
  unfold daysBeforeYear
  omega

theorem daysBeforeYear_succ (year : Int) :
    daysBeforeYear (year + 1) = daysBeforeYear year + (if isLeap year then 366 else 365) := by
  have leap : isLeap year = true ↔ year % 4 = 0 ∧ (year % 100 ≠ 0 ∨ year % 400 = 0) := by
    simp [isLeap]
  unfold daysBeforeYear
  by_cases h : isLeap year = true
  · have := leap.1 h
    rw [if_pos h]
    omega
  · have := mt leap.2 h
    rw [if_neg h]
    omega

/-- A day falls in its year. -/
theorem yearOfDays_spec (days : Int) :
    daysBeforeYear (yearOfDays days) ≤ days ∧ days < daysBeforeYear (yearOfDays days + 1) := by
  have whole : 146097 * (days / 146097) + days % 146097 = days := Int.mul_ediv_add_emod days 146097
  have least : 0 ≤ days % 146097 := Int.emod_nonneg _ (by decide)
  have most : days % 146097 < 146097 := Int.emod_lt_of_pos _ (by decide)
  unfold yearOfDays
  generalize days % 146097 = inCycle at whole least most
  generalize days / 146097 = cycles at whole
  dsimp only
  split
  case isTrue early =>
    have next := le_daysBeforeYear (by omega : 0 ≤ inCycle / 365 + 1)
    rw [Int.add_assoc, daysBeforeYear_cycle, daysBeforeYear_cycle]
    omega
  case isFalse late =>
    have first := le_daysBeforeYear (by omega : 0 ≤ inCycle / 365)
    have positive : 0 < inCycle / 365 := by
      apply Decidable.byContradiction
      intro notPositive
      have zero : inCycle / 365 = 0 := by omega
      rw [zero] at late
      exact late least
    have before := daysBeforeYear_le (by omega : 0 ≤ inCycle / 365 - 1) (by omega)
    rw [Int.add_assoc, Int.sub_add_cancel, daysBeforeYear_cycle, daysBeforeYear_cycle]
    omega

/-! ## Months -/

/-- The days of some months. -/
def total (lengths : List Nat) : Nat := lengths.foldl (· + ·) 0

theorem total_cons (length : Nat) (rest : List Nat) : total (length :: rest) = length + total rest := by
  have shift : ∀ (ls : List Nat) (a b : Nat), ls.foldl (· + ·) (a + b) = a + ls.foldl (· + ·) b := by
    intro ls
    induction ls with
    | nil => exact fun _ _ => rfl
    | cons l ls ih =>
      intro a b
      rw [List.foldl_cons, Nat.add_assoc, ih]
      rfl
  have := shift rest length 0
  simpa [total] using this

/-- The month of a day is the one whose beginning it reaches and whose length it does not exceed. -/
theorem splitMonths_spec (month : Nat) {lengths : List Nat} {n : Nat} (within : n < total lengths) :
    ∃ i, i < lengths.length ∧ (splitMonths lengths month n).1 = month + i ∧
      1 ≤ (splitMonths lengths month n).2 ∧ (splitMonths lengths month n).2 ≤ lengths.getD i 0 ∧
      n + 1 = total (lengths.take i) + (splitMonths lengths month n).2 := by
  induction lengths generalizing month n with
  | nil => cases within
  | cons length rest ih =>
    rw [total_cons] at within
    rw [splitMonths]
    split
    case isTrue here =>
      refine ⟨0, by simp, rfl, Nat.le_add_left 1 n, here, ?_⟩
      simp [total]
    case isFalse later =>
      obtain ⟨i, bound, monthIs, least, most, same⟩ := ih (month + 1) (n := n - length) (by omega)
      refine ⟨i + 1, Nat.succ_lt_succ bound, by omega, least, most, ?_⟩
      rw [List.take_succ_cons, total_cons]
      omega

theorem total_monthLengths (leap : Bool) : total (monthLengths leap) = if leap then 366 else 365 := by
  cases leap <;> rfl

theorem monthLength_le (leap : Bool) (month : Nat) : monthLength leap month ≤ 31 := by
  have each : ∀ length ∈ monthLengths leap, length ≤ 31 := by cases leap <;> decide
  unfold monthLength
  split
  · exact Nat.zero_le 31
  · rw [List.getD_eq_getElem?_getD]
    cases found : (monthLengths leap)[month - 1]? with
    | none => exact Nat.zero_le 31
    | some length => exact each length (List.mem_of_getElem? found)

/-! ## Dates -/

/-- **The date of a day** exists and is the date of that day. -/
theorem Date.ofDays_spec (days : Int) :
    (Date.ofDays days).exists = true ∧ (Date.ofDays days).toDays = days ∧
      (Date.ofDays days).year = yearOfDays days := by
  obtain ⟨first, last⟩ := yearOfDays_spec days
  rw [daysBeforeYear_succ] at last
  have within : (days - daysBeforeYear (yearOfDays days)).toNat <
      total (monthLengths (isLeap (yearOfDays days))) := by
    rw [total_monthLengths]
    split at last <;> simp_all <;> omega
  obtain ⟨i, bound, month, least, most, same⟩ := splitMonths_spec 1 within
  have twelve : i < 12 := bound
  have date : Date.ofDays days = ⟨yearOfDays days,
      (splitMonths (monthLengths (isLeap (yearOfDays days))) 1
        (days - daysBeforeYear (yearOfDays days)).toNat).1,
      (splitMonths (monthLengths (isLeap (yearOfDays days))) 1
        (days - daysBeforeYear (yearOfDays days)).toNat).2⟩ := rfl
  rw [date]
  generalize splitMonths (monthLengths (isLeap (yearOfDays days))) 1
    (days - daysBeforeYear (yearOfDays days)).toNat = split at month least most same
  obtain ⟨m, d⟩ := split
  dsimp only at month least most same
  subst month
  refine ⟨?_, ?_, rfl⟩
  · have length : monthLength (isLeap (yearOfDays days)) (1 + i) =
        (monthLengths (isLeap (yearOfDays days))).getD i 0 := by
      rw [monthLength, if_neg (by omega), Nat.add_sub_cancel_left]
    simp only [Date.exists, length, Bool.and_eq_true, decide_eq_true_eq]
    omega
  · have before : daysBeforeMonth (isLeap (yearOfDays days)) (1 + i) =
        total ((monthLengths (isLeap (yearOfDays days))).take i) := by
      rw [daysBeforeMonth, Nat.add_sub_cancel_left]
      rfl
    rw [Date.toDays, before]
    dsimp only
    omega

end CertWatch.Calendar
