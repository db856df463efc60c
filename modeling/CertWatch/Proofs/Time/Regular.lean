import CertWatch.Proofs.Except
import CertWatch.Proofs.Time.Text

/-!
# What is read can be written

A timestamp in the relaxed form is read to the nanosecond, and at a whole number of minutes from UTC. So the second
after a leap second is a whole minute, and the timestamp can be written and read back.
-/

namespace CertWatch.Timestamp
set_option autoImplicit false

/-! ## Numbers -/

/-- What is read as a number of at most so many digits stands at the front. -/
theorem exists_of_number {least most n : Nat} {cs rest : List Char}
    (read : number least (some most) cs = .ok (n, rest)) :
    ∃ ds, AllDigits ds ∧ ds.length ≤ most ∧ cs = ds ++ rest ∧ n = digitsValue ds := by
  unfold number at read
  split at read
  case isTrue => cases read
  case isFalse =>
    dsimp only at read
    split at read
    case isTrue => cases read
    case isFalse =>
      cases read
      have front : (cs.take most).takeWhile Char.isDigit <+: cs :=
        (List.takeWhile_prefix _).trans (List.take_prefix most cs)
      have short := (List.takeWhile_prefix Char.isDigit (l := cs.take most)).length_le
      rw [List.length_take] at short
      refine ⟨_, List.all_eq_true.1 List.all_takeWhile, by omega, ?_, rfl⟩
      exact (List.prefix_iff_eq_append.1 front).symm

theorem lt_of_fraction {cs rest : List Char} {nanos : Nat} (read : fraction cs = .ok (nanos, rest)) :
    nanos < 1000000000 := by
  unfold fraction at read
  split at read
  case h_2 => cases read; decide
  case h_1 tail =>
    obtain ⟨⟨n, after⟩, digits, same⟩ := ok_of_bind read
    cases same
    obtain ⟨ds, all, most, rfl, rfl⟩ := exists_of_number digits
    have taken : (ds ++ after).length - after.length = ds.length := by rw [List.length_append]; omega
    rw [taken]
    calc digitsValue ds * 10 ^ (9 - ds.length) < 10 ^ ds.length * 10 ^ (9 - ds.length) :=
          Nat.mul_lt_mul_of_pos_right (digitsValue_lt all) (Nat.pow_pos (by decide))
      _ = 10 ^ 9 := by rw [← Nat.pow_add, Nat.add_sub_cancel' most]

/-! ## Parts -/

theorem le_of_bounded {low high n : Nat} {reader : Reader Nat} {cs rest : List Char}
    (read : bounded low high reader cs = .ok (n, rest)) : n ≤ high := by
  obtain ⟨⟨m, after⟩, -, within⟩ := ok_of_bind read
  dsimp only at within
  split at within
  case isTrue fits => cases within; exact fits.2
  case isFalse => cases within

theorem bounds_of_looseTime {colon : Reader Unit} {cs rest : List Char} {hour minute second nanos : Nat}
    (read : looseTime colon cs = .ok ((hour, minute, second, nanos), rest)) : second ≤ 60 ∧ nanos < 1000000000 := by
  obtain ⟨⟨hour, cs₁⟩, -, read⟩ := ok_of_bind read
  obtain ⟨⟨_, cs₂⟩, -, read⟩ := ok_of_bind read
  obtain ⟨⟨minute, cs₃⟩, -, read⟩ := ok_of_bind read
  obtain ⟨⟨_, cs₄⟩, -, read⟩ := ok_of_bind read
  obtain ⟨⟨second, cs₅⟩, seconds, read⟩ := ok_of_bind read
  obtain ⟨⟨nanos, cs₆⟩, nanoseconds, read⟩ := ok_of_bind read
  cases read
  exact ⟨le_of_bounded seconds, lt_of_fraction nanoseconds⟩

/-- Offsets are whole minutes. -/
theorem dvd_of_offset {between : Reader Unit} {cs rest : List Char} {shift : Int}
    (read : offset between cs = .ok (shift, rest)) : 60 ∣ shift := by
  unfold offset at read
  split at read
  case h_1 => cases read; exact Int.dvd_zero _
  case h_2 => cases read; exact Int.dvd_zero _
  case h_3 =>
    obtain ⟨⟨sign, cs₁⟩, -, read⟩ := ok_of_bind read
    obtain ⟨⟨hours, cs₂⟩, -, read⟩ := ok_of_bind read
    obtain ⟨⟨_, cs₃⟩, -, read⟩ := ok_of_bind read
    obtain ⟨⟨minutes, cs₄⟩, -, read⟩ := ok_of_bind read
    cases read
    exact Int.dvd_mul_of_dvd_right (by omega)

theorem dvd_of_zone {cs rest : List Char} {shift : Int} (read : zone cs = .ok (shift, rest)) : 60 ∣ shift := by
  unfold zone at read
  split at read
  · cases read
    exact Int.dvd_zero _
  · exact dvd_of_offset read

theorem isRegular_of_ofParts {p : Parts} {shift : Int} {t : Timestamp} (second : p.second ≤ 60)
    (nanos : p.nanos < 1000000000) (minutes : 60 ∣ shift) (read : ofParts p shift = .ok t) : t.IsRegular := by
  unfold ofParts at read
  dsimp only at read
  split at read
  case isTrue => cases read
  case isFalse =>
    split at read
    case isTrue => cases read
    case isFalse =>
      split at read
      case isFalse => cases read
      case isTrue inRange =>
        cases read
        refine ⟨inRange, ?_⟩
        dsimp only
        omega

/-- **What is read in the relaxed form can be written and read back.** -/
theorem isRegular_of_ofRelaxed {s : String} {t : Timestamp} (read : ofRelaxed s = .ok t) : t.IsRegular := by
  obtain ⟨⟨⟨year, month, day⟩, cs₁⟩, -, read⟩ := ok_of_bind read
  obtain ⟨⟨_, cs₂⟩, -, read⟩ := ok_of_bind read
  obtain ⟨⟨⟨hour, minute, second, nanos⟩, cs₃⟩, time, read⟩ := ok_of_bind read
  obtain ⟨⟨shift, cs₄⟩, zoned, read⟩ := ok_of_bind read
  obtain ⟨second', nanos'⟩ := bounds_of_looseTime time
  dsimp only at read
  split at read
  case isTrue => cases read
  case isFalse => exact isRegular_of_ofParts second' nanos' (dvd_of_zone zoned) read

end CertWatch.Timestamp
