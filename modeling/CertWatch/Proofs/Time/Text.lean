import Mathlib.Algebra.Group.Nat.Defs
import CertWatch.Proofs.Time.Calendar
import CertWatch.Time.Reading

/-!
# Timestamps are read back

A timestamp in RFC 3339 with the zone letter is read back as it was written, if the calendar reaches it
and a leap second, if it is one, comes after the last second of a minute. The parts of a time are read at
any offset and with a fraction in any number of digits.
-/

namespace CertWatch.Timestamp
set_option autoImplicit false

/-! ## Digits -/

/-- Characters that are digits. -/
def AllDigits (cs : List Char) : Prop := ∀ c ∈ cs, c.isDigit = true

instance : DecidablePred AllDigits := fun cs => decidable_of_iff (cs.all Char.isDigit = true) List.all_eq_true

/-- Nothing, or something that begins with no digit. -/
def NoDigit (cs : List Char) : Prop := ∀ c ∈ cs.head?, c.isDigit = false

theorem noDigit_cons {c : Char} (h : c.isDigit = false) (cs : List Char) : NoDigit (c :: cs) := by
  intro d hd
  obtain rfl : c = d := by simpa using hd
  exact h

theorem allDigits_padded (width n : Nat) : AllDigits (padded width n) := by
  intro c hc
  rcases List.mem_append.1 hc with zero | digit
  · obtain rfl := List.eq_of_mem_replicate zero
    rfl
  · exact Nat.isDigit_of_mem_toDigits (by decide) (by decide) digit

theorem digitsValue_padded (width n : Nat) : digitsValue (padded width n) = n := by
  show Nat.ofDigitChars 10 (padded width n) 0 = n
  rw [padded, Nat.ofDigitChars_append, Nat.ofDigitChars_replicate_zero, Nat.mul_zero,
    Nat.ofDigitChars_ten_toDigits]

theorem digitsValue_lt {cs : List Char} (all : AllDigits cs) : digitsValue cs < 10 ^ cs.length := by
  show Nat.ofDigitChars 10 cs 0 < 10 ^ cs.length
  induction cs with
  | nil => decide
  | cons c cs ih =>
    have less := ih fun d among => all d (List.mem_cons_of_mem _ among)
    obtain ⟨-, most⟩ := Char.isDigit_iff_toNat.1 (all c List.mem_cons_self)
    have nine : c.toNat - '0'.toNat ≤ 9 := Nat.sub_le_of_le_add most
    have scaled := Nat.mul_le_mul_left (10 ^ cs.length) nine
    rw [Nat.ofDigitChars_cons, Nat.ofDigitChars_eq_ofDigitChars_zero, Nat.mul_zero, Nat.zero_add, List.length_cons,
      Nat.pow_succ]
    omega

theorem digitsValue_append (ds more : List Char) :
    digitsValue (ds ++ more) = digitsValue ds * 10 ^ more.length + digitsValue more := by
  show Nat.ofDigitChars 10 (ds ++ more) 0 = Nat.ofDigitChars 10 ds 0 * _ + Nat.ofDigitChars 10 more 0
  rw [Nat.ofDigitChars_append, Nat.ofDigitChars_eq_ofDigitChars_zero, Nat.mul_comm]

theorem le_length_padded (width n : Nat) : width ≤ (padded width n).length := by
  rw [padded, List.length_append, List.length_replicate]
  omega

theorem length_padded {width n : Nat} (positive : 0 < width) (h : n < 10 ^ width) :
    (padded width n).length = width := by
  have most := (Nat.length_toDigits_le_iff (by decide : 1 < 10) positive).2 h
  rw [padded, List.length_append, List.length_replicate]
  omega

theorem length_le_byteLength (cs : List Char) : cs.length ≤ byteLength cs := by
  have grow : ∀ (cs : List Char) (n : Nat), n + cs.length ≤ cs.foldl (fun n c => n + c.utf8Size) n := by
    intro cs
    induction cs with
    | nil => exact fun n => Nat.le_refl n
    | cons c cs ih =>
      intro n
      have one := c.utf8Size_pos
      have more := ih (n + c.utf8Size)
      rw [List.foldl_cons, List.length_cons]
      omega
  simpa [byteLength] using grow cs 0

theorem takeWhile_digits {ds rest : List Char} (digits : AllDigits ds) (ends : NoDigit rest) :
    (ds ++ rest).takeWhile Char.isDigit = ds := by
  have last : rest.takeWhile Char.isDigit = [] := by
    cases rest with
    | nil => rfl
    | cons c rest => simp [ends c rfl]
  rw [List.takeWhile_append_of_pos digits, last, List.append_nil]

/-- Digits are read as a number, if something else follows. -/
theorem number_digits {least : Nat} {ds rest : List Char} (digits : AllDigits ds)
    (enough : least ≤ ds.length) (ends : NoDigit rest) :
    number least none (ds ++ rest) = .ok (digitsValue ds, rest) := by
  have long : ¬ byteLength (ds ++ rest) < least := by
    have := length_le_byteLength (ds ++ rest)
    rw [List.length_append] at this
    omega
  simp only [number, if_neg long, takeWhile_digits digits ends]
  rw [if_neg (by omega), List.drop_left]

/-- Of digits at most a given number is taken: all of them if they are as many, or if they are fewer and
something else follows. -/
theorem number_upTo {least most : Nat} {ds rest : List Char} (digits : AllDigits ds)
    (enough : least ≤ ds.length) (fits : ds.length ≤ most) (ends : NoDigit rest ∨ most = ds.length) :
    number least (some most) (ds ++ rest) = .ok (digitsValue ds, rest) := by
  have long : ¬ byteLength (ds ++ rest) < least := by
    have := length_le_byteLength (ds ++ rest)
    rw [List.length_append] at this
    omega
  have stops : NoDigit (rest.take (most - ds.length)) := by
    rcases ends with ends | same
    · intro c hc
      cases rest with
      | nil => simp at hc
      | cons d rest =>
        cases left : most - ds.length with
        | zero => simp [left] at hc
        | succ k => exact ends c (by simpa [left] using hc)
    · rw [same, Nat.sub_self]
      exact nofun
  have taken : ((ds ++ rest).take most).takeWhile Char.isDigit = ds := by
    rw [List.take_append, List.take_of_length_le fits, takeWhile_digits digits stops]
  simp only [number, if_neg long, taken]
  rw [if_neg (by omega), List.drop_left]

/-! ## Fractions of a second -/

/-- Digits that are the nanoseconds of a fraction of a second, neither more nor less. -/
structure IsFraction (nanos : Nat) (ds : List Char) : Prop where
  digits : AllDigits ds
  value : digitsValue ds * 1000000000 = nanos * 10 ^ ds.length

instance (nanos : Nat) : DecidablePred (IsFraction nanos) := fun ds =>
  decidable_of_iff (AllDigits ds ∧ digitsValue ds * 1000000000 = nanos * 10 ^ ds.length)
    ⟨fun ⟨digits, value⟩ => ⟨digits, value⟩, fun h => ⟨h.digits, h.value⟩⟩

/-- A fraction is written after a point, and not at all if it has no digits. -/
def pointed (ds : List Char) : List Char := if ds = [] then [] else '.' :: ds

/-- Nothing, or something that does not go on with the seconds before it. -/
def EndsTime (cs : List Char) : Prop := ∀ c ∈ cs.head?, c.isDigit = false ∧ c ≠ '.'

theorem endsTime_cons {c : Char} (noDigit : c.isDigit = false) (noPoint : c ≠ '.') (cs : List Char) :
    EndsTime (c :: cs) := by
  intro d first
  obtain rfl : c = d := by simpa using first
  exact ⟨noDigit, noPoint⟩

/-- The fraction that is written in some digits, of which those after the ninth are noughts. -/
theorem IsFraction.nine {nanos : Nat} {first more : List Char} (exact_ : IsFraction nanos (first ++ more))
    (most : first.length ≤ 9) (all : more = [] ∨ first.length = 9) :
    digitsValue first * 10 ^ (9 - first.length) = nanos := by
  obtain ⟨digits, same⟩ := exact_
  rw [digitsValue_append, List.length_append] at same
  rcases all with rfl | nine
  · have whole : 1000000000 = 10 ^ (9 - first.length) * 10 ^ first.length := by
      rw [← Nat.pow_add, Nat.sub_add_cancel most]
    have same : digitsValue first * 10 ^ (9 - first.length) * 10 ^ first.length = nanos * 10 ^ first.length := by
      rw [Nat.mul_assoc, ← whole]
      simpa [digitsValue] using same
    exact Nat.eq_of_mul_eq_mul_right (Nat.pow_pos (by decide)) same
  · -- What is left after nine digits is less than a nanosecond, so it is nothing.
    have less := digitsValue_lt (List.forall_mem_append.1 digits).2
    have same : digitsValue first * 10 ^ more.length + digitsValue more = nanos * 10 ^ more.length := by
      rw [nine, Nat.pow_add, Nat.mul_comm (10 ^ 9), ← Nat.mul_assoc] at same
      exact Nat.eq_of_mul_eq_mul_right (by decide) same
    have upTo : (_ + _) / 10 ^ more.length = _ / _ := congrArg (· / 10 ^ more.length) same
    rw [Nat.mul_comm, Nat.mul_add_div (Nat.pow_pos (by decide)), Nat.div_eq_of_lt less,
      Nat.mul_div_cancel _ (Nat.pow_pos (by decide))] at upTo
    rw [nine, Nat.sub_self, Nat.pow_zero, Nat.mul_one]
    exact upTo

theorem nanoseconds_digits {nanos : Nat} {ds rest : List Char} (exact_ : IsFraction nanos ds)
    (found : ds ≠ []) (ends : NoDigit rest) : nanoseconds (ds ++ rest) = .ok (nanos, rest) := by
  obtain ⟨first, more, rfl, most, all⟩ : ∃ first more, ds = first ++ more ∧ first.length ≤ 9 ∧
      (more = [] ∨ first.length = 9) := by
    refine ⟨ds.take 9, ds.drop 9, (List.take_append_drop 9 ds).symm, List.length_take_le 9 ds, ?_⟩
    rw [List.drop_eq_nil_iff, List.length_take]
    omega
  obtain ⟨digits, digits'⟩ := List.forall_mem_append.1 exact_.digits
  have some_ : 1 ≤ first.length := by
    rcases all with rfl | nine
    · exact List.length_pos_iff.2 (by simpa using found)
    · omega
  have stops : NoDigit (more ++ rest) ∨ 9 = first.length := all.imp (fun nothing => by simpa [nothing]) Eq.symm
  have read := number_upTo digits some_ most stops
  have dropped : (more ++ rest).dropWhile Char.isDigit = rest := by
    rw [List.dropWhile_append_of_pos digits']
    cases rest with
    | nil => rfl
    | cons c rest => simp [ends c rfl]
  have taken : (first ++ (more ++ rest)).length - (more ++ rest).length = first.length := by
    rw [List.length_append]
    omega
  rw [List.append_assoc, nanoseconds, read]
  simp only [bind, Except.bind, taken, dropped]
  rw [Nat.pow_eq, exact_.nine most all]

/-- A fraction is read exactly, in whatever number of digits it is written. -/
theorem fraction_pointed {nanos : Nat} {ds rest : List Char} (exact_ : IsFraction nanos ds)
    (ends : EndsTime rest) : fraction (pointed ds ++ rest) = .ok (nanos, rest) := by
  unfold pointed
  split
  case isTrue nothing =>
    subst nothing
    obtain rfl : nanos = 0 := by simpa [digitsValue] using exact_.value.symm
    rw [List.nil_append, fraction]
    exact fun after same => (ends '.' (by rw [same]; rfl)).2 rfl
  case isFalse found => exact nanoseconds_digits exact_ found fun c first => (ends c first).1

theorem isFraction_padded {width n unit : Nat} (positive : 0 < width) (small : n < 10 ^ width)
    (scale : unit * 10 ^ width = 1000000000) : IsFraction (n * unit) (padded width n) := by
  refine ⟨allDigits_padded width n, ?_⟩
  rw [digitsValue_padded, length_padded positive small, Nat.mul_assoc, scale]

/-- The fewest digits that a fraction is written in are exact. -/
theorem fractionText_eq {nanos : Nat} (small : nanos < 1000000000) :
    ∃ ds, IsFraction nanos ds ∧ fractionText nanos = pointed ds := by
  have written : ∀ {width n unit : Nat}, 0 < width → n < 10 ^ width → unit * 10 ^ width = 1000000000 →
      n * unit = nanos → ∃ ds, IsFraction nanos ds ∧ '.' :: padded width n = pointed ds := by
    intro width n unit positive fits scale same
    have some_ : padded width n ≠ [] := by
      have := le_length_padded width n
      exact List.ne_nil_of_length_pos (by omega)
    exact ⟨padded width n, same ▸ isFraction_padded positive fits scale, by rw [pointed, if_neg some_]⟩
  unfold fractionText
  split
  case isTrue zero => exact ⟨[], ⟨nofun, by simp [zero, digitsValue]⟩, rfl⟩
  case isFalse =>
    split
    case isTrue millis => exact written (by decide) (by omega) (by decide : 1000000 * 10 ^ 3 = _) (by omega)
    case isFalse =>
      split
      case isTrue micros => exact written (by decide) (by omega) (by decide : 1000 * 10 ^ 6 = _) (by omega)
      case isFalse => exact written (by decide) (by omega) (by decide : 1 * 10 ^ 9 = _) (Nat.mul_one nanos)

/-! ## Parts of a time -/

theorem isBlank_of_isDigit {c : Char} (h : c.isDigit = true) : Text.isBlank c = false := by
  rw [Char.isDigit_iff_toNat] at h
  obtain ⟨least, most⟩ := h
  change 48 ≤ c.toNat at least
  change c.toNat ≤ 57 at most
  simp [Text.isBlank]
  omega

theorem spaced_of_not_blank {α : Type} (reader : Reader α) {c : Char} (h : Text.isBlank c = false)
    (cs : List Char) : spaced reader (c :: cs) = reader (c :: cs) := by
  simp [spaced, Text.trimStart, h]

theorem spaced_digits {α : Type} (reader : Reader α) {ds rest : List Char} (digits : AllDigits ds)
    (found : 0 < ds.length) : spaced reader (ds ++ rest) = reader (ds ++ rest) := by
  cases ds with
  | nil => cases found
  | cons d ds => exact spaced_of_not_blank reader (isBlank_of_isDigit (digits d List.mem_cons_self)) _

/-- Two digits are read as a part of a date or of a time of day. -/
theorem bounded_pair {low high n : Nat} (least : low ≤ n) (most : n ≤ high) (two : n < 100)
    (rest : List Char) :
    bounded low high (spaced (number 1 (some 2))) (padded 2 n ++ rest) = .ok (n, rest) := by
  have length : (padded 2 n).length = 2 := length_padded (by decide) two
  have digits := allDigits_padded 2 n
  have read : number 1 (some 2) (padded 2 n ++ rest) = .ok (digitsValue (padded 2 n), rest) :=
    number_upTo digits (by omega) (by omega) (.inr length.symm)
  rw [bounded, spaced_digits _ digits (by omega), read, digitsValue_padded]
  simp [bind, Except.bind, least, most]

/-- A year is read back, whether it has a sign or four digits. -/
theorem signedYear_yearText (year : Int) {rest : List Char} (ends : NoDigit rest) :
    spaced signedYear (yearText year ++ rest) = .ok (year, rest) := by
  unfold yearText
  split
  case isTrue plain =>
    have length : (padded 4 year.toNat).length = 4 := length_padded (by decide) (by omega)
    have digits := allDigits_padded 4 year.toNat
    have read : number 1 (some 4) (padded 4 year.toNat ++ rest) =
        .ok (digitsValue (padded 4 year.toNat), rest) :=
      number_upTo digits (by omega) (by omega) (.inr length.symm)
    rw [spaced_digits _ digits (by omega)]
    rw [digitsValue_padded] at read
    generalize padded 4 year.toNat = ds at read digits length
    cases ds with
    | nil => cases length
    | cons d ds =>
      have isDigit := digits d List.mem_cons_self
      have same : (year.toNat : Int) = year := by omega
      rw [List.cons_append] at read ⊢
      unfold signedYear
      split
      case h_1 minus => cases minus; cases isDigit
      case h_2 plus => cases plus; cases isDigit
      case h_3 =>
        rw [read]
        simp [bind, Except.bind, same]
  case isFalse signed =>
    have read : number 1 none (padded 4 year.natAbs ++ rest) =
        .ok (digitsValue (padded 4 year.natAbs), rest) :=
      number_digits (allDigits_padded 4 _) (by have := le_length_padded 4 year.natAbs; omega) ends
    rw [digitsValue_padded] at read
    by_cases negative : year < 0
    · have same : -(year.natAbs : Int) = year := by omega
      rw [if_pos negative, List.cons_append, spaced_of_not_blank _ (by decide), signedYear, read]
      simp only [bind, Except.bind, same]
    · have same : (year.natAbs : Int) = year := by omega
      rw [if_neg negative, List.cons_append, spaced_of_not_blank _ (by decide), signedYear, read]
      simp only [bind, Except.bind, same]

theorem spaced_char {c : Char} (notBlank : Text.isBlank c = false) (rest : List Char) :
    spaced (char c) (c :: rest) = .ok ((), rest) := by
  rw [spaced_of_not_blank _ notBlank, char, if_pos rfl]

/-- The text of a date. -/
def dateText (d : Calendar.Date) : List Char :=
  yearText d.year ++ '-' :: padded 2 d.month ++ '-' :: padded 2 d.day

theorem looseDate_dateText {hyphen : Reader Unit} (hyphens : ∀ rest, hyphen ('-' :: rest) = .ok ((), rest))
    {d : Calendar.Date} (real : d.exists = true) (rest : List Char) :
    looseDate hyphen (dateText d ++ rest) = .ok ((d.year, d.month, d.day), rest) := by
  obtain ⟨⟨⟨month, month'⟩, day⟩, day'⟩ : ((1 ≤ d.month ∧ d.month ≤ 12) ∧ 1 ≤ d.day) ∧
      d.day ≤ Calendar.monthLength (Calendar.isLeap d.year) d.month := by
    simpa [Calendar.Date.exists] using real
  have length := Calendar.monthLength_le (Calendar.isLeap d.year) d.month
  have year : ∀ rest, spaced signedYear (yearText d.year ++ '-' :: rest) = .ok (d.year, '-' :: rest) :=
    fun rest => signedYear_yearText d.year (noDigit_cons rfl rest)
  rw [dateText, List.append_assoc, List.append_assoc, List.cons_append, List.cons_append, looseDate]
  simp only [year, hyphens,
    bounded_pair month month' (by omega), bounded_pair day (by omega : d.day ≤ 31) (by omega), bind,
    Except.bind]

/-- The text of a time of day to the second. -/
def clockText (hour minute second : Nat) : List Char :=
  padded 2 hour ++ ':' :: padded 2 minute ++ ':' :: padded 2 second

theorem looseTime_clockText {colon : Reader Unit} (colons : ∀ rest, colon (':' :: rest) = .ok ((), rest))
    {hour minute second nanos : Nat} (hour' : hour ≤ 23) (minute' : minute ≤ 59) (second' : second ≤ 60)
    {cs rest : List Char} (read : fraction cs = .ok (nanos, rest)) :
    looseTime colon (clockText hour minute second ++ cs) = .ok ((hour, minute, second, nanos), rest) := by
  rw [clockText, List.append_assoc, List.append_assoc, List.cons_append, List.cons_append, looseTime]
  simp only [colons, bounded_pair (Nat.zero_le hour) hour' (by omega),
    bounded_pair (Nat.zero_le minute) minute' (by omega),
    bounded_pair (Nat.zero_le second) second' (by omega), read, bind, Except.bind]

/-! ## The whole text -/

/-- The calendar reaches the instant, and a leap second comes after the last second of a minute. -/
structure IsRegular (t : Timestamp) : Prop where
  year : yearInRange (Calendar.yearOfDays (t.seconds / 86400)) = true
  nanos : t.nanos < 1000000000 ∨ t.nanos < 2000000000 ∧ t.seconds % 60 = 59

section Whole

variable {t : Timestamp}

/-- Whether the instant is in a leap second. -/
def leap (t : Timestamp) : Nat := if t.nanos < 1000000000 then 0 else 1

/-- The day of an instant. -/
def date (t : Timestamp) : Calendar.Date := Calendar.Date.ofDays (t.seconds / 86400)

/-- The year of an instant in UTC. -/
def year (t : Timestamp) : Int := Calendar.yearOfDays (t.seconds / 86400)

/-- The date and the time of day of an instant, a leap second being the sixtieth of its minute. -/
def parts (t : Timestamp) : Parts where
  year := t.date.year
  month := t.date.month
  day := t.date.day
  hour := (t.seconds % 86400).toNat / 3600
  minute := (t.seconds % 86400).toNat / 60 % 60
  second := (t.seconds % 86400).toNat % 60 + t.leap
  nanos := t.nanos % 1000000000

/-- The text of an instant without a zone, with its fraction in some digits. -/
def plainText (t : Timestamp) (separator : Char) (ds : List Char) : List Char :=
  dateText t.date ++ separator :: (clockText t.parts.hour t.parts.minute t.parts.second ++ pointed ds)

theorem exists_date (t : Timestamp) : t.date.exists = true := (Calendar.Date.ofDays_spec _).1

theorem year_date (t : Timestamp) : t.date.year = t.year := (Calendar.Date.ofDays_spec _).2.2

/-- The parts of the time of day are within their bounds. -/
theorem clock_bounds (t : Timestamp) : t.parts.hour ≤ 23 ∧ t.parts.minute ≤ 59 ∧ t.parts.second ≤ 60 ∧
    t.parts.nanos < 1000000000 := by
  have leap : t.leap ≤ 1 := by unfold Timestamp.leap; split <;> decide
  dsimp only [parts]
  omega

/-- A written timestamp has its fraction in some digits. -/
theorem localText_eq (t : Timestamp) :
    ∃ ds, IsFraction t.parts.nanos ds ∧ t.localText = t.plainText 'T' ds := by
  obtain ⟨ds, exact_, same⟩ := fractionText_eq (clock_bounds t).2.2.2
  dsimp only [parts] at same
  refine ⟨ds, exact_, ?_⟩
  simp [localText, plainText, dateText, clockText, date, parts, leap, same]

theorem looseTime_parts {colon : Reader Unit} (colons : ∀ rest, colon (':' :: rest) = .ok ((), rest))
    {ds rest : List Char} (exact_ : IsFraction t.parts.nanos ds) (ends : EndsTime rest) :
    looseTime colon (clockText t.parts.hour t.parts.minute t.parts.second ++ (pointed ds ++ rest)) =
      .ok ((t.parts.hour, t.parts.minute, t.parts.second, t.parts.nanos), rest) := by
  obtain ⟨hour, minute, second, -⟩ := clock_bounds t
  exact looseTime_clockText colons hour minute second (fraction_pointed exact_ ends)

/-- The second of the day that a local time writes down, a leap second being the sixtieth of its
minute, together with the nanoseconds. -/
theorem second_parts (regular : t.IsRegular) :
    min t.parts.second 59 = (t.seconds % 86400).toNat % 60 ∧
      t.parts.nanos + (t.parts.second - (t.seconds % 86400).toNat % 60) * 1000000000 = t.nanos := by
  dsimp only [parts]
  unfold leap
  rcases regular.nanos with plain | ⟨most, last⟩
  · rw [if_pos plain]
    omega
  · split <;> omega

/-- The parts of a local time make up the instant that is so far from it, if the calendar reaches that. -/
theorem ofParts_parts (regular : t.IsRegular) {shift : Int} (within : -86400 < shift ∧ shift < 86400)
    (reached : yearInRange (Calendar.yearOfDays ((t.seconds - shift) / 86400)) = true) :
    ofParts t.parts shift = .ok ⟨t.seconds - shift, t.nanos⟩ := by
  obtain ⟨real, days, year⟩ := Calendar.Date.ofDays_spec (t.seconds / 86400)
  obtain ⟨second, nanos⟩ := second_parts regular
  have inRange : yearInRange t.parts.year = true := by
    show yearInRange (Calendar.Date.ofDays (t.seconds / 86400)).year = true
    rw [year]
    exact regular.year
  have seconds : t.seconds / 86400 * 86400 +
      ((t.parts.hour * 3600 + t.parts.minute * 60 + (t.seconds % 86400).toNat % 60 : Nat) : Int) - shift =
      t.seconds - shift := by
    dsimp only [parts]
    omega
  have date : (⟨t.parts.year, t.parts.month, t.parts.day⟩ : Calendar.Date) =
      Calendar.Date.ofDays (t.seconds / 86400) := rfl
  simp only [ofParts, date, inRange, real, days, second, nanos, seconds, within, reached, and_self,
    Bool.and_self, not_true_eq_false, if_false, if_true]

/-- The parts of an instant make it up again. -/
theorem ofParts_utc (regular : t.IsRegular) : ofParts t.parts 0 = .ok t := by
  have reached : yearInRange (Calendar.yearOfDays ((t.seconds - 0) / 86400)) = true := by
    rw [Int.sub_zero]
    exact regular.year
  rw [ofParts_parts regular (by decide) reached, Int.sub_zero]

/-- **A written timestamp is read back.** -/
theorem ofRelaxed_toZuluText (regular : t.IsRegular) : ofRelaxed t.toZuluText = .ok t := by
  obtain ⟨ds, exact_, text⟩ := t.localText_eq
  have colons := spaced_char (by decide : Text.isBlank ':' = false)
  have ends : EndsTime ['Z'] := endsTime_cons rfl (by decide) []
  have time := looseTime_parts colons exact_ ends
  have separator : ∀ rest, dateSeparator ('T' :: rest) = .ok ((), rest) := fun _ => rfl
  have zulu : spaced zone ['Z'] = .ok (0, []) := rfl
  have nothing : Text.trimStart [] = [] := rfl
  rw [toZuluText, text, ofRelaxed, String.toList_ofList, plainText, List.append_assoc, List.cons_append,
    List.append_assoc]
  simp only [looseDate_dateText (spaced_char (by decide)) t.exists_date, separator, time, zulu, nothing, bind,
    Except.bind, ne_eq, not_true_eq_false, if_false]
  exact ofParts_utc regular

end Whole

end CertWatch.Timestamp
