import Mathlib.Data.List.Basic
import CertWatch.Proofs.Text.Blank
import CertWatch.Proofs.Time.Text

/-!
# The spelling of a timestamp

RFC 3339 can write an instant in many ways: at any offset from UTC, in more digits than its fraction
needs, with another separator. The timestamp of a stored value is read as the same instant however it is
written, and a text without a zone is read as that text with the letter for UTC.
-/

namespace CertWatch.Timestamp
set_option autoImplicit false

/-- Whether the year is written in four digits without a sign. -/
def hasPlainYear (t : Timestamp) : Bool := 0 ≤ t.year && t.year ≤ 9999

/-! ## Characters -/

/-- The characters of a written timestamp. -/
def isMark (c : Char) : Bool := c.isDigit || ['+', '-', '.', ':', 'T'].contains c

theorem not_blank_of_isMark {c : Char} (h : isMark c = true) : Text.isBlank c = false := by
  rcases Bool.or_eq_true_iff.1 h with digit | mark
  · exact isBlank_of_isDigit digit
  · simp only [List.contains_iff_mem, List.mem_cons, List.not_mem_nil, or_false] at mark
    rcases mark with rfl | rfl | rfl | rfl | rfl <;> decide

theorem isMark_of_allDigits {ds : List Char} (digits : AllDigits ds) : ∀ c ∈ ds, isMark c = true := fun c h => by
  rw [isMark, digits c h, Bool.true_or]

theorem isMark_padded (width n : Nat) : ∀ c ∈ padded width n, isMark c = true :=
  isMark_of_allDigits (allDigits_padded width n)

theorem isMark_cons {c : Char} {cs : List Char} (first : isMark c = true) (rest : ∀ d ∈ cs, isMark d = true) :
    ∀ d ∈ c :: cs, isMark d = true := List.forall_mem_cons.2 ⟨first, rest⟩

theorem isMark_yearText (year : Int) : ∀ c ∈ yearText year, isMark c = true := by
  unfold yearText
  split
  · exact isMark_padded 4 _
  · exact isMark_cons (by split <;> decide) (isMark_padded 4 _)

theorem isMark_dateText (d : Calendar.Date) : ∀ c ∈ dateText d, isMark c = true := by
  have month := isMark_padded 2 d.month
  have day := isMark_padded 2 d.day
  refine List.forall_mem_append.2 ⟨List.forall_mem_append.2 ⟨isMark_yearText d.year, ?_⟩, ?_⟩
  · exact isMark_cons (by decide) month
  · exact isMark_cons (by decide) day

theorem isMark_clockText (hour minute second : Nat) : ∀ c ∈ clockText hour minute second, isMark c = true := by
  have minutes := isMark_cons (by decide : isMark ':' = true) (isMark_padded 2 minute)
  have seconds := isMark_cons (by decide : isMark ':' = true) (isMark_padded 2 second)
  rw [clockText, List.forall_mem_append, List.forall_mem_append]
  exact ⟨⟨isMark_padded 2 hour, minutes⟩, seconds⟩

theorem isMark_pointed {ds : List Char} (digits : AllDigits ds) : ∀ c ∈ pointed ds, isMark c = true := by
  unfold pointed
  split
  · exact nofun
  · exact isMark_cons (by decide) (isMark_of_allDigits digits)

/-! ## Parts of fixed width -/

theorem number_padded (width : Nat) {n : Nat} (positive : 0 < width) (small : n < 10 ^ width) (rest : List Char) :
    number width (some width) (padded width n ++ rest) = .ok (n, rest) := by
  have length := length_padded positive small
  have read : number width (some width) (padded width n ++ rest) = .ok (digitsValue (padded width n), rest) :=
    number_upTo (allDigits_padded width n) (by omega) (by omega) (.inr length.symm)
  rw [read, digitsValue_padded]

theorem plainDate_dateText {d : Calendar.Date} (real : d.exists = true) (least : 0 ≤ d.year)
    (most : d.year ≤ 9999) (rest : List Char) : plainDate (dateText d ++ rest) = .ok (d, rest) := by
  have bounds : (1 ≤ d.month ∧ d.month ≤ 12) ∧ 1 ≤ d.day ∧ d.day ≤ 31 := by
    have length := Calendar.monthLength_le (Calendar.isLeap d.year) d.month
    simp only [Calendar.Date.exists, Bool.and_eq_true, decide_eq_true_eq] at real
    omega
  have plain : 0 ≤ d.year ∧ d.year ≤ 9999 := ⟨least, most⟩
  have same : ((d.year.toNat : Nat) : Int) = d.year := by omega
  have year := number_padded 4 (n := d.year.toNat) (by decide) (by omega)
  have month := number_padded 2 (n := d.month) (by decide) (by omega)
  have day := number_padded 2 (n := d.day) (by decide) (by omega)
  have hyphen : ∀ rest, char '-' ('-' :: rest) = .ok ((), rest) := fun _ => rfl
  rw [dateText, yearText, if_pos plain, List.append_assoc, List.append_assoc, List.cons_append,
    List.cons_append, plainDate]
  simp only [year, month, day, hyphen, same, real, demand, if_true, bind, Except.bind, pure, Except.pure]

theorem plainTime_clockText {hour minute second nanos : Nat} (hour' : hour ≤ 23) (minute' : minute ≤ 59)
    (second' : second ≤ 60) {cs rest : List Char} (read : fraction cs = .ok (nanos, rest)) :
    plainTime (clockText hour minute second ++ cs) = .ok ((hour, minute, second, nanos), rest) := by
  have hours := number_padded 2 (n := hour) (by decide) (by omega)
  have minutes := number_padded 2 (n := minute) (by decide) (by omega)
  have seconds := number_padded 2 (n := second) (by decide) (by omega)
  have colon : ∀ rest, char ':' (':' :: rest) = .ok ((), rest) := fun _ => rfl
  rw [clockText, List.append_assoc, List.append_assoc, List.cons_append, List.cons_append, plainTime]
  simp only [hours, minutes, seconds, colon, read, hour', minute', second', demand, decide_true, Bool.and_self,
    if_true, bind, Except.bind, pure, Except.pure]

/-! ## Date and time of day -/

section Plain

variable {t : Timestamp} {separator : Char} {ds rest : List Char}

/-- A date and a time of day are long enough for a timestamp. -/
theorem plainLength_le_plainText (t : Timestamp) (separator : Char) (ds rest : List Char) :
    plainLength ≤ byteLength (t.plainText separator ds ++ rest) := by
  refine Nat.le_trans ?_ (length_le_byteLength _)
  have year : ∀ y, 4 ≤ (yearText y).length := by
    intro y
    have := le_length_padded 4 y.toNat
    have := le_length_padded 4 y.natAbs
    unfold yearText
    split
    · assumption
    · rw [List.length_cons]
      omega
  have pair : ∀ n, 2 ≤ (padded 2 n).length := le_length_padded 2
  have := year t.date.year
  have := pair t.date.month
  have := pair t.date.day
  have := pair t.parts.hour
  have := pair t.parts.minute
  have := pair t.parts.second
  simp only [plainText, dateText, clockText, List.length_append, List.length_cons, plainLength]
  omega

/-- RFC 3339 reads a date and a time of day, and is left with the offset. -/
theorem ofRfc3339_plainText (plain : t.hasPlainYear = true) (separates : separator ∈ ['T', 't', ' '])
    (exact_ : IsFraction t.parts.nanos ds) (ends : EndsTime rest) :
    ofRfc3339 (String.ofList (t.plainText separator ds ++ rest)) = (do
      let (shift, cs) ← offset (char ':') rest
      if cs ≠ [] then .error .tooLong
      else
        demand (-greatestOffset ≤ shift && shift ≤ greatestOffset)
        ofParts t.parts shift) := by
  obtain ⟨least, most⟩ : 0 ≤ t.year ∧ t.year ≤ 9999 := by simpa [hasPlainYear] using plain
  obtain ⟨hour, minute, second, -⟩ := clock_bounds t
  have long := Nat.not_lt.2 (plainLength_le_plainText t separator ds rest)
  have date := plainDate_dateText t.exists_date (t.year_date ▸ least) (t.year_date ▸ most)
  have separator' : ∀ cs, dateSeparator (separator :: cs) = .ok ((), cs) := fun cs => by
    have : separator = 'T' ∨ separator = 't' ∨ separator = ' ' := by simpa using separates
    rw [dateSeparator, if_pos this]
  have time := plainTime_clockText hour minute second (fraction_pointed exact_ ends)
  rw [ofRfc3339, String.toList_ofList, if_neg long, plainText, List.append_assoc, List.cons_append,
    List.append_assoc]
  simp only [date, separator', time, bind, Except.bind]
  rfl

/-- The form without a zone takes a date and a time of day, and nothing after it. -/
theorem ofZoneless_plainText (exact_ : IsFraction t.parts.nanos ds) (ends : EndsTime rest) :
    ofZoneless (String.ofList (t.plainText 'T' ds ++ rest)) =
      if rest ≠ [] then .error .tooLong else ofParts t.parts 0 := by
  have hyphen : ∀ rest, char '-' ('-' :: rest) = .ok ((), rest) := fun _ => rfl
  have colon : ∀ rest, char ':' (':' :: rest) = .ok ((), rest) := fun _ => rfl
  have date := looseDate_dateText hyphen t.exists_date
  have separator : ∀ rest, char 'T' ('T' :: rest) = .ok ((), rest) := fun _ => rfl
  have time := looseTime_parts colon exact_ ends
  rw [ofZoneless, String.toList_ofList, plainText, List.append_assoc, List.cons_append, List.append_assoc]
  simp only [date, separator, time, bind, Except.bind]
  rfl

/-- White space around a written timestamp goes. -/
theorem trim_plainText {front back : List Char} (before : ∀ c ∈ front, Text.isBlank c = true)
    (after : ∀ c ∈ back, Text.isBlank c = true) (digits : AllDigits ds)
    (bare : ∀ c ∈ rest, Text.isBlank c = false) :
    Text.trim (String.ofList (front ++ (t.plainText separator ds ++ rest) ++ back)) =
      String.ofList (t.plainText separator ds ++ rest) := by
  have date := isMark_dateText t.date
  have clock : ∀ c ∈ clockText t.parts.hour t.parts.minute t.parts.second ++ pointed ds, isMark c = true :=
    List.forall_mem_append.2 ⟨isMark_clockText _ _ _, isMark_pointed digits⟩
  have year : dateText t.date ≠ [] := by
    simp [dateText]
  have seconds : clockText t.parts.hour t.parts.minute t.parts.second ++ pointed ds ≠ [] := by
    simp [clockText]
  -- The separator may be a blank itself, so only both ends of the text are looked at.
  refine Text.trim_around before after (fun c first => ?_) fun c last => ?_
  · rw [plainText, List.append_assoc, List.head?_append_of_ne_nil _ year] at first
    exact not_blank_of_isMark (date c (List.mem_of_mem_head? first))
  · by_cases nothing : rest = []
    · rw [nothing, List.append_nil, plainText, List.getLast?_append_of_ne_nil _ (List.cons_ne_nil _ _),
        ← List.singleton_append, List.getLast?_append_of_ne_nil _ seconds] at last
      exact not_blank_of_isMark (clock c (List.mem_of_mem_getLast? last))
    · rw [List.getLast?_append_of_ne_nil _ nothing] at last
      exact bare c (List.mem_of_mem_getLast? last)

end Plain

/-! ## Offsets -/

/-- An offset from UTC in minutes as text. -/
def offsetText (sign : Char) (minutes : Nat) : List Char :=
  sign :: (padded 2 (minutes / 60) ++ ':' :: padded 2 (minutes % 60))

/-- How RFC 3339 writes an offset from UTC in minutes, and UTC itself with either sign or a letter. -/
inductive IsZone : Int → List Char → Prop where
  | ahead {minutes : Nat} (within : minutes < 1440) : IsZone minutes (offsetText '+' minutes)
  | behind {minutes : Nat} (within : minutes < 1440) : IsZone (-minutes) (offsetText '-' minutes)
  | zulu : IsZone 0 ['Z']
  | lower : IsZone 0 ['z']

theorem digitPair_padded {n : Nat} {highest : Char} (small : n < 100) (fits : n / 10 + 48 ≤ highest.toNat)
    (rest : List Char) : digitPair highest (padded 2 n ++ rest) = .ok (n, rest) := by
  have value := digitsValue_padded 2 n
  have digits := allDigits_padded 2 n
  obtain ⟨a, b, pair⟩ := List.length_eq_two.1 (length_padded (by decide) small : (padded 2 n).length = 2)
  rw [pair] at value digits ⊢
  obtain ⟨tens, ones⟩ : a.isDigit = true ∧ b.isDigit = true := by simpa [AllDigits] using digits
  have value' : 10 * (a.toNat - 48) + (b.toNat - 48) = n := by simpa [digitsValue] using value
  have first : a ≤ highest := by
    obtain ⟨least, -⟩ : 48 ≤ a.toNat ∧ a.toNat ≤ 57 := Char.isDigit_iff_toNat.1 tens
    obtain ⟨least', most'⟩ : 48 ≤ b.toNat ∧ b.toNat ≤ 57 := Char.isDigit_iff_toNat.1 ones
    rw [Char.le_def, UInt32.le_iff_toNat_le]
    show a.toNat ≤ highest.toNat
    omega
  have long : ¬ byteLength (a :: b :: rest) < 2 := by
    have := length_le_byteLength (a :: b :: rest)
    rw [List.length_cons, List.length_cons] at this
    omega
  simp only [List.cons_append, List.nil_append, digitPair, if_neg long, tens, ones, first, value, Bool.and_self,
    if_true]

/-- Hours and minutes are read back as what they are of an offset in seconds. -/
theorem offset_offsetText {minutes : Nat} (within : minutes < 1440) {c : Char} {sign : Int}
    (signed : ∀ cs, offsetSign (c :: cs) = .ok (sign, cs)) (noLetter : c ≠ 'Z' ∧ c ≠ 'z') :
    offset (char ':') (offsetText c minutes) = .ok (sign * (60 * minutes), []) := by
  have hours : ∀ cs, digitPair '9' (padded 2 (minutes / 60) ++ cs) = .ok (minutes / 60, cs) := by
    refine digitPair_padded (by omega) ?_
    show _ ≤ 57
    omega
  have rest : digitPair '5' (padded 2 (minutes % 60) ++ []) = .ok (minutes % 60, []) := by
    refine digitPair_padded (by omega) ?_ []
    show _ ≤ 53
    omega
  rw [List.append_nil] at rest
  have colon : ∀ cs, char ':' (':' :: cs) = .ok ((), cs) := fun _ => rfl
  have seconds : ((minutes / 60 : Nat) : Int) * 3600 + ((minutes % 60 : Nat) : Int) * 60 = 60 * minutes := by
    omega
  unfold offset offsetText
  split
  case h_1 zulu => exact absurd (List.cons.inj zulu).1 noLetter.1
  case h_2 lower => exact absurd (List.cons.inj lower).1 noLetter.2
  case h_3 => simp only [signed, hours, rest, colon, seconds, bind, Except.bind]

theorem not_blank_of_mem_offsetText {sign : Char} (bare : isMark sign = true) (minutes : Nat) :
    ∀ c ∈ offsetText sign minutes, Text.isBlank c = false := by
  have hours := isMark_padded 2 (minutes / 60)
  have rest := isMark_cons (by decide : isMark ':' = true) (isMark_padded 2 (minutes % 60))
  exact fun c h => not_blank_of_isMark (isMark_cons bare (List.forall_mem_append.2 ⟨hours, rest⟩) c h)

section Zone

variable {minutes : Int} {zone : List Char}

theorem IsZone.within (h : IsZone minutes zone) : -1440 < minutes ∧ minutes < 1440 := by
  cases h <;> omega

theorem IsZone.offset (h : IsZone minutes zone) : offset (char ':') zone = .ok (60 * minutes, []) := by
  cases h with
  | ahead within =>
    have plus : ∀ cs, offsetSign ('+' :: cs) = .ok (1, cs) := fun _ => rfl
    rw [offset_offsetText within plus (by decide), Int.one_mul]
  | behind within =>
    have minus : ∀ cs, offsetSign ('-' :: cs) = .ok (-1, cs) := fun _ => rfl
    rw [offset_offsetText within minus (by decide), Int.neg_mul, Int.one_mul, Int.mul_neg]
  | zulu => rfl
  | lower => rfl

theorem IsZone.endsTime (h : IsZone minutes zone) : EndsTime zone := by
  cases h <;> exact endsTime_cons rfl (by decide) _

theorem IsZone.not_blank (h : IsZone minutes zone) : ∀ c ∈ zone, Text.isBlank c = false := by
  cases h with
  | ahead | behind => exact not_blank_of_mem_offsetText (by decide) _
  | zulu | lower => exact List.forall_mem_singleton.2 rfl

end Zone

/-! ## Spellings -/

/-- What a clock shows that is some minutes ahead of UTC, as if it showed UTC. -/
def shifted (t : Timestamp) (minutes : Int) : Timestamp := ⟨t.seconds + 60 * minutes, t.nanos⟩

@[simp] theorem shifted_zero (t : Timestamp) : t.shifted 0 = t := by
  simp [shifted]

/-- The texts of an instant in RFC 3339: its local time at an offset from UTC at which the year has four
digits, and the offset. -/
inductive Spelled (t : Timestamp) : List Char → Prop where
  | intro {minutes : Int} {zone ds : List Char} {separator : Char} (zoned : IsZone minutes zone)
      (plain : (t.shifted minutes).hasPlainYear = true) (exact_ : IsFraction (t.nanos % 1000000000) ds)
      (separates : separator ∈ ['T', 't', ' ']) :
      Spelled t ((t.shifted minutes).plainText separator ds ++ zone)

section Spelled

variable {t : Timestamp}

/-- The calendar reaches a local time in a year of four digits. -/
theorem IsRegular.shifted (regular : t.IsRegular) {minutes : Int}
    (plain : (t.shifted minutes).hasPlainYear = true) : (t.shifted minutes).IsRegular := by
  have bounds : 0 ≤ (t.shifted minutes).year ∧ (t.shifted minutes).year ≤ 9999 := by
    simpa [hasPlainYear] using plain
  refine ⟨?_, regular.nanos.imp_right fun ⟨most, last⟩ => ⟨most, ?_⟩⟩
  · show yearInRange (t.shifted minutes).year = true
    simp only [yearInRange, Bool.and_eq_true, decide_eq_true_eq]
    omega
  · show (t.seconds + 60 * minutes) % 60 = 59
    omega

/-- A local time and its offset make up the instant. -/
theorem ofParts_shifted (regular : t.IsRegular) {minutes : Int} (within : -1440 < minutes ∧ minutes < 1440)
    (plain : (t.shifted minutes).hasPlainYear = true) : ofParts (t.shifted minutes).parts (60 * minutes) = .ok t := by
  have back : (t.shifted minutes).seconds - 60 * minutes = t.seconds := by
    dsimp only [Timestamp.shifted]
    omega
  -- In UTC the year may be the one before 0 or the one after 9999.
  have reached : yearInRange (Calendar.yearOfDays (((t.shifted minutes).seconds - 60 * minutes) / 86400)) = true := by
    rw [back]
    exact regular.year
  rw [ofParts_parts (regular.shifted plain) (by omega) reached, back]
  rfl

/-- **The spellings of RFC 3339** are read as the instant. -/
theorem Spelled.ofRfc3339 (regular : t.IsRegular) {text : List Char} (h : t.Spelled text) :
    ofRfc3339 (String.ofList text) = .ok t := by
  obtain @⟨minutes, zone, ds, separator, zoned, plain, exact_, separates⟩ := h
  have within := zoned.within
  have inRange : (-greatestOffset ≤ 60 * minutes && 60 * minutes ≤ greatestOffset) = true := by
    have most : greatestOffset = 86340 := rfl
    rw [most, Bool.and_eq_true, decide_eq_true_eq, decide_eq_true_eq]
    omega
  have parts := ofParts_shifted regular within plain
  rw [ofRfc3339_plainText plain separates exact_ zoned.endsTime, zoned.offset]
  simp only [bind, Except.bind, ne_eq, not_true_eq_false, if_false, demand, inRange, if_true, parts]

/-- What is written of an instant in a year of four digits is one of its spellings. -/
theorem spelled_toOffsetText (plain : t.hasPlainYear = true) : t.Spelled t.toOffsetText.toList := by
  obtain ⟨ds, exact_, text⟩ := t.localText_eq
  have spelled := Spelled.intro (t := t) (.ahead (by decide : 0 < 1440)) (by simpa using plain) exact_
    (List.mem_cons_self : 'T' ∈ ['T', 't', ' '])
  have zone : "+00:00".toList = offsetText '+' 0 := by decide
  rw [toOffsetText, String.toList_ofList, text, zone]
  simpa using spelled

/-- A text without a zone is none of RFC 3339, and is read as UTC. -/
theorem ofText?_of_zoneless (regular : t.IsRegular) (plain : t.hasPlainYear = true) {ds : List Char}
    (exact_ : IsFraction t.parts.nanos ds) {s : String} (trimmed : Text.trim s = String.ofList (t.plainText 'T' ds)) :
    ofText? s = some t := by
  have ends : EndsTime [] := nofun
  have refused := ofRfc3339_plainText plain List.mem_cons_self exact_ ends
  have read := ofZoneless_plainText exact_ ends
  rw [List.append_nil] at refused read
  have noOffset : offset (char ':') [] = .error .tooShort := rfl
  simp only [noOffset, bind, Except.bind] at refused
  rw [if_neg (by simp), ofParts_utc regular] at read
  simp only [ofText?, trimmed, refused, read]
  rfl

/-- **Every spelling is read.** With white space around it or not, the text of an instant in RFC 3339 is
read as that instant, whatever the offset at which its local time is written, if the local year has four
digits, and however many digits its fraction is written in, if they are exact. Without a zone the text of
the instant in UTC is read as with the letter for UTC. The instant may be in a leap second. -/
theorem every_spelling_read (regular : t.IsRegular) {front back : List Char}
    (before : ∀ c ∈ front, Text.isBlank c = true) (after : ∀ c ∈ back, Text.isBlank c = true) :
    (∀ text, t.Spelled text → ofText? (String.ofList (front ++ text ++ back)) = some t) ∧
    (t.hasPlainYear = true → ∀ ds, IsFraction (t.nanos % 1000000000) ds →
      ofText? (String.ofList (front ++ t.plainText 'T' ds ++ back)) = some t ∧
      ofText? (String.ofList (front ++ (t.plainText 'T' ds ++ ['Z']) ++ back)) = some t) := by
  have spelled : ∀ text, t.Spelled text → ofText? (String.ofList (front ++ text ++ back)) = some t := by
    intro text h
    have read := h.ofRfc3339 regular
    obtain ⟨zoned, -, exact_, -⟩ := h
    simp only [ofText?, trim_plainText before after exact_.digits zoned.not_blank, read]
  refine ⟨spelled, fun plain ds exact_ => ⟨?_, spelled _ ?_⟩⟩
  · refine ofText?_of_zoneless regular plain exact_ ?_
    have trimmed : Text.trim (String.ofList (front ++ (t.plainText 'T' ds ++ []) ++ back)) = _ :=
      trim_plainText before after exact_.digits (List.forall_mem_nil _)
    rwa [List.append_nil] at trimmed
  · have zulu := Spelled.intro (t := t) .zulu (by simpa using plain) exact_
      (List.mem_cons_self : 'T' ∈ ['T', 't', ' '])
    rwa [shifted_zero] at zulu

/-- A leap second at the end of a year, in UTC and where the next year has begun. -/
theorem every_spelling_read_of_leap_second :
    ofText? " 2017-01-01 05:29:60.500000000000+05:30\n" = some ⟨63650447999, 1500000000⟩ ∧
      ofText? "2016-12-31T23:59:60.5" = some ⟨63650447999, 1500000000⟩ := by
  have regular : IsRegular ⟨63650447999, 1500000000⟩ := ⟨by decide +kernel, .inr (by decide)⟩
  have long : IsFraction (1500000000 % 1000000000) "500000000000".toList := by decide
  have short : IsFraction (1500000000 % 1000000000) ['5'] := by decide
  have before : ∀ c ∈ [' '], Text.isBlank c = true := List.forall_mem_singleton.2 rfl
  have after : ∀ c ∈ ['\n'], Text.isBlank c = true := List.forall_mem_singleton.2 rfl
  have separates : ' ' ∈ ['T', 't', ' '] := by decide
  obtain ⟨spelled, -⟩ := every_spelling_read regular before after
  obtain ⟨-, zoneless⟩ := every_spelling_read regular (List.forall_mem_nil _) (List.forall_mem_nil _)
  have east := spelled _ (.intro (.ahead (by decide : 330 < 1440)) (by decide +kernel) long separates)
  have utc := (zoneless (by decide +kernel) _ short).1
  exact ⟨east, utc⟩

end Spelled

end CertWatch.Timestamp
