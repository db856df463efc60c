import CertWatch.Proofs.Time.Spelling

/-!
# Timestamps of stored values are read back

A stored value has its timestamp with a numeric offset. The text is read back as RFC 3339, where a year
has four digits; so it is refused for a year before 0 or after 9999, and then the zone-less form does not
take it either, because of the offset.
-/

namespace CertWatch.Timestamp
set_option autoImplicit false

variable {t : Timestamp}

/-- The text of an instant is that of its date and time of day, and of no offset. -/
theorem toOffsetText_eq (t : Timestamp) : ∃ ds, IsFraction t.parts.nanos ds ∧
    t.toOffsetText = String.ofList (t.plainText 'T' ds ++ "+00:00".toList) := by
  obtain ⟨ds, exact_, text⟩ := t.localText_eq
  exact ⟨ds, exact_, by rw [toOffsetText, text]⟩

theorem isMark_toOffsetText (t : Timestamp) : ∀ c ∈ t.toOffsetText.toList, isMark c = true := by
  obtain ⟨ds, exact_, text⟩ := t.toOffsetText_eq
  have time := isMark_cons (by decide : isMark 'T' = true) (List.forall_mem_append.2
    ⟨isMark_clockText t.parts.hour t.parts.minute t.parts.second, isMark_pointed exact_.digits⟩)
  have zone : "+00:00".toList.all isMark = true := rfl
  rw [text, String.toList_ofList, plainText, List.forall_mem_append, List.forall_mem_append]
  exact ⟨⟨isMark_dateText _, time⟩, List.all_eq_true.1 zone⟩

theorem trim_toOffsetText (t : Timestamp) : Text.trim t.toOffsetText = t.toOffsetText :=
  Text.trim_of_not_blank fun c h => not_blank_of_isMark (isMark_toOffsetText t c h)

/-- Something that begins with no digit is no number. -/
theorem number_of_not_digit {least : Nat} (most : Nat) (positive : 0 < least) {c : Char} (notDigit : c.isDigit = false)
    (rest : List Char) : ∃ f, number least (some most) (c :: rest) = .error f := by
  have nothing : ((c :: rest).take most).takeWhile Char.isDigit = [] := by
    cases most <;> simp [notDigit]
  simp only [number, nothing, List.length_nil, positive, if_true]
  split <;> exact ⟨_, rfl⟩

/-- **A written timestamp is read back** in a year of four digits. -/
theorem ofRfc3339_toOffsetText (regular : t.IsRegular) (plain : t.hasPlainYear = true) :
    ofRfc3339 t.toOffsetText = .ok t := by
  simpa using (spelled_toOffsetText plain).ofRfc3339 regular

/-- RFC 3339 has no sign before a year. -/
theorem ofRfc3339_of_signed (signed : t.hasPlainYear = false) : ∃ f, ofRfc3339 t.toOffsetText = .error f := by
  obtain ⟨ds, -, text⟩ := t.toOffsetText_eq
  have outside : ¬ (0 ≤ t.year ∧ t.year ≤ 9999) := by simpa [hasPlainYear] using signed
  have long := Nat.not_lt.2 (plainLength_le_plainText t 'T' ds "+00:00".toList)
  have sign : (if t.year < 0 then '-' else '+').isDigit = false := by split <;> decide
  have noYear := number_of_not_digit 4 (by decide : 0 < 4) sign
  rw [text, ofRfc3339, String.toList_ofList, if_neg long, plainText, dateText, year_date, yearText,
    if_neg outside]
  simp only [List.cons_append, plainDate, bind, Except.bind]
  obtain ⟨f, none⟩ := noYear _
  exact ⟨f, by rw [none]⟩

/-- A text with an offset is none without a zone. -/
theorem ofZoneless_toOffsetText (t : Timestamp) : ofZoneless t.toOffsetText = .error .tooLong := by
  obtain ⟨ds, exact_, text⟩ := t.toOffsetText_eq
  have ends : EndsTime "+00:00".toList := endsTime_cons rfl (by decide) _
  rw [text, ofZoneless_plainText exact_ ends, if_pos (by decide)]

/-- **The timestamp of a stored value** is read back in a year of four digits, and is none in another. -/
theorem ofText?_toOffsetText (regular : t.IsRegular) :
    ofText? t.toOffsetText = (some t).filter hasPlainYear := by
  simp only [ofText?, trim_toOffsetText]
  cases plain : t.hasPlainYear with
  | true => simp [ofRfc3339_toOffsetText regular plain, Option.filter, plain]
  | false =>
    obtain ⟨f, refused⟩ := ofRfc3339_of_signed plain
    simp [refused, ofZoneless_toOffsetText, Option.filter, plain, Except.toOption]

end CertWatch.Timestamp
