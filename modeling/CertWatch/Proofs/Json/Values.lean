import CertWatch.Proofs.Json.Object

/-!
# Objects and arrays

Every text that is passed over as a value, cut off as one or read as one is the text of a value, and a text has
members or elements exactly if it is laid out as an object or an array with these parts.
-/

namespace CertWatch.Json
set_option autoImplicit false

/-! ## Every accepted text is laid out -/

/-- A token that a value can begin with is a value. -/
theorem isValueText_of_closed {scan : Scan Unit} (closed : Closed scan) (notEmpty : scan [] = none) {b : UInt8}
    (bare : isSpace b = false) (passing : ∀ fuel tail, extent (fuel + 1) (b :: tail) = scan (b :: tail))
    {tail rest : Bytes} {u : Unit} (read : scan (b :: tail) = some (u, rest)) :
    ∃ text, b :: tail = text ++ rest ∧ IsValueText text := by
  obtain ⟨text, same, again⟩ := closed _ _ _ read
  cases text with
  | nil =>
    have none := again []
    rw [List.append_nil, notEmpty] at none
    cases none
  | cons c text =>
    rw [(List.cons.inj same).1] at passing bare
    refine ⟨c :: text, same, ⟨c, text, rfl, bare⟩, ?_⟩
    intro fuel more enough _
    obtain ⟨fuel, rfl⟩ := Nat.exists_eq_succ_of_ne_zero (Nat.ne_zero_of_lt enough)
    exact (passing fuel (text ++ more)).trans (again more)

/-- What is passed over is the text of a value. -/
theorem cuts_extent (fuel : Nat) : Cuts (extent fuel) fun text _ => IsValueText text := by
  induction fuel with
  | zero => exact nofun
  | succ fuel inner =>
    intro bs u rest read
    unfold extent at read
    split at read
    case h_1 tail =>
      obtain ⟨⟨items, after⟩, enclosing, same⟩ := Option.map_eq_some_iff.1 read
      cases same
      obtain ⟨inside, rfl, listed⟩ := listed_of_enclosed inner enclosing
      exact ⟨0x5B :: (inside ++ [0x5D]), by simp, isValueText_array listed⟩
    case h_2 tail =>
      obtain ⟨⟨members, after⟩, enclosing, same⟩ := Option.map_eq_some_iff.1 read
      cases same
      obtain ⟨inside, rfl, listed⟩ := listed_of_enclosed
        (cuts_member isNaming_quotedExtent inner) enclosing
      exact ⟨0x7B :: (inside ++ [0x7D]), by simp, isValueText_object listed⟩
    case h_3 => exact isValueText_of_closed isNaming_quotedExtent.closed rfl rfl (fun _ _ => rfl) read
    case h_4 => exact isValueText_of_closed (closed_literal _) rfl rfl (fun _ _ => rfl) read
    case h_5 => exact isValueText_of_closed (closed_literal _) rfl rfl (fun _ _ => rfl) read
    case h_6 => exact isValueText_of_closed (closed_literal _) rfl rfl (fun _ _ => rfl) read
    case h_7 =>
      obtain ⟨⟨x, after⟩, numeral, same⟩ := Option.map_eq_some_iff.1 read
      cases same
      obtain ⟨text, rfl, bare, again⟩ := cuts_numeral _ _ _ numeral
      exact ⟨text, rfl, isValueText_of_numeral bare again⟩

/-- What is cut off as a value is the text of one. -/
theorem cuts_valueText : Cuts valueText IsItem := by
  intro bs item rest read
  obtain ⟨⟨u, after⟩, passed, same⟩ := Option.map_eq_some_iff.1 read
  obtain ⟨text, rfl, isValue⟩ := cuts_extent _ _ _ _ passed
  cases same
  exact ⟨text, rfl, by simp, isValue⟩

/-- What is read as neither an array nor an object is the text of a value. -/
theorem cuts_scalar : Cuts scalar fun text _ => IsValueText text := by
  intro bs j rest read
  have token := cuts_extent 1 bs () rest
  unfold scalar at read
  split at read
  case h_4 tail =>
    obtain ⟨⟨s, after⟩, text, same⟩ := Option.map_eq_some_iff.1 read
    cases same
    exact token (quotedExtent_of_quoted text)
  case h_5 =>
    obtain ⟨⟨x, after⟩, digits, result⟩ := Option.bind_eq_some_iff.1 read
    obtain ⟨n, -, same⟩ := Option.bind_eq_some_iff.1 result
    cases same
    obtain ⟨text, rfl, bare, again⟩ := cuts_numeral _ _ _ digits
    exact ⟨text, rfl, isValueText_of_numeral bare again⟩
  all_goals
    obtain ⟨⟨u, after⟩, word, same⟩ := Option.map_eq_some_iff.1 read
    cases same
    exact token word

/-- What is read as a value is the text of one, however deep it may be. -/
theorem cuts_value (depth : Nat) : Cuts (value depth) fun text _ => IsValueText text := by
  induction depth with
  | zero =>
    intro bs j rest read
    unfold value at read
    split at read
    · cases read
    · cases read
    · exact cuts_scalar _ _ _ read
  | succ depth inner =>
    intro bs j rest read
    unfold value at read
    split at read
    case h_1 tail =>
      obtain ⟨⟨items, after⟩, enclosing, same⟩ := Option.map_eq_some_iff.1 read
      cases same
      obtain ⟨inside, rfl, listed⟩ := listed_of_enclosed inner enclosing
      exact ⟨0x5B :: (inside ++ [0x5D]), by simp, isValueText_array listed⟩
    case h_2 tail =>
      obtain ⟨⟨members, after⟩, enclosing, same⟩ := Option.map_eq_some_iff.1 read
      cases same
      obtain ⟨inside, rfl, listed⟩ := listed_of_enclosed (cuts_member isNaming_quoted inner) enclosing
      have passed : Listed (IsMember quotedExtent fun text (_ : Json) => IsValueText text) inside
          (members.map fun m => ((), m.2)) := by
        refine listed.imp ?_
        rintro text m - - ⟨token, before, after, item, named, rest⟩
        exact ⟨token, before, after, item, quotedExtent_of_quoted named, rest⟩
      exact ⟨0x7B :: (inside ++ [0x7D]), by simp, isValueText_object passed⟩
    case h_3 => exact cuts_scalar _ _ _ read

/-! ## Objects and arrays -/

/-- The text of an object with given members, each with its name and the text of its value. White space may stand
around all parts. -/
def IsObject {κ : Type} (name : Scan κ) (bs : Bytes) (members : List (κ × Bytes)) : Prop :=
  ∃ inside, Spaced (0x7B :: (inside ++ [0x7D])) bs ∧ Listed (IsMember name IsItem) inside members

/-- The text of an array with the texts of its elements. -/
def IsArray (bs : Bytes) (items : List Bytes) : Prop :=
  ∃ inside, Spaced (0x5B :: (inside ++ [0x5D])) bs ∧ Listed IsItem inside items

/-- What is read from a whole text stands between white space. -/
theorem spaced_of_whole {α : Type} {scan : Scan α} {bs : Bytes} {a : α} (read : whole scan bs = some a) :
    ∃ rest, scan (skipSpace bs) = some (a, rest) ∧ ∀ text, skipSpace bs = text ++ rest → Spaced text bs := by
  unfold whole at read
  split at read
  case h_2 => cases read
  case h_1 rest found =>
    split at read
    case isFalse => cases read
    case isTrue ends =>
      cases read
      obtain ⟨front, before, same⟩ := exists_skipSpace bs
      exact ⟨rest, found, fun text cut => ⟨front, rest, before, allSpace_of_skipSpace ends, cut ▸ same⟩⟩

/-- **A text has members exactly if it is an object with these members.** -/
theorem memberTexts_iff {bs : Bytes} {members : List (String × Bytes)} :
    whole memberTexts bs = some members ↔ IsObject quoted bs members := by
  constructor
  · intro read
    obtain ⟨rest, found, spaced⟩ := spaced_of_whole read
    unfold memberTexts at found
    split at found
    case h_2 => cases found
    case h_1 tail opens =>
      obtain ⟨inside, rfl, listed⟩ := listed_of_enclosed (cuts_member isNaming_quoted cuts_valueText) found
      exact ⟨inside, spaced _ (by simp [opens]), listed⟩
  · rintro ⟨inside, spaced, listed⟩
    exact (reads_object listed).whole spaced

/-- **A text has elements exactly if it is an array of these elements.** -/
theorem elementTexts_iff {bs : Bytes} {items : List Bytes} :
    whole elementTexts bs = some items ↔ IsArray bs items := by
  constructor
  · intro read
    obtain ⟨rest, found, spaced⟩ := spaced_of_whole read
    unfold elementTexts at found
    split at found
    case h_2 => cases found
    case h_1 tail opens =>
      obtain ⟨inside, rfl, listed⟩ := listed_of_enclosed cuts_valueText found
      exact ⟨inside, spaced _ (by simp [opens]), listed⟩
  · rintro ⟨inside, spaced, listed⟩
    exact (reads_array listed).whole spaced

/-- The text of a record is an object or an array. -/
theorem isObject_or_isArray {names : List String} {bs : Bytes} {field : FieldTexts}
    (found : fields? names bs = some field) :
    (∃ members, IsObject quoted bs members) ∨ ∃ items, IsArray bs items := by
  unfold fields? at found
  split at found
  case h_1 members object => exact .inl ⟨members, memberTexts_iff.1 object⟩
  case h_2 =>
    split at found
    case h_1 items array => exact .inr ⟨items, elementTexts_iff.1 array⟩
    case h_2 => cases found

/-- **Every JSON text that is read as a value can be passed over as one.** -/
theorem isValueText_of_parse? {bs : Bytes} {j : Json} (read : parse? bs = some j) :
    ∃ text, Spaced text bs ∧ IsValueText text := by
  rw [parse?_eq_whole] at read
  obtain ⟨rest, found, spaced⟩ := spaced_of_whole read
  obtain ⟨text, cut, isValue⟩ := cuts_value _ _ _ _ found
  exact ⟨text, spaced text cut, isValue⟩

end CertWatch.Json
