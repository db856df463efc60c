import Mathlib.Data.List.Nodup
import CertWatch.Proofs.Json.Numeral
import CertWatch.Proofs.Json.Tokens
import CertWatch.Proofs.Table

/-!
# Records are read back

The text of a value ends where passing over it ends, as long as white space, a comma or a closing bracket follows.
The members of a written record are its fields, each with the text that was written for it, and the elements of a
written list are its items.
-/

namespace CertWatch.Json
set_option autoImplicit false

/-! ## Values -/

/-- The text of one value. -/
structure IsValueText (text : Bytes) : Prop where
  bare : StartsBare text
  extent : ∀ fuel rest, text.length < fuel → Delimited rest → extent fuel (text ++ rest) = some ((), rest)

/-- Passing over the text of a value reads it, with fuel for its length. -/
theorem IsValueText.passed {text : Bytes} (h : IsValueText text) {fuel : Nat} (enough : text.length < fuel) :
    Reads (Json.extent fuel) text () := ⟨h.bare, fun rest ends => h.extent fuel rest enough ends⟩

/-- The text of a value is cut off where it ends. -/
theorem IsValueText.reads {text : Bytes} (h : IsValueText text) : Reads valueText text text where
  bare := h.bare
  read rest ends := by
    rw [valueText, h.extent _ rest (by rw [List.length_append]; omega) ends]
    simp

theorem startsBare_quote (s : String) : StartsBare (Utf8.encodeChars (quote s)) := by
  have text := encodeChars_quote s []
  rw [List.append_nil] at text
  exact ⟨0x22, _, text, rfl⟩

theorem isValueText_quote (s : String) : IsValueText (Utf8.encodeChars (quote s)) where
  bare := startsBare_quote s
  extent fuel rest enough _ := by
    obtain ⟨fuel, rfl⟩ := Nat.exists_eq_succ_of_ne_zero (Nat.ne_zero_of_lt enough)
    have passed := quotedExtent_quote s rest
    rw [encodeChars_quote] at passed ⊢
    exact passed

theorem reads_quoted (s : String) : Reads quoted (Utf8.encodeChars (quote s)) s :=
  ⟨startsBare_quote s, fun rest _ => quoted_quote s rest⟩

theorem readString_quote (s : String) : readString (Utf8.encodeChars (quote s)) = some s :=
  (reads_quoted s).whole (spaced_self _)

/-- A numeral is a value. -/
theorem isValueText_of_numeral {text : Bytes} {x : Numeral} (bare : StartsBare text)
    (read : ∀ more, EndsNumeral more → numeral (text ++ more) = some (x, more)) : IsValueText text where
  bare := bare
  extent fuel rest enough ends := by
    obtain ⟨fuel, rfl⟩ := Nat.exists_eq_succ_of_ne_zero (Nat.ne_zero_of_lt enough)
    have passed := read rest (endsNumeral_of_delimited ends)
    have noMark {b : UInt8} (notDigit : isDigit b = false) (notMinus : b ≠ 0x2D) (tail : Bytes) :
        text ++ rest ≠ b :: tail := by
      intro same
      rw [same, numeral_of_first notDigit notMinus] at passed
      cases passed
    unfold Json.extent
    split
    case h_7 => rw [passed]; rfl
    all_goals exact absurd ‹_› (noMark rfl (by decide) _)

/-! ## Optional values -/

/-- The bytes of `null`. -/
def nullBytes : Bytes := [0x6E, 0x75, 0x6C, 0x6C]

theorem isValueText_null : IsValueText nullBytes where
  bare := ⟨0x6E, _, rfl, rfl⟩
  extent fuel rest enough _ := by
    obtain ⟨fuel, rfl⟩ := Nat.exists_eq_succ_of_ne_zero (Nat.ne_zero_of_lt enough)
    rfl

/-- What is written for an item is the text of a value other than `null`, and the item is read back. -/
structure Written {α : Type} (read : Bytes → Option α) (text : List Char) (a : α) : Prop where
  value : IsValueText (Utf8.encodeChars text)
  notNull : ∀ b ∈ (Utf8.encodeChars text).head?, b ≠ 0x6E
  back : read (Utf8.encodeChars text) = some a

theorem written_quote (s : String) : Written readString (quote s) s where
  value := isValueText_quote s
  notNull := by
    have text := encodeChars_quote s []
    rw [List.append_nil] at text
    rw [text]
    intro b first
    cases first
    decide
  back := readString_quote s

section Optional

variable {α : Type} {read : Bytes → Option α} {text : α → List Char} {o : Option α}

theorem isValueText_optionText (written : ∀ a ∈ o, Written read (text a) a) :
    IsValueText (Utf8.encodeChars (optionText text o)) := by
  cases o with
  | none => exact isValueText_null
  | some a => exact (written a rfl).value

/-- An optional item is read back, whether it is there or not. -/
theorem readOption_optionText (written : ∀ a ∈ o, Written read (text a) a) :
    readOption read (Utf8.encodeChars (optionText text o)) = some o := by
  cases o with
  | none => rfl
  | some a =>
    obtain ⟨value, notNull, back⟩ := written a rfl
    obtain ⟨b, rest, same, bare⟩ := value.bare
    have refused : whole (literal nullBytes) (b :: rest) ≠ some () := by
      rw [whole, skipSpace_of_startsBare ⟨b, rest, rfl, bare⟩]
      simp [literal, nullBytes, Ne.symm (notNull b (by rw [same]; rfl))]
    rw [optionText, readOption, back]
    rw [same]
    exact if_neg refused

end Optional

/-! ## Lists and objects -/

section Composite

variable {fuel : Nat}

theorem extent_closing (rest : Bytes) : extent fuel (0x5D :: rest) = none := by
  cases fuel with
  | zero => rfl
  | succ fuel =>
    have none : numeral (0x5D :: rest) = none := numeral_of_first rfl (by decide) rest
    simp [extent, none]

/-- A list of values in brackets is a value. -/
theorem isValueText_array {α : Type} {inside : Bytes} {items : List α}
    (listed : Listed (fun text _ => IsValueText text) inside items) : IsValueText (0x5B :: (inside ++ [0x5D])) where
  bare := ⟨0x5B, _, rfl, rfl⟩
  extent fuel rest enough _ := by
    obtain ⟨fuel, rfl⟩ := Nat.exists_eq_succ_of_ne_zero (Nat.ne_zero_of_lt enough)
    rw [List.length_cons, List.length_append] at enough
    have passed : Listed (Reads (Json.extent fuel)) inside (items.map fun _ => ()) :=
      listed.imp fun text _ _ short isValue => isValue.passed (by omega)
    have read := enclosed_listed (.inl rfl) extent_closing passed rest
    rw [List.cons_append, List.append_assoc, List.singleton_append, Json.extent, read]
    rfl

/-- An object whose members have values is a value. -/
theorem isValueText_object {α : Type} {inside : Bytes} {members : List (Unit × α)}
    (listed : Listed (IsMember quotedExtent fun text _ => IsValueText text) inside members) :
    IsValueText (0x7B :: (inside ++ [0x7D])) where
  bare := ⟨0x7B, _, rfl, rfl⟩
  extent fuel rest enough _ := by
    obtain ⟨fuel, rfl⟩ := Nat.exists_eq_succ_of_ne_zero (Nat.ne_zero_of_lt enough)
    rw [List.length_cons, List.length_append] at enough
    have passed : Listed (Reads (member quotedExtent (Json.extent fuel))) inside (members.map fun m => (m.1, ())) := by
      refine listed.imp ?_
      rintro text m - short ⟨token, before, after, item, named, blank, blank', isValue, rfl⟩
      simp only [List.length_append, List.length_cons] at short
      exact IsMember.reads isNaming_quotedExtent
        ⟨token, before, after, item, named, blank, blank', isValue.passed (by omega), rfl⟩
    have read := enclosed_listed (.inr rfl) (fun _ => rfl) passed rest
    rw [List.cons_append, List.append_assoc, List.singleton_append, Json.extent, read]
    rfl

end Composite

/-- The text of an item. -/
def IsItem (text item : Bytes) : Prop := item = text ∧ IsValueText text

theorem IsItem.reads {text item : Bytes} (h : IsItem text item) : Reads valueText text item := h.1 ▸ h.2.reads

/-- An object is read as its members. -/
theorem reads_object {inside : Bytes} {members : List (String × Bytes)}
    (listed : Listed (IsMember quoted IsItem) inside members) :
    Reads memberTexts (0x7B :: (inside ++ [0x7D])) members where
  bare := ⟨0x7B, _, rfl, rfl⟩
  read rest _ := by
    have parts : Listed (Reads (member quoted valueText)) inside (members.map id) := by
      refine listed.imp ?_
      rintro text m - - ⟨token, before, after, item, named, blank, blank', isItem, same⟩
      exact IsMember.reads isNaming_quoted ⟨token, before, after, item, named, blank, blank', isItem.reads, same⟩
    rw [List.map_id] at parts
    rw [List.cons_append, List.append_assoc]
    exact enclosed_listed (.inr rfl) (fun _ => rfl) parts rest

/-- An array is read as its elements. -/
theorem reads_array {inside : Bytes} {items : List Bytes} (listed : Listed IsItem inside items) :
    Reads elementTexts (0x5B :: (inside ++ [0x5D])) items where
  bare := ⟨0x5B, _, rfl, rfl⟩
  read rest _ := by
    have noPart (rest : Bytes) : valueText (0x5D :: rest) = none := by rw [valueText, extent_closing]; rfl
    have parts : Listed (Reads valueText) inside (items.map id) := listed.imp fun _ _ _ _ isItem => isItem.reads
    rw [List.map_id] at parts
    rw [List.cons_append, List.append_assoc]
    exact enclosed_listed (.inl rfl) noPart parts rest

/-! ## Records -/

/-- The bytes of a member. -/
def memberBytes (f : String × List Char) : Bytes :=
  Utf8.encodeChars (quote f.1) ++ 0x3A :: Utf8.encodeChars f.2

/-- The members of a record with the texts of their values. -/
def fieldTexts (fields : List (String × List Char)) : List (String × Bytes) :=
  fields.map fun f => (f.1, Utf8.encodeChars f.2)

theorem encodeChars_intercalate (items : List (List Char)) :
    Utf8.encodeChars ([','].intercalate items) = [0x2C].intercalate (items.map Utf8.encodeChars) := by
  cases items with
  | nil => rfl
  | cons first more =>
    have comma (item : List Char) : Utf8.encodeChars ([','] ++ item) = 0x2C :: Utf8.encodeChars item := by
      rw [Utf8.encodeChars_append]
      rfl
    rw [List.map_cons, intercalate_cons, intercalate_cons, Utf8.encodeChars_append, List.flatMap_map]
    congr 1
    exact List.flatMap_assoc.trans (congrArg more.flatMap (funext comma))

theorem encodeChars_member (f : String × List Char) :
    Utf8.encodeChars (quote f.1 ++ ':' :: f.2) = memberBytes f := by
  have colon : String.utf8EncodeChar ':' = [0x3A] := rfl
  rw [Utf8.encodeChars_append, Utf8.encodeChars_cons, colon]
  rfl

theorem encodeChars_recordText (fields : List (String × List Char)) :
    Utf8.encodeChars (recordText fields) = 0x7B :: ([0x2C].intercalate (fields.map memberBytes) ++ [0x7D]) := by
  have opening : String.utf8EncodeChar '{' = [0x7B] := rfl
  have closing : Utf8.encodeChars ['}'] = [0x7D] := rfl
  have members : Utf8.encodeChars ∘ (fun f : String × List Char => quote f.1 ++ ':' :: f.2) = memberBytes :=
    funext encodeChars_member
  rw [recordText, List.cons_append, Utf8.encodeChars_cons, Utf8.encodeChars_append, encodeChars_intercalate,
    List.map_map, members, opening, closing]
  rfl

theorem encodeChars_listText (items : List (List Char)) :
    Utf8.encodeChars (listText items) = 0x5B :: ([0x2C].intercalate (items.map Utf8.encodeChars) ++ [0x5D]) := by
  have opening : String.utf8EncodeChar '[' = [0x5B] := rfl
  have closing : Utf8.encodeChars [']'] = [0x5D] := rfl
  rw [listText, List.cons_append, Utf8.encodeChars_cons, Utf8.encodeChars_append, encodeChars_intercalate, opening,
    closing]
  rfl

/-- A written member has its name and the text of its value. -/
theorem isMember_memberBytes {κ β : Type} {name : Scan κ} {part : Bytes → β → Prop} {f : String × List Char} {k : κ}
    {v : β} (named : name (Utf8.encodeChars (quote f.1)) = some (k, [])) (value : part (Utf8.encodeChars f.2) v) :
    IsMember name part (memberBytes f) (k, v) :=
  ⟨_, [], [], _, named, nofun, nofun, value, rfl⟩

theorem quoted_whole (s : String) : quoted (Utf8.encodeChars (quote s)) = some (s, []) := by
  have read := quoted_quote s []
  rwa [List.append_nil] at read

theorem quotedExtent_whole (s : String) : quotedExtent (Utf8.encodeChars (quote s)) = some ((), []) := by
  have passed := quotedExtent_quote s []
  rwa [List.append_nil] at passed

/-- The members of a written record are read up to the closing brace, each by what reads its item. -/
theorem enclosed_members {α β : Type} {item : Scan β} (field : α → String × List Char) {value : α → β} {as : List α}
    (values : ∀ a ∈ as, Reads item (Utf8.encodeChars (field a).2) (value a)) (rest : Bytes) :
    enclosed 0x7D (member quoted item) ([0x2C].intercalate (as.map fun a => memberBytes (field a)) ++ 0x7D :: rest) =
      some (as.map fun a => ((field a).1, value a), rest) := by
  have listed : Listed (Reads (member quoted item)) ([0x2C].intercalate (as.map fun a => memberBytes (field a)))
      (as.map fun a => ((field a).1, value a)) :=
    listed_intercalate fun a among => IsMember.reads isNaming_quoted
      (isMember_memberBytes (quoted_whole _) (values a among))
  exact enclosed_listed (.inr rfl) (fun _ => rfl) listed rest

/-- **The members of a written record are its fields.** -/
theorem memberTexts_recordText {fields : List (String × List Char)}
    (values : ∀ g ∈ fields, IsValueText (Utf8.encodeChars g.2)) :
    whole memberTexts (Utf8.encodeChars (recordText fields)) = some (fieldTexts fields) := by
  have listed : Listed (IsMember quoted IsItem) ([0x2C].intercalate (fields.map memberBytes)) (fieldTexts fields) :=
    listed_intercalate fun g among => isMember_memberBytes (quoted_whole _) ⟨rfl, values g among⟩
  rw [encodeChars_recordText]
  exact (reads_object listed).whole (spaced_self _)

/-- The text of a written record is the text of a value. -/
theorem isValueText_recordText {fields : List (String × List Char)}
    (values : ∀ g ∈ fields, IsValueText (Utf8.encodeChars g.2)) :
    IsValueText (Utf8.encodeChars (recordText fields)) := by
  have listed : Listed (IsMember quotedExtent fun text (_ : Unit) => IsValueText text)
      ([0x2C].intercalate (fields.map memberBytes)) (fields.map fun _ => ((), ())) :=
    listed_intercalate fun g among => isMember_memberBytes (quotedExtent_whole _) (values g among)
  rw [encodeChars_recordText]
  exact isValueText_object listed

/-- The text of a written list is the text of a value. -/
theorem isValueText_listText {items : List (List Char)}
    (values : ∀ item ∈ items, IsValueText (Utf8.encodeChars item)) :
    IsValueText (Utf8.encodeChars (listText items)) := by
  have listed : Listed (fun text (_ : Unit) => IsValueText text) ([0x2C].intercalate (items.map Utf8.encodeChars))
      (items.map fun _ => ()) := listed_intercalate values
  rw [encodeChars_listText]
  exact isValueText_array listed

/-- The elements of a written list are its items. -/
theorem elementTexts_listText {items : List (List Char)}
    (values : ∀ item ∈ items, IsValueText (Utf8.encodeChars item)) :
    whole elementTexts (Utf8.encodeChars (listText items)) = some (items.map Utf8.encodeChars) := by
  have listed : Listed IsItem ([0x2C].intercalate (items.map Utf8.encodeChars)) (items.map Utf8.encodeChars) :=
    listed_intercalate fun item among => ⟨rfl, values item among⟩
  rw [encodeChars_listText]
  exact (reads_array listed).whole (spaced_self _)

theorem isValueText_quotes (strings : List String) :
    IsValueText (Utf8.encodeChars (listText (strings.map quote))) :=
  isValueText_listText (List.forall_mem_map.2 fun s _ => isValueText_quote s)

/-- A written list of strings is read back. -/
theorem readStrings_listText (strings : List String) :
    readStrings (Utf8.encodeChars (listText (strings.map quote))) = some strings := by
  have values : ∀ item ∈ strings.map quote, IsValueText (Utf8.encodeChars item) :=
    List.forall_mem_map.2 fun s _ => isValueText_quote s
  have each : ((strings.map quote).map Utf8.encodeChars).mapM readString = some strings := by
    induction strings with
    | nil => rfl
    | cons s strings ih =>
      rw [List.map_cons, List.map_cons, List.mapM_cons, readString_quote,
        ih fun item among => values item (List.mem_cons_of_mem _ among)]
      rfl
  rw [readStrings, elementTexts_listText values]
  exact each

theorem fieldsOnce_of_nodup (names : List String) {members : List (String × Bytes)}
    (distinct : (members.map Prod.fst).Nodup) : fieldsOnce names members = true := by
  rw [fieldsOnce, List.all_eq_true]
  intro n _
  have part : ((members.filter fun m => m.1 = n).map Prod.fst).Nodup :=
    distinct.sublist (List.filter_sublist.map Prod.fst)
  have same : (members.filter fun m => m.1 = n).map Prod.fst =
      List.replicate (members.filter fun m => m.1 = n).length n := by
    rw [List.eq_replicate_iff, List.length_map]
    refine ⟨rfl, ?_⟩
    intro k hk
    obtain ⟨m, hm, rfl⟩ := List.mem_map.1 hk
    exact of_decide_eq_true (List.mem_filter.1 hm).2
  rw [same, List.nodup_replicate] at part
  exact decide_eq_true part

/-- The fields of a written record are found by their names, if no two have the same. -/
theorem fields?_recordText (names : List String) {fields : List (String × List Char)}
    (values : ∀ g ∈ fields, IsValueText (Utf8.encodeChars g.2)) (distinct : (fields.map Prod.fst).Nodup) :
    ∃ field, fields? names (Utf8.encodeChars (recordText fields)) = some field ∧
      ∀ g ∈ fields, field g.1 = some (Utf8.encodeChars g.2) := by
  have distinct' : ((fieldTexts fields).map Prod.fst).Nodup := by simpa [fieldTexts, Function.comp_def] using distinct
  have once : fieldsOnce names (fieldTexts fields) = true := fieldsOnce_of_nodup names distinct'
  refine ⟨fun n => ((fieldTexts fields).find? fun m => m.1 = n).map Prod.snd, ?_, ?_⟩
  · rw [fields?, memberTexts_recordText values]
    simp only [once, if_true]
  · intro g among
    have among' : (g.1, Utf8.encodeChars g.2) ∈ fieldTexts fields :=
      List.mem_map_of_mem (f := fun f => (f.1, Utf8.encodeChars f.2)) among
    exact congrArg (Option.map Prod.snd) (Table.find?_of_nodup distinct' among')

/-- A written record is read back by what reads it from the texts of its fields. -/
theorem written_recordText {α : Type} {read : Bytes → Option α} {a : α} (names : List String)
    {fields : List (String × List Char)} (values : ∀ g ∈ fields, IsValueText (Utf8.encodeChars g.2))
    (named : fields.map Prod.fst = names) (distinct : names.Nodup)
    (back : ∀ field, fields? names (Utf8.encodeChars (recordText fields)) = some field →
      (∀ g ∈ fields, field g.1 = some (Utf8.encodeChars g.2)) → read (Utf8.encodeChars (recordText fields)) = some a) :
    Written read (recordText fields) a where
  value := isValueText_recordText values
  notNull := by
    rw [encodeChars_recordText]
    rintro b first rfl
    cases first
  back := by
    obtain ⟨field, found, each⟩ := fields?_recordText names values (named ▸ distinct)
    exact back field found each

end CertWatch.Json
