import CertWatch.Json.Value
import CertWatch.Proofs.Json.Text
import CertWatch.Proofs.Table

/-!
# Objects are read back

The text of a record whose fields are strings is the text of an object, and each of its members is read
as the string that was written for it.
-/

namespace CertWatch.Json
set_option autoImplicit false

/-- A record whose fields are strings, with the texts of its fields. -/
def quotedFields (fields : List (String × String)) : List (String × List Char) :=
  fields.map fun f => (f.1, quote f.2)

/-- A quoted string is read as a value at any depth. -/
theorem reads_quote (depth : Nat) (s : String) : Reads (value depth) (Utf8.encodeChars (quote s)) (string s) where
  bare := startsBare_quote s
  read rest _ := by
    have read := quoted_quote s rest
    rw [encodeChars_quote] at read ⊢
    simp [value, scalar, read]

/-- Only characters that need it are changed by quoting. -/
theorem quote_of_plain {s : String} (plain : ∀ c ∈ s.toList, ¬ IsEscaped c) :
    quote s = '"' :: (s.toList ++ ['"']) := by
  have same : s.toList.flatMap escapeChar = s.toList := by
    rw [List.flatMap_congr fun c hc => escapeChar_of_not_escaped (plain c hc), List.flatMap_singleton']
  rw [quote, same, List.cons_append]

theorem parse?_eq_whole (bs : Bytes) : parse? bs = whole (value deepest) bs := by
  rw [parse?, whole]
  split <;> simp [*]

/-- **An object of strings is read back.** -/
theorem parse?_recordText (f : String × String) (fields : List (String × String)) :
    parse? (Utf8.encodeChars (recordText (quotedFields (f :: fields)))) =
      some (ofMembers ((f :: fields).map fun g => (g.1, string g.2))) := by
  have text := encodeChars_recordText (quotedFields (f :: fields))
  rw [quotedFields, List.map_map] at text
  have object : Reads (value deepest) (Utf8.encodeChars (recordText (quotedFields (f :: fields))))
      (ofMembers ((f :: fields).map fun g => (g.1, string g.2))) := by
    refine ⟨⟨0x7B, _, text, rfl⟩, ?_⟩
    intro rest _
    have values : ∀ g ∈ f :: fields, Reads (value 126) (Utf8.encodeChars (quote g.2)) (string g.2) :=
      fun g _ => reads_quote 126 g.2
    have members := enclosed_members (fun g : String × String => (g.1, quote g.2)) values rest
    rw [quotedFields, text, List.cons_append, List.append_assoc, deepest, value]
    exact congrArg _ members
  rw [parse?_eq_whole]
  exact object.whole (spaced_self _)

/-- The members of an object are found by their names, if no two have the same. -/
theorem member?_ofMembers {members : List (String × Json)} (distinct : (members.map Prod.fst).Nodup) (name : String) :
    (ofMembers members).member? name = (members.find? fun m => m.1 = name).map Prod.snd :=
  Table.get?_ofList distinct name

end CertWatch.Json
