import CertWatch.Proofs.Base64
import CertWatch.Proofs.Envelope
import CertWatch.Proofs.Json.Object
import CertWatch.Proofs.Time.Offset

/-!
# Envelopes are read back

A written envelope is the text of an object of strings, whose characters all stand for themselves. Its
value comes back byte by byte, and its timestamp as well unless the year takes more than four digits.
-/

namespace CertWatch.Envelope
set_option autoImplicit false

variable {e : Envelope}

/-- The members of a written envelope. -/
def fields (e : Envelope) : List (String × String) :=
  (e.modified.map fun t => ("modified", t.toOffsetText)).toList ++ [("value", Base64.encode e.value)]

theorem nodup_fields (e : Envelope) : (e.fields.map Prod.fst).Nodup := by
  cases h : e.modified <;> simp [fields, h]

/-- Nothing in base64 needs a backslash. -/
theorem plain_base64 (bs : Bytes) : ∀ c ∈ (Base64.encode bs).toList, ¬ Json.IsEscaped c := by
  have digits : ∀ n < 64, ¬ Json.IsEscaped (Base64.digit n) := by decide
  intro c hc
  rw [Base64.encode, String.toList_ofList] at hc
  rcases Base64.digit_or_padding bs c hc with ⟨n, six, rfl⟩ | rfl
  · exact digits n six
  · decide

/-- Nor does anything in a timestamp. -/
theorem plain_toOffsetText (t : Timestamp) : ∀ c ∈ t.toOffsetText.toList, ¬ Json.IsEscaped c := by
  intro c hc
  rcases Bool.or_eq_true_iff.1 (Timestamp.isMark_toOffsetText t c hc) with isDigit | mark
  · have least : 48 ≤ c.toNat := (Char.isDigit_iff_toNat.1 isDigit).1
    rintro (low | rfl | rfl)
    · omega
    · exact absurd isDigit (by decide)
    · exact absurd isDigit (by decide)
  · simp only [List.contains_iff_mem, List.mem_cons, List.not_mem_nil, or_false] at mark
    rcases mark with rfl | rfl | rfl | rfl | rfl <;> decide

/-- **A written envelope** is the record of its members. -/
theorem encodeText_eq (e : Envelope) : e.encodeText = Json.recordText (Json.quotedFields e.fields) := by
  have value := Json.quote_of_plain (plain_base64 e.value)
  have stamp := fun t => Json.quote_of_plain (plain_toOffsetText t)
  have names : Json.quote "value" = "\"value\"".toList ∧ Json.quote "modified" = "\"modified\"".toList := by
    decide
  rw [Base64.encode, String.toList_ofList] at value
  cases h : e.modified <;>
    simp [encodeText, h, fields, Json.recordText, Json.quotedFields, List.intercalate, Base64.encode, value, stamp,
      names]

/-- What is read of the object of an envelope. -/
theorem ofJson_fields (regular : ∀ t ∈ e.modified, t.IsRegular) :
    ofJson (Json.ofMembers (e.fields.map fun f => (f.1, Json.string f.2))) =
      { value := e.value, modified := e.modified.filter Timestamp.hasPlainYear } := by
  have distinct : ((e.fields.map fun f => (f.1, Json.string f.2)).map Prod.fst).Nodup := by
    rw [List.map_map]
    exact nodup_fields e
  rw [ofJson, Json.member?_ofMembers distinct, Json.member?_ofMembers distinct]
  cases h : e.modified with
  | none => simp [fields, h, Json.text?, Base64.decode?_encode]
  | some t => simp [fields, h, Json.text?, Base64.decode?_encode, Timestamp.ofText?_toOffsetText (regular t h)]

/-- The text of an envelope is read as the object of its members. -/
theorem parse?_encodeText (e : Envelope) : Json.parse? (Utf8.encodeChars e.encodeText) =
    some (Json.ofMembers (e.fields.map fun f => (f.1, Json.string f.2))) := by
  obtain ⟨f, more, here⟩ : ∃ f more, e.fields = f :: more := by
    cases h : e.modified <;> simp [fields, h]
  rw [encodeText_eq, here, Json.parse?_recordText]

/-- **Wrapping.** Every envelope is read back from the bytes that are written for it, except that a
timestamp is lost if its year is not one of four digits. -/
theorem parse_encode (regular : ∀ t ∈ e.modified, t.IsRegular) :
    parse e.encode = .ok { value := e.value, modified := e.modified.filter Timestamp.hasPlainYear } := by
  obtain ⟨cs, text⟩ : ∃ cs, e.encodeText = '\x7b' :: cs := ⟨_, rfl⟩
  have read := parse_append_encodeChars (List.not_mem_nil : brace ∉ []) cs
  rw [← text, parse?_encodeText] at read
  rw [encode, ← ofJson_fields regular]
  exact read

/-- A leap second at the end of the last year of four digits is read back, a time in the next year is
not. -/
theorem parse_encode_around_9999 :
    parse (encode { value := [0, 255], modified := some ⟨315569519999, 1999999999⟩ }) =
        .ok { value := [0, 255], modified := some ⟨315569519999, 1999999999⟩ } ∧
      parse (encode { value := [0, 255], modified := some ⟨315569520000, 0⟩ }) =
        .ok { value := [0, 255], modified := none } := by
  constructor
  · rw [parse_encode (by rintro t ⟨⟩; exact ⟨by decide +kernel, by decide⟩)]
    have plain : Timestamp.hasPlainYear ⟨315569519999, 1999999999⟩ = true := by decide +kernel
    simp [Option.filter, plain]
  · rw [parse_encode (by rintro t ⟨⟩; exact ⟨by decide +kernel, by decide⟩)]
    have signed : Timestamp.hasPlainYear ⟨315569520000, 0⟩ = false := by decide +kernel
    simp [Option.filter, signed]

end CertWatch.Envelope
