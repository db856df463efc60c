import CertWatch.Allocation
import CertWatch.Proofs.Json.Text
import CertWatch.Proofs.Time.Text

/-!
# Stored prefixes are read back

What one allocation writes, every other one reads: the stored bytes hold the prefix and the time of its
creation, and a fresh prefix can be used unless it is older than it may be.
-/

namespace CertWatch
set_option autoImplicit false

namespace Timestamp

theorem read_jsonText {t : Timestamp} (regular : t.IsRegular) :
    read (Utf8.encodeChars t.jsonText) = some t := by
  have text : Json.readString (Utf8.encodeChars t.jsonText) = some t.toZuluText :=
    Json.readString_quote t.toZuluText
  simp only [read, text, Option.bind_eq_bind, Option.bind_some, ofRelaxed_toZuluText regular,
    Except.toOption]

theorem written_jsonText {t : Timestamp} (regular : t.IsRegular) : Json.Written read t.jsonText t :=
  ⟨Json.isValueText_quote _, (Json.written_quote t.toZuluText).notNull, read_jsonText regular⟩

end Timestamp

namespace StoredPrefix

variable {p : StoredPrefix}

/-- **A stored prefix is read back.** -/
theorem read_encode (regular : ∀ t ∈ p.createdAt, t.IsRegular) : read p.encode = some p := by
  have created : ∀ t ∈ p.createdAt, Json.Written Timestamp.read t.jsonText t := fun t here =>
    Timestamp.written_jsonText (regular t here)
  have whole : Json.Written read p.text p := by
    refine Json.written_recordText ["value", "createdAt"] ?_ rfl (by decide) fun field found each => ?_
    · simp only [List.forall_mem_cons]
      exact ⟨Json.isValueText_quote _, Json.isValueText_optionText created, List.forall_mem_nil _⟩
    · simp only [List.forall_mem_cons] at each
      rw [read, found]
      simp [each, Json.fieldOr, Json.readString_quote, Json.readOption_optionText created]
  exact whole.back

/-- Whether stored bytes hold a prefix that is not blank and is known not to be older than it may be. -/
def Holds (refreshBefore : Option Timestamp) (stored : Option Bytes) (v : String) : Prop :=
  ∃ bytes created, stored = some bytes ∧ read bytes = some ⟨v, some created⟩ ∧ Text.blank v = false ∧
    ∀ cutoff ∈ refreshBefore, created.before cutoff = false

/-- A prefix that can be used is found in its own bytes. -/
theorem usableIn?_encode {refreshBefore : Option Timestamp} (regular : ∀ t ∈ p.createdAt, t.IsRegular)
    (usable : p.isUsable refreshBefore = true) :
    usableIn? refreshBefore (some p.encode) = some p.value := by
  simp [usableIn?, read_encode regular, usable]

end StoredPrefix

namespace NamespaceConfig

variable {c : NamespaceConfig} {token : String} {created : Timestamp}

/-- A fresh prefix is not blank, whatever the host is. -/
theorem isUsable_freshPrefix (recent : ∀ cutoff ∈ c.refreshBefore, created.before cutoff = false) :
    (c.freshPrefix token created).isUsable c.refreshBefore = true := by
  have notBlank : Text.blank (c.host ++ "-" ++ token) = false := by
    simp [Text.blank, Text.isBlank]
  cases cutoff : c.refreshBefore with
  | none => simp [StoredPrefix.isUsable, freshPrefix, notBlank]
  | some limit => simp [StoredPrefix.isUsable, freshPrefix, notBlank, recent limit cutoff]

/-- **A fresh prefix is found where it was written.** -/
theorem usableIn?_freshPrefix (regular : created.IsRegular)
    (recent : ∀ cutoff ∈ c.refreshBefore, created.before cutoff = false) :
    StoredPrefix.usableIn? c.refreshBefore (some (c.freshPrefix token created).encode) =
      some (c.host ++ "-" ++ token) := by
  refine StoredPrefix.usableIn?_encode ?_ (isUsable_freshPrefix recent)
  rintro t ⟨⟩
  exact regular

theorem freshPrefix_value_injective {token' : String} {created' : Timestamp}
    (same : (c.freshPrefix token created).value = (c.freshPrefix token' created').value) :
    token = token' := by
  simpa [freshPrefix, String.ext_iff] using same

end NamespaceConfig
end CertWatch
