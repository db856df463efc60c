import Mathlib.Data.List.TakeWhile
import CertWatch.Proofs.Envelope

/-!
# Which bytes are no envelope

Bytes are read by their text from its first brace, and what comes before it is read past even where it
ends inside a character. There is an envelope unless the text shows something that has no brace or whose
rest from the first brace is not one JSON text. Such a rest is an object, of which a member that is
missing or has another form counts as absent.
-/

namespace CertWatch
set_option autoImplicit false

namespace Json

/-- A value that begins with a brace is an object. -/
theorem isObject_of_value {depth : Nat} {bs after : Bytes} {v : Json}
    (read : value depth (0x7B :: bs) = some (v, after)) : ∃ members, v = object members := by
  cases depth with
  | zero => simp [value] at read
  | succ depth =>
    rw [value] at read
    obtain ⟨⟨members, _⟩, _, same⟩ := Option.map_eq_some_iff.1 read
    obtain ⟨rfl, rfl⟩ := Prod.mk.inj same
    exact ⟨_, rfl⟩

/-- So is a whole text that does. -/
theorem isObject_of_parse? {bs : Bytes} {v : Json} (read : parse? (0x7B :: bs) = some v) :
    ∃ members, v = object members := by
  have bare : skipSpace (0x7B :: bs) = 0x7B :: bs := rfl
  rw [parse?, bare] at read
  split at read
  · rename_i value
    split at read
    · cases read
      exact isObject_of_value value
    · cases read
  · cases read

end Json

namespace Envelope

variable {bytes : Bytes} {e : Envelope}

/-- The characters that bytes show, however ill-formed they are. -/
def shown (bytes : Bytes) : List Char := (Utf8.decodeLossy bytes).toList

/-- Bytes that show nothing but white space. -/
def Blank (bytes : Bytes) : Prop := ∀ c ∈ shown bytes, Text.isBlank c = true

/-- Bytes that show a brace, with what their text is read as from the first one: nothing if that is not
one JSON text. -/
def Opens (bytes : Bytes) (read : Option Json) : Prop :=
  ∃ before after, shown bytes = before ++ '\x7b' :: after ∧ '\x7b' ∉ before ∧
    Json.parse? (Utf8.encodeChars ('\x7b' :: after)) = read

/-- Bytes that are no envelope. -/
def Malformed (bytes : Bytes) : Prop :=
  ¬ Blank bytes ∧ ('\x7b' ∉ shown bytes ∨ Opens bytes none)

/-- An envelope has what the members of an object give, and nothing for a member that is missing, no
string, or a string of another form. -/
structure Takes (e : Envelope) (object : Json) : Prop where
  value : ∀ s content, object.member? "value" = some (.string s) → Base64.decode? s = some content →
    e.value = content
  without : (∀ s, object.member? "value" = some (.string s) → Base64.decode? s = none) → e.value = []
  modified : ∀ t, e.modified = some t ↔
    ∃ s, object.member? "modified" = some (.string s) ∧ Timestamp.ofText? s = some t

/-! ## Members -/

/-- The text of a member is that of a string. -/
theorem text_eq_some_iff {object : Json} {name s : String} :
    (object.member? name).bind Json.text? = some s ↔ object.member? name = some (.string s) := by
  rcases object.member? name with _ | v
  · simp
  · cases v <;> simp [Json.text?]

theorem takes_ofJson (object : Json) : (ofJson object).Takes object where
  value s content member decoded := by
    rw [ofJson, text_eq_some_iff.2 member, Option.bind_some, decoded]
    rfl
  without undecoded := by
    have absent : ((object.member? "value").bind Json.text?).bind Base64.decode? = none := by
      rw [Option.bind_eq_none_iff]
      intro s text
      exact undecoded s (text_eq_some_iff.1 text)
    rw [ofJson, absent]
    rfl
  modified t := by
    simp only [ofJson, Option.bind_eq_some_iff, ← text_eq_some_iff]

/-! ## The first brace -/

theorem opens_of_mem (brace : '\x7b' ∈ shown bytes) : ∃ read, Opens bytes read := by
  obtain ⟨before, after, text, first⟩ := List.eq_append_cons_of_mem brace
  exact ⟨_, before, after, text, first, rfl⟩

/-- What follows bytes without a brace opens at its own first one. -/
theorem opens_append {junk : Bytes} (absent : brace ∉ junk) (cs : List Char) :
    Opens (junk ++ brace :: Utf8.encodeChars cs) (Json.parse? (Utf8.encodeChars ('\x7b' :: cs))) := by
  refine ⟨_, cs, ?_, brace_not_mem_decodeLossy absent, rfl⟩
  rw [shown, decodeLossy_brace, Utf8.toList_decodeLossy_encodeChars]

theorem Opens.not_blank {read : Option Json} (h : Opens bytes read) : ¬ Blank bytes := by
  obtain ⟨before, after, text, -, -⟩ := h
  intro blank
  have dark : Text.isBlank '\x7b' = false := by decide
  have light := blank '\x7b' (by rw [text]; exact List.mem_append_right before List.mem_cons_self)
  rw [dark] at light
  cases light

theorem parse_of_opens {object : Json} (h : Opens bytes (some object)) : parse bytes = .ok (ofJson object) := by
  obtain ⟨before, after, text, first, read⟩ := h
  rw [parse_of_brace text first, read]

theorem parse_of_opens_none (h : Opens bytes none) :
    parse bytes = .error (.malformedEnvelope "the text from the first brace is not JSON") := by
  obtain ⟨before, after, text, first, unread⟩ := h
  rw [parse_of_brace text first, unread]

theorem isObject_of_opens {object : Json} (h : Opens bytes (some object)) :
    ∃ members, object = .object members := by
  obtain ⟨before, after, -, -, read⟩ := h
  exact Json.isObject_of_parse? read

theorem parse_of_blank (blank : Blank bytes) : parse bytes = .ok {} := by
  have all : (Utf8.decodeLossy bytes).toList.all Text.isBlank = true := List.all_eq_true.2 blank
  rw [parse, if_pos all]

theorem parse_of_braceless (visible : ¬ Blank bytes) (absent : '\x7b' ∉ shown bytes) :
    parse bytes = .error (.malformedEnvelope "no JSON object found") := by
  have some_visible : ¬ (Utf8.decodeLossy bytes).toList.all Text.isBlank = true :=
    fun all => visible (List.all_eq_true.1 all)
  have nothing : fromBrace (Utf8.decodeLossy bytes).toList = [] := by
    rw [fromBrace, List.dropWhile_eq_nil_iff]
    intro c among
    have other : c ≠ '\x7b' := fun same => absent (same ▸ among)
    simpa using other
  rw [parse, if_neg some_visible, if_pos nothing]

/-- The three things that bytes can be. -/
theorem blank_or_braceless_or_opens (bytes : Bytes) :
    Blank bytes ∨ (¬ Blank bytes ∧ '\x7b' ∉ shown bytes) ∨ ∃ read, Opens bytes read := by
  by_cases brace : '\x7b' ∈ shown bytes
  · exact .inr (.inr (opens_of_mem brace))
  · by_cases blank : Blank bytes
    · exact .inl blank
    · exact .inr (.inl ⟨blank, brace⟩)

theorem parse_of_malformed (h : Malformed bytes) : ∃ detail, parse bytes = .error (.malformedEnvelope detail) := by
  obtain ⟨visible, absent | opens⟩ := h
  · exact ⟨_, parse_of_braceless visible absent⟩
  · exact ⟨_, parse_of_opens_none opens⟩

theorem parse_of_not_malformed (h : ¬ Malformed bytes) : ∃ e, parse bytes = .ok e := by
  rcases blank_or_braceless_or_opens bytes with blank | braceless | ⟨_ | object, opens⟩
  · exact ⟨_, parse_of_blank blank⟩
  · exact absurd ⟨braceless.1, .inl braceless.2⟩ h
  · exact absurd ⟨opens.not_blank, .inr opens⟩ h
  · exact ⟨_, parse_of_opens opens⟩

/-- Bytes are malformed or an envelope is read, and never both. -/
theorem parse_eq_error_iff : (∃ detail, parse bytes = .error (.malformedEnvelope detail)) ↔ Malformed bytes := by
  refine ⟨?_, parse_of_malformed⟩
  rintro ⟨detail, failed⟩
  apply Classical.byContradiction
  intro wellFormed
  obtain ⟨e, read⟩ := parse_of_not_malformed wellFormed
  rw [read] at failed
  cases failed

theorem parse_eq_ok_iff : (∃ e, parse bytes = .ok e) ↔ ¬ Malformed bytes := by
  refine ⟨?_, parse_of_not_malformed⟩
  rintro ⟨e, read⟩ malformed
  obtain ⟨detail, failed⟩ := parse_of_malformed malformed
  rw [read] at failed
  cases failed

/-- **Which bytes are no envelope.** Bytes without a brace can be put before bytes that begin with one,
and both are read as the same envelope or both are malformed. Any bytes are read unless they show
something that has no brace or is not one JSON text from the first brace on; that text is an object
whenever it is read, and whatever its members are, the envelope takes what they give. -/
theorem parse_exact (bytes junk rest : Bytes) (absent : brace ∉ junk) :
    ((∃ e, parse (junk ++ brace :: rest) = .ok e ∧ parse (brace :: rest) = .ok e) ∨
      ∃ detail, parse (junk ++ brace :: rest) = .error (.malformedEnvelope detail) ∧
        parse (brace :: rest) = .error (.malformedEnvelope detail)) ∧
    ((∃ detail, parse bytes = .error (.malformedEnvelope detail)) ↔ Malformed bytes) ∧
    ((∃ e, parse bytes = .ok e) ↔ ¬ Malformed bytes) ∧
    (Blank bytes → parse bytes = .ok {}) ∧
    ∀ object, Opens bytes (some object) →
      (∃ members, object = .object members) ∧ ∃ e, parse bytes = .ok e ∧ e.Takes object := by
  refine ⟨?_, parse_eq_error_iff, parse_eq_ok_iff, parse_of_blank, ?_⟩
  · rw [parse_junk absent]
    by_cases malformed : Malformed (brace :: rest)
    · obtain ⟨detail, failed⟩ := parse_of_malformed malformed
      exact .inr ⟨detail, failed, failed⟩
    · obtain ⟨e, read⟩ := parse_of_not_malformed malformed
      exact .inl ⟨e, read, read⟩
  · intro object opens
    exact ⟨isObject_of_opens opens, _, parse_of_opens opens, takes_ofJson object⟩

/-- The members of the object after a cut character: a timestamp that is no string, and a value. -/
def cutMembers : List Char := "\"modified\":7,\"value\":\"QQ==\"\x7d".toList

/-- Two bytes of a character of three are read past, and the value is taken without a timestamp. A blank
and a line feed are an empty envelope. -/
theorem parse_exact_of_cut_character :
    brace ∉ ([0xE2, 0x82] : Bytes) ∧
      ∃ e, parse ([0xE2, 0x82] ++ brace :: Utf8.encodeChars cutMembers) = .ok e ∧
        parse (brace :: Utf8.encodeChars cutMembers) = .ok e ∧ e.value = [0x41] ∧ e.modified = none ∧
        parse (Utf8.encodeChars [' ', '\n']) = .ok {} := by
  have absent : brace ∉ ([0xE2, 0x82] : Bytes) := by decide
  obtain ⟨together, -, -, -, taken⟩ :=
    parse_exact ([0xE2, 0x82] ++ brace :: Utf8.encodeChars cutMembers) [0xE2, 0x82] (Utf8.encodeChars cutMembers)
      absent
  have members : (Json.parse? (Utf8.encodeChars ('\x7b' :: cutMembers))).map (fun object =>
      ((object.member? "value").bind Json.text?, (object.member? "modified").bind Json.text?)) =
      some (some "QQ==", none) := by decide +kernel
  obtain ⟨object, read, here⟩ := Option.map_eq_some_iff.1 members
  obtain ⟨value, modified⟩ := Prod.mk.inj here
  obtain ⟨-, e, parsed, takes⟩ := taken object (read ▸ opens_append absent cutMembers)
  have white : Blank (Utf8.encodeChars [' ', '\n']) := by
    rw [Blank, shown, Utf8.toList_decodeLossy_encodeChars]
    simp only [List.forall_mem_cons]
    exact ⟨by decide, by decide, nofun⟩
  obtain ⟨-, -, -, blank, -⟩ := parse_exact (Utf8.encodeChars [' ', '\n']) [] [] List.not_mem_nil
  refine ⟨absent, e, parsed, ?_, ?_, ?_, blank white⟩
  · rcases together with ⟨e', first, second⟩ | ⟨detail, first, -⟩
    · rw [parsed] at first
      rw [second, first]
    · rw [parsed] at first
      cases first
  · exact takes.value "QQ==" [0x41] (text_eq_some_iff.1 value) (by decide +kernel)
  · cases h : e.modified with
    | none => rfl
    | some t =>
      obtain ⟨s, member, -⟩ := (takes.modified t).1 h
      rw [text_eq_some_iff.2 member] at modified
      cases modified

end Envelope
end CertWatch
