import CertWatch.Envelope
import CertWatch.Proofs.Text.Lossy

/-!
# What is read of an envelope

Bytes before the first brace do not matter to what an envelope is read as, and of the rest only the
members that it is parsed into do.
-/

namespace CertWatch.Envelope
set_option autoImplicit false

/-- The byte of an opening brace. -/
def brace : UInt8 := 0x7B

theorem decodeLossy_brace (junk after : Bytes) :
    (Utf8.decodeLossy (junk ++ brace :: after)).toList =
      (Utf8.decodeLossy junk).toList ++ '\x7b' :: (Utf8.decodeLossy after).toList := by
  have ascii : brace.toNat < 0x80 := by decide
  simp only [Utf8.decodeLossy, String.toList_ofList, Utf8.pieces_append ascii,
    Utf8.pieces_cons_ascii ascii, List.map_append, List.map_cons, Option.getD_some]
  rfl

/-- Without the byte of a brace there is no brace in a text. -/
theorem brace_not_mem_decodeLossy {junk : Bytes} (absent : brace ∉ junk) :
    '\x7b' ∉ (Utf8.decodeLossy junk).toList := by
  rw [Utf8.decodeLossy, String.toList_ofList, List.mem_map]
  rintro ⟨piece, among, same⟩
  cases piece with
  | none => exact absurd same (by decide)
  | some c =>
    obtain rfl : c = '\x7b' := same
    have read : '\x7b' = Char.ofNat brace.toNat := by decide
    rw [read] at among
    exact absent (Utf8.mem_of_mem_pieces (by decide) (by decide) among)

theorem fromBrace_append {junk rest : List Char} (absent : '\x7b' ∉ junk) :
    fromBrace (junk ++ '\x7b' :: rest) = '\x7b' :: rest := by
  rw [fromBrace, List.dropWhile_append_of_pos]
  · simp
  · intro c among
    have other : c ≠ '\x7b' := fun same => absent (same ▸ among)
    simpa using other

/-- What bytes are read as depends on their text from its first brace. -/
theorem parse_of_brace {bytes : Bytes} {before after : List Char}
    (text : (Utf8.decodeLossy bytes).toList = before ++ '\x7b' :: after) (first : '\x7b' ∉ before) :
    parse bytes =
      match Json.parse? (Utf8.encodeChars ('\x7b' :: after)) with
      | some object => .ok (ofJson object)
      | none => .error (.malformedEnvelope "the text from the first brace is not JSON") := by
  have visible : (before ++ '\x7b' :: after).all Text.isBlank = false := by
    have dark : Text.isBlank '\x7b' = false := by decide
    rw [List.all_append, List.all_cons, dark, Bool.false_and, Bool.and_false]
  simp only [parse, text, visible, fromBrace_append first]
  rfl

theorem parse_append_brace {junk : Bytes} (absent : brace ∉ junk) (after : Bytes) :
    parse (junk ++ brace :: after) =
      match Json.parse? (Utf8.encodeChars ('\x7b' :: (Utf8.decodeLossy after).toList)) with
      | some object => .ok (ofJson object)
      | none => .error (.malformedEnvelope "the text from the first brace is not JSON") :=
  parse_of_brace (decodeLossy_brace junk after) (brace_not_mem_decodeLossy absent)

theorem parse_append_encodeChars {junk : Bytes} (absent : brace ∉ junk) (cs : List Char) :
    parse (junk ++ Utf8.encodeChars ('\x7b' :: cs)) =
      match Json.parse? (Utf8.encodeChars ('\x7b' :: cs)) with
      | some object => .ok (ofJson object)
      | none => .error (.malformedEnvelope "the text from the first brace is not JSON") := by
  have first : Utf8.encodeChars ('\x7b' :: cs) = brace :: Utf8.encodeChars cs := rfl
  rw [first, parse_append_brace absent, Utf8.toList_decodeLossy_encodeChars]
  rfl

/-- **Junk.** Bytes before the first brace do not matter. -/
theorem parse_junk {junk : Bytes} (absent : brace ∉ junk) (after : Bytes) :
    parse (junk ++ brace :: after) = parse (brace :: after) := by
  rw [parse_append_brace absent, ← List.nil_append (brace :: after),
    parse_append_brace (List.not_mem_nil)]

/-- Bytes that hold an envelope: anything without a brace, and then a JSON object with the members of
the envelope, however it is written. -/
def Holds (e : Envelope) (payload : Bytes) : Prop :=
  ∃ (junk : Bytes) (cs : List Char), brace ∉ junk ∧
    payload = junk ++ Utf8.encodeChars ('\x7b' :: cs) ∧
    (Json.parse? (Utf8.encodeChars ('\x7b' :: cs))).map ofJson = some e

theorem Holds.parseOrEmpty {e : Envelope} {payload : Bytes} (h : Holds e payload) :
    parseOrEmpty payload = e := by
  obtain ⟨junk, cs, absent, rfl, spelled⟩ := h
  obtain ⟨object, read, rfl⟩ := Option.map_eq_some_iff.1 spelled
  rw [Envelope.parseOrEmpty, parse_append_encodeChars absent, read]

end CertWatch.Envelope
