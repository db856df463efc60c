import Mathlib.Tactic.IntervalCases
import CertWatch.Json.Record
import CertWatch.Proofs.Text.Utf8

/-!
# Quoted strings are read back

A quoted string is a quote, the escaped characters and a quote again. Reading it gives the text, and
passing over it ends at the same place, whatever follows.
-/

namespace CertWatch.Json
set_option autoImplicit false

section Characters

variable {c : Char}

/-- Whether a character is written with a backslash. -/
def IsEscaped (c : Char) : Prop := c.toNat < 0x20 ∨ c = '"' ∨ c = '\\'

instance (c : Char) : Decidable (IsEscaped c) := inferInstanceAs (Decidable (_ ∨ _ ∨ _))

/-- What is written after the backslash. -/
def escapeTail (c : Char) : List Char := (escapeChar c).tail

/-- A fact about all characters that are written with a backslash needs a look at each of them. -/
theorem forall_escaped {P : Char → Prop} (control : ∀ n < 0x20, P (Char.ofNat n)) (quote : P '"')
    (backslash : P '\\') (h : IsEscaped c) : P c := by
  rcases h with low | rfl | rfl
  · exact c.ofNat_toNat ▸ control c.toNat low
  · exact quote
  · exact backslash

theorem escapeChar_of_escaped (h : IsEscaped c) : escapeChar c = '\\' :: escapeTail c := by
  refine forall_escaped (P := fun c => escapeChar c = '\\' :: escapeTail c) ?_ rfl rfl h
  decide

theorem escapeChar_of_not_escaped (h : ¬ IsEscaped c) : escapeChar c = [c] := by
  simp only [IsEscaped, not_or, Nat.not_lt] at h
  obtain ⟨printable, notQuote, notBackslash⟩ := h
  have not_control : ∀ d : Char, d.toNat < 0x20 → c ≠ d := by
    rintro d low rfl
    omega
  unfold escapeChar
  rw [if_neg notQuote, if_neg notBackslash, if_neg (not_control _ (by decide)),
    if_neg (not_control _ (by decide)), if_neg (not_control _ (by decide)),
    if_neg (not_control _ (by decide)), if_neg (not_control _ (by decide)), if_neg (by omega)]

/-- Reading an escape gives the bytes of its character. -/
theorem escape_escapeTail (h : IsEscaped c) (rest : Bytes) :
    escape (Utf8.encodeChars (escapeTail c) ++ rest) = some (String.utf8EncodeChar c, rest) := by
  refine forall_escaped (P := fun c => ∀ rest,
    escape (Utf8.encodeChars (escapeTail c) ++ rest) = some (String.utf8EncodeChar c, rest))
    ?_ (fun _ => rfl) (fun _ => rfl) h rest
  intro n low
  interval_cases n <;> exact fun _ => rfl

/-- Passing over an escape ends after it. -/
theorem escapeExtent_escapeTail (h : IsEscaped c) (rest : Bytes) :
    escapeExtent (Utf8.encodeChars (escapeTail c) ++ rest) = some ([], rest) := by
  refine forall_escaped (P := fun c => ∀ rest,
    escapeExtent (Utf8.encodeChars (escapeTail c) ++ rest) = some ([], rest))
    ?_ (fun _ => rfl) (fun _ => rfl) h rest
  intro n low
  interval_cases n <;> exact fun _ => rfl

/-- A byte that stands for itself inside a string. -/
def IsPlain (b : UInt8) : Prop := b ≠ 0x22 ∧ b ≠ 0x5C ∧ ¬ b < 0x20

theorem isPlain_of_toNat {b : UInt8} (h : 0x20 ≤ b.toNat) (quote : b.toNat ≠ 0x22)
    (backslash : b.toNat ≠ 0x5C) : IsPlain b := by
  refine ⟨fun same => quote ?_, fun same => backslash ?_, fun low => ?_⟩
  · rw [same]; rfl
  · rw [same]; rfl
  · rw [UInt8.lt_iff_toNat_lt] at low
    have bound : (0x20 : UInt8).toNat = 0x20 := rfl
    omega

theorem isPlain_of_mem_utf8EncodeChar (h : ¬ IsEscaped c) : ∀ b ∈ String.utf8EncodeChar c, IsPlain b := by
  simp only [IsEscaped, not_or, Nat.not_lt] at h
  obtain ⟨printable, notQuote, notBackslash⟩ := h
  have quote : c.val.toNat ≠ 0x22 := fun same => notQuote (Char.toNat_inj.1 same)
  have backslash : c.val.toNat ≠ 0x5C := fun same => notBackslash (Char.toNat_inj.1 same)
  change 0x20 ≤ c.val.toNat at printable
  intro b hb
  unfold String.utf8EncodeChar at hb
  generalize c.val.toNat = v at printable quote backslash hb
  have high : ∀ n, 0x80 ≤ n → n < 256 → b = UInt8.ofNat n → IsPlain b := by
    rintro n low most rfl
    have same := Utf8.toNat_ofNat most
    exact isPlain_of_toNat (by omega) (by omega) (by omega)
  dsimp only at hb
  split at hb
  · obtain rfl := List.mem_singleton.1 hb
    have same : (UInt8.ofNat v).toNat = v := Utf8.toNat_ofNat (by omega)
    exact isPlain_of_toNat (by omega) (by omega) (by omega)
  · split at hb
    · simp only [List.mem_cons, List.not_mem_nil, or_false] at hb
      rcases hb with hb | hb <;> exact high _ (by omega) (by omega) hb
    · split at hb
      · simp only [List.mem_cons, List.not_mem_nil, or_false] at hb
        rcases hb with hb | hb | hb <;> exact high _ (by omega) (by omega) hb
      · simp only [List.mem_cons, List.not_mem_nil, or_false] at hb
        rcases hb with hb | hb | hb | hb <;> exact high _ (by omega) (by omega) hb

end Characters

section Body

variable {esc : Scan Bytes}

theorem quotedBody_quote (fuel : Nat) (done rest : Bytes) :
    quotedBody esc (fuel + 1) done (0x22 :: rest) = some (done.reverse, rest) := by
  simp [quotedBody]

theorem quotedBody_escape {bs rest out : Bytes} (read : esc bs = some (out, rest)) (fuel : Nat) (done : Bytes) :
    quotedBody esc (fuel + 1) done (0x5C :: bs) = quotedBody esc fuel (out.reverse ++ done) rest := by
  simp [quotedBody, read]

/-- Plain bytes are taken over one by one. -/
theorem quotedBody_plain {bs : Bytes} (plain : ∀ b ∈ bs, IsPlain b) (fuel : Nat) (done rest : Bytes) :
    quotedBody esc (bs.length + fuel) done (bs ++ rest) = quotedBody esc fuel (bs.reverse ++ done) rest := by
  induction bs generalizing done with
  | nil => rw [List.length_nil, Nat.zero_add]; rfl
  | cons b bs ih =>
    obtain ⟨notQuote, notBackslash, notControl⟩ := plain b List.mem_cons_self
    have more : (b :: bs).length + fuel = (bs.length + fuel) + 1 := by
      simp only [List.length_cons]; omega
    rw [more, List.cons_append, quotedBody, if_neg notQuote, if_neg notBackslash, if_neg notControl,
      ih (fun b' hb' => plain b' (List.mem_cons_of_mem b hb'))]
    simp

/-- The inside of a quoted string: `out` says what the reader of escapes gives for a character. -/
theorem quotedBody_escaped {out : Char → Bytes}
    (read : ∀ c, IsEscaped c → ∀ rest, esc (Utf8.encodeChars (escapeTail c) ++ rest) = some (out c, rest))
    (plain : ∀ c, ¬ IsEscaped c → out c = String.utf8EncodeChar c) (cs : List Char) {fuel : Nat}
    (done rest : Bytes) (enough : (Utf8.encodeChars (cs.flatMap escapeChar)).length < fuel) :
    quotedBody esc fuel done (Utf8.encodeChars (cs.flatMap escapeChar) ++ 0x22 :: rest) =
      some (done.reverse ++ cs.flatMap out, rest) := by
  induction cs generalizing fuel done with
  | nil =>
    obtain ⟨fuel, rfl⟩ := Nat.exists_eq_succ_of_ne_zero (Nat.ne_zero_of_lt enough)
    have nothing : Utf8.encodeChars (([] : List Char).flatMap escapeChar) = [] := rfl
    rw [nothing, List.nil_append, quotedBody_quote]
    simp
  | cons c cs ih =>
    rw [List.flatMap_cons, Utf8.encodeChars_append] at enough ⊢
    rw [List.length_append] at enough
    rw [List.append_assoc]
    by_cases escaped : IsEscaped c
    · rw [escapeChar_of_escaped escaped] at enough ⊢
      have backslash : Utf8.encodeChars ('\\' :: escapeTail c) = 0x5C :: Utf8.encodeChars (escapeTail c) := by
        rw [Utf8.encodeChars_cons]; rfl
      rw [backslash, List.length_cons] at enough
      obtain ⟨fuel, rfl⟩ := Nat.exists_eq_succ_of_ne_zero (by omega : fuel ≠ 0)
      rw [backslash, List.cons_append, quotedBody_escape (read c escaped _), ih _ (by omega)]
      simp
    · rw [escapeChar_of_not_escaped escaped] at enough ⊢
      have single : Utf8.encodeChars [c] = String.utf8EncodeChar c := by
        rw [Utf8.encodeChars_cons]; simp [Utf8.encodeChars]
      rw [single] at enough ⊢
      obtain ⟨more, rfl⟩ := Nat.exists_eq_add_of_le (by omega : (String.utf8EncodeChar c).length ≤ fuel)
      rw [quotedBody_plain (isPlain_of_mem_utf8EncodeChar escaped), ih _ (by omega)]
      simp [plain c escaped]

end Body

/-- The bytes of a quoted string: the quote, the inside and the quote. -/
theorem encodeChars_quote (s : String) (rest : Bytes) :
    Utf8.encodeChars (quote s) ++ rest =
      0x22 :: (Utf8.encodeChars (s.toList.flatMap escapeChar) ++ 0x22 :: rest) := by
  have mark : String.utf8EncodeChar '"' = [0x22] := rfl
  have last : Utf8.encodeChars ['"'] = [0x22] := rfl
  rw [quote, List.cons_append, Utf8.encodeChars_cons, Utf8.encodeChars_append, mark, last]
  simp

/-- **A quoted string is read back.** -/
theorem quoted_quote (s : String) (rest : Bytes) :
    quoted (Utf8.encodeChars (quote s) ++ rest) = some (s, rest) := by
  rw [encodeChars_quote, quoted]
  rw [quotedBody_escaped (fun c escaped rest => escape_escapeTail escaped rest) (fun _ _ => rfl) s.toList []
    rest (by simp only [List.length_append, List.length_cons]; omega)]
  have text : Utf8.decode? (s.toList.flatMap String.utf8EncodeChar) = some s := Utf8.decode?_encode s
  simp [text]

/-- Passing over a quoted string ends after it. -/
theorem quotedExtent_quote (s : String) (rest : Bytes) :
    quotedExtent (Utf8.encodeChars (quote s) ++ rest) = some ((), rest) := by
  let out (c : Char) : Bytes := if IsEscaped c then [] else String.utf8EncodeChar c
  let bs := Utf8.encodeChars (s.toList.flatMap escapeChar) ++ 0x22 :: rest
  have body : quotedBody escapeExtent (bs.length + 1) [] bs = some ([] ++ s.toList.flatMap out, rest) := by
    refine quotedBody_escaped ?_ (fun c escaped => if_neg escaped) s.toList [] rest ?_
    · intro c escaped rest
      simpa only [out, if_pos escaped] using escapeExtent_escapeTail escaped rest
    · simp only [bs, List.length_append, List.length_cons]
      omega
  rw [encodeChars_quote, quotedExtent, body]
  rfl

end CertWatch.Json
