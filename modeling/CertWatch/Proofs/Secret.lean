import CertWatch.Proofs.Base64
import CertWatch.Proofs.Text.Blank
import CertWatch.Sealing

/-!
# Which secrets are keys

A secret is read in two ways. If its own bytes are as many as those of a key they are the key, and they
are nothing else even where they are base64. Any other secret has to be the base64 of a key, apart from
white space around it. A key has one text of each kind, and no text is of both kinds.
-/

namespace CertWatch.SealKey
set_option autoImplicit false

variable {s s' : String} {k k' : SealKey}

/-- A secret stands for a key. -/
inductive Spells (s : String) (k : SealKey) : Prop where
  /-- Its bytes are the key. -/
  | plain (same : Utf8.encode s = k.bytes)
  /-- Its bytes are no key, and it is the base64 of the key with white space around it. -/
  | base64 (other : (Utf8.encode s).length ≠ keyLength) (text : Text.trim s = Base64.encode k.bytes)

theorem ofBytes?_eq_some_iff {bytes : Bytes} : ofBytes? bytes = some k ↔ bytes = k.bytes := by
  unfold ofBytes?
  split
  case isTrue enough =>
    constructor
    · rintro ⟨⟩
      rfl
    · rintro rfl
      rfl
  case isFalse short =>
    constructor
    · exact nofun
    · rintro rfl
      exact absurd k.length_bytes short

theorem ofBytes?_eq_none_iff {bytes : Bytes} : ofBytes? bytes = none ↔ bytes.length ≠ keyLength := by
  unfold ofBytes?
  split <;> simp [*]

/-! ## The base64 of a key -/

theorem length_le_length_encodeChars (cs : List Char) : cs.length ≤ (Utf8.encodeChars cs).length := by
  induction cs with
  | nil => exact Nat.le_refl _
  | cons c cs ih =>
    have one : 0 < (String.utf8EncodeChar c).length := by
      rw [String.length_utf8EncodeChar]
      exact c.utf8Size_pos
    rw [Utf8.encodeChars_cons, List.length_append, List.length_cons]
    omega

/-- It is longer than the key, whatever stands around it. -/
theorem length_surrounded_ne (k : SealKey) (front back : List Char) :
    (Utf8.encode (String.ofList (front ++ Base64.encodeChars k.bytes ++ back))).length ≠ keyLength := by
  have least := length_le_length_encodeChars (front ++ Base64.encodeChars k.bytes ++ back)
  have text : (Base64.encodeChars k.bytes).length = 44 := by
    rw [Base64.length_encodeChars, k.length_bytes]
    rfl
  simp only [List.length_append, text] at least
  rw [Utf8.encode, String.toList_ofList, keyLength]
  omega

theorem not_blank_of_mem_encodeChars {bytes : Bytes} {c : Char} (among : c ∈ Base64.encodeChars bytes) :
    Text.isBlank c = false := by
  have digits : ∀ n < 64, Text.isBlank (Base64.digit n) = false := by decide
  rcases Base64.digit_or_padding bytes c among with ⟨n, six, rfl⟩ | rfl
  · exact digits n six
  · rfl

/-- White space around the base64 of a key does not matter. -/
theorem spells_surrounded (k : SealKey) {front back : List Char} (before : ∀ c ∈ front, Text.isBlank c = true)
    (after : ∀ c ∈ back, Text.isBlank c = true) :
    Spells (String.ofList (front ++ (Base64.encode k.bytes).toList ++ back)) k := by
  rw [Base64.encode, String.toList_ofList]
  exact .base64 (length_surrounded_ne k front back)
    (Text.trim_surrounded before after fun _ => not_blank_of_mem_encodeChars)

/-! ## What is read -/

theorem Spells.ofSecret (h : Spells s k) : ofSecret s = .ok k := by
  cases h with
  | plain same => simp only [SealKey.ofSecret, ofBytes?_eq_some_iff.2 same]
  | base64 other text =>
    have key : ofBytes? k.bytes = some k := ofBytes?_eq_some_iff.2 rfl
    simp only [SealKey.ofSecret, ofBytes?_eq_none_iff.2 other, Base64.decode?_eq_some_iff.2 text, key]

/-- A secret stands for a key or is refused as a setting. -/
theorem spells_or_refused (s : String) :
    (∃ k, Spells s k) ∨ ∃ detail, ofSecret s = .error (.validation detail) := by
  cases raw : ofBytes? (Utf8.encode s) with
  | some k => exact .inl ⟨k, .plain (ofBytes?_eq_some_iff.1 raw)⟩
  | none =>
    cases read : Base64.decode? (Text.trim s) with
    | none =>
      refine .inr ?_
      simp only [ofSecret, raw, read]
      exact ⟨_, rfl⟩
    | some decoded =>
      cases bytes : ofBytes? decoded with
      | some k =>
        obtain rfl := ofBytes?_eq_some_iff.1 bytes
        exact .inl ⟨k, .base64 (ofBytes?_eq_none_iff.1 raw) (Base64.decode?_eq_some_iff.1 read)⟩
      | none =>
        refine .inr ?_
        simp only [ofSecret, raw, read, bytes]
        exact ⟨_, rfl⟩

theorem ofSecret_eq_ok_iff : ofSecret s = .ok k ↔ Spells s k := by
  refine ⟨fun read => ?_, Spells.ofSecret⟩
  rcases spells_or_refused s with ⟨k', spells⟩ | ⟨detail, refused⟩
  · rw [spells.ofSecret] at read
    cases read
    exact spells
  · rw [refused] at read
    cases read

theorem Spells.unique (h : Spells s k) (h' : Spells s k') : k = k' := by
  have read := h.ofSecret
  rw [h'.ofSecret] at read
  cases read
  rfl

/-- Of two secrets for one key without white space around them, one is its bytes and the other is its
base64. -/
theorem Spells.plain_and_base64 (h : Spells s k) (h' : Spells s' k) (bare : Text.trim s = s)
    (bare' : Text.trim s' = s') (different : s ≠ s') :
    Utf8.encode s = k.bytes ∧ s' = Base64.encode k.bytes ∨
      s = Base64.encode k.bytes ∧ Utf8.encode s' = k.bytes := by
  cases h with
  | plain same =>
    cases h' with
    | plain same' => exact absurd (Utf8.encode_inj (same.trans same'.symm)) different
    | base64 other text => exact .inl ⟨same, bare' ▸ text⟩
  | base64 other text =>
    cases h' with
    | plain same' => exact .inr ⟨bare ▸ text, same'⟩
    | base64 other' text' =>
      exact absurd ((bare.symm.trans text).trans (text'.symm.trans bare')) different

/-- **Which secrets are keys.** A secret is read as a key exactly if it stands for it, and is refused as a
setting if it stands for none. The base64 of a key stands for it with any white space around it. No secret
stands for two keys; and two secrets without white space around them that stand for one key are the same,
or one of them is the bytes of the key and the other is its base64. -/
theorem ofSecret_exact (s : String) (k : SealKey) :
    (ofSecret s = .ok k ↔ Spells s k) ∧
    ((∀ k', ¬ Spells s k') → ∃ detail, ofSecret s = .error (.validation detail)) ∧
    (∀ front back : List Char, (∀ c ∈ front, Text.isBlank c = true) → (∀ c ∈ back, Text.isBlank c = true) →
      ofSecret (String.ofList (front ++ (Base64.encode k.bytes).toList ++ back)) = .ok k ∧
        ofSecret (Base64.encode k.bytes) = .ok k) ∧
    (∀ k', Spells s k → Spells s k' → k = k') ∧
    ∀ s', Text.trim s = s → Text.trim s' = s' → s ≠ s' → ofSecret s = .ok k → ofSecret s' = .ok k →
      Utf8.encode s = k.bytes ∧ s' = Base64.encode k.bytes ∨
        s = Base64.encode k.bytes ∧ Utf8.encode s' = k.bytes := by
  refine ⟨ofSecret_eq_ok_iff, fun none => ?_, fun front back before after => ?_, fun k' => Spells.unique, ?_⟩
  · rcases spells_or_refused s with ⟨k', spells⟩ | refused
    · exact absurd spells (none k')
    · exact refused
  · have alone := spells_surrounded k (List.forall_mem_nil _) (List.forall_mem_nil _)
    rw [List.nil_append, List.append_nil, String.ofList_toList] at alone
    exact ⟨(spells_surrounded k before after).ofSecret, alone.ofSecret⟩
  · intro s' bare bare' different read read'
    exact (ofSecret_eq_ok_iff.1 read).plain_and_base64 (ofSecret_eq_ok_iff.1 read') bare bare' different

/-- The key whose bytes are the letters `a` to `p`, twice. -/
def letters : SealKey := ⟨Utf8.encode "abcdefghijklmnopabcdefghijklmnop", by decide⟩

/-- The letters themselves are a secret for this key, and so is their base64 after a tab and before an
ideographic space. No other text without white space around it is one. -/
theorem ofSecret_exact_of_letters :
    ofSecret "abcdefghijklmnopabcdefghijklmnop" = .ok letters ∧
      ofSecret "\tYWJjZGVmZ2hpamtsbW5vcGFiY2RlZmdoaWprbG1ub3A=\u3000" = .ok letters ∧
      ∀ s, Text.trim s = s → s ≠ "abcdefghijklmnopabcdefghijklmnop" → ofSecret s = .ok letters →
        s = "YWJjZGVmZ2hpamtsbW5vcGFiY2RlZmdoaWprbG1ub3A=" := by
  have bare : Text.trim "abcdefghijklmnopabcdefghijklmnop" = "abcdefghijklmnopabcdefghijklmnop" := by decide +kernel
  have text : Base64.encode letters.bytes = "YWJjZGVmZ2hpamtsbW5vcGFiY2RlZmdoaWprbG1ub3A=" := by decide +kernel
  obtain ⟨accepted, -, surrounded, -, others⟩ := ofSecret_exact "abcdefghijklmnopabcdefghijklmnop" letters
  have plain := accepted.2 (.plain rfl)
  have tab : ∀ c ∈ ['\t'], Text.isBlank c = true := List.forall_mem_singleton.2 rfl
  have space : ∀ c ∈ ['\u3000'], Text.isBlank c = true := List.forall_mem_singleton.2 rfl
  have white := (surrounded _ _ tab space).1
  rw [text] at white
  refine ⟨plain, white, fun s bare' different read => ?_⟩
  rcases others s bare bare' (Ne.symm different) plain read with ⟨-, base64⟩ | ⟨same, -⟩
  · rw [base64, text]
  · rw [text] at same
    exact absurd same (by decide)

end CertWatch.SealKey
