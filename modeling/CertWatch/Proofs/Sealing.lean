import CertWatch.Sealing

/-!
# What is sealed is opened again

The key stream depends on the key and the nonce only and is as long as the text, so enciphering twice
gives the text back; and the tag of a ciphertext is recomputed from the same bytes. Neither rests on
what the block cipher computes, only on how long its blocks are.
-/

namespace CertWatch
set_option autoImplicit false

namespace Bytes

/-- A pad that is long enough cancels itself. -/
theorem xor_xor_cancel {text pad : Bytes} (enough : text.length ≤ pad.length) :
    xor (xor text pad) pad = text := by
  induction text generalizing pad with
  | nil => rfl
  | cons b rest ih =>
    cases pad with
    | nil => cases enough
    | cons p pad =>
      have tail := ih (Nat.le_of_succ_le_succ enough)
      show (b ^^^ p ^^^ p) :: xor (xor rest pad) pad = b :: rest
      rw [tail, UInt8.xor_assoc, UInt8.xor_self, UInt8.xor_zero]

/-- Bytes that are cut evenly give pieces of one length. -/
theorem chunks_even {n count : Nat} {bs : Bytes} (even : bs.length = (n + 1) * count) :
    (chunks n bs).length = count ∧ ∀ piece ∈ chunks n bs, piece.length = n + 1 := by
  induction count generalizing bs with
  | zero =>
    obtain rfl := List.eq_nil_of_length_eq_zero even
    rw [chunks]
    exact ⟨rfl, by simp⟩
  | succ count ih =>
    rw [Nat.mul_succ] at even
    cases bs with
    | nil => simp at even
    | cons b rest =>
      rw [List.length_cons] at even
      have evenRest : (rest.drop n).length = (n + 1) * count := by
        rw [List.length_drop]
        omega
      obtain ⟨length, pieces⟩ := ih evenRest
      rw [chunks]
      refine ⟨by rw [List.length_cons, length], List.forall_mem_cons.2 ⟨?_, pieces⟩⟩
      rw [List.length_take, List.length_cons]
      omega

end Bytes

namespace Aes

/-- A word is four bytes. -/
def Words (ws : List Bytes) : Prop := ∀ w ∈ ws, w.length = 4

theorem Words.length_getD {ws : List Bytes} (h : Words ws) {i : Nat} (inside : i < ws.length) :
    (ws.getD i []).length = 4 := by
  rw [List.getD_eq_getElem?_getD, List.getElem?_eq_getElem inside]
  exact h _ (List.getElem_mem inside)

theorem Words.length_flatten {ws : List Bytes} (h : Words ws) : ws.flatten.length = 4 * ws.length := by
  induction ws with
  | nil => rfl
  | cons w rest ih =>
    obtain ⟨first, more⟩ := List.forall_mem_cons.1 h
    rw [List.flatten_cons, List.length_append, ih more, first, List.length_cons]
    omega

/-- The key schedule makes words of words. -/
theorem words_expandFrom (n i : Nat) (rcon : UInt8) {window : List Bytes} (eight : window.length = 8)
    (words : Words window) :
    (expandFrom n i rcon window).length = n ∧ Words (expandFrom n i rcon window) := by
  induction n generalizing i rcon window with
  | zero => exact ⟨rfl, by simp [Words, expandFrom]⟩
  | succ n ih =>
    have first : (window.getD 0 []).length = 4 := words.length_getD (by omega)
    have last : (window.getD 7 []).length = 4 := words.length_getD (by omega)
    rw [expandFrom]
    generalize hw : Bytes.xor (window.getD 0 []) _ = word
    have four : word.length = 4 := by
      rw [← hw, Bytes.length_xor, first]
      split
      · split
        case h_1 none =>
          have := congrArg List.length none
          simp only [List.length_map, List.length_append, List.length_drop, List.length_take, last,
            List.length_nil] at this
          omega
        case h_2 b rest some =>
          have := congrArg List.length some
          simp only [List.length_map, List.length_append, List.length_drop, List.length_take, last,
            List.length_cons] at this
          rw [List.length_cons]
          omega
      · split
        · rw [List.length_map, last, Nat.min_self]
        · rw [last, Nat.min_self]
    have next : Words (window.drop 1 ++ [word]) := by
      intro w hw
      rcases List.mem_append.1 hw with hw | hw
      · exact words w (List.mem_of_mem_drop hw)
      · rw [List.mem_singleton.1 hw, four]
    obtain ⟨length, more⟩ := ih (i + 1) (if i % 8 = 0 then double rcon else rcon)
      (by rw [List.length_append, List.length_drop, List.length_singleton]; omega) next
    exact ⟨by rw [List.length_cons, length], List.forall_mem_cons.2 ⟨four, more⟩⟩

/-- A key has fifteen round keys of one block. -/
theorem roundKeys_spec {key : Bytes} (length : key.length = 32) :
    (roundKeys key).length = 15 ∧ ∀ k ∈ roundKeys key, k.length = 16 := by
  obtain ⟨eight, words⟩ := @Bytes.chunks_even 3 8 key length
  obtain ⟨more, others⟩ := words_expandFrom 52 8 1 eight words
  have all : Words (Bytes.chunks 3 key ++ expandFrom 52 8 1 (Bytes.chunks 3 key)) :=
    List.forall_mem_append.2 ⟨words, others⟩
  apply Bytes.chunks_even
  rw [all.length_flatten, List.length_append, eight, more]

/-- A block is enciphered to a block. -/
theorem length_encipher {key : Bytes} (length : key.length = 32) (block : Bytes) :
    (encipher (roundKeys key) block).length = 16 := by
  obtain ⟨fifteen, blocks⟩ := roundKeys_spec length
  have last : ((roundKeys key).getD 14 []).length = 16 := by
    rw [List.getD_eq_getElem?_getD, List.getElem?_eq_getElem (by omega)]
    exact blocks _ (List.getElem_mem _)
  rw [encipher, Bytes.length_xor, last]
  rfl

end Aes

namespace Gcm

variable {key : Bytes}

theorem length_stream (length : key.length = 32) (iv : Bytes) (blocks n : Nat) :
    (stream (Aes.roundKeys key) iv blocks n).length = 16 * blocks := by
  induction blocks generalizing n with
  | zero => rfl
  | succ blocks ih =>
    rw [stream, List.length_append, Aes.length_encipher length, ih]
    omega

theorem length_le_stream (length : key.length = 32) (iv text : Bytes) :
    text.length ≤ (stream (Aes.roundKeys key) iv ((text.length + 15) / 16) 2).length := by
  rw [length_stream length]
  omega

theorem length_crypt (length : key.length = 32) (iv text : Bytes) :
    (crypt (Aes.roundKeys key) iv text).length = text.length := by
  have enough := length_le_stream length iv text
  rw [crypt, Bytes.length_xor]
  omega

/-- Enciphering twice gives the text back. -/
theorem crypt_crypt (length : key.length = 32) (iv text : Bytes) :
    crypt (Aes.roundKeys key) iv (crypt (Aes.roundKeys key) iv text) = text := by
  have same := length_crypt length iv text
  rw [crypt, same, crypt, Bytes.xor_xor_cancel (length_le_stream length iv text)]

theorem length_tag (length : key.length = 32) (iv cipher : Bytes) :
    (tag (Aes.roundKeys key) iv cipher).length = 16 := by
  rw [tag, Bytes.length_xor, Bytes.length_bigEndian, Aes.length_encipher length, Nat.min_self]

theorem decrypt?_encrypt (length : key.length = 32) (iv plain : Bytes) :
    decrypt? key iv (encrypt key iv plain) = some plain := by
  have sixteen := length_tag length iv (crypt (Aes.roundKeys key) iv plain)
  rw [encrypt, decrypt?, List.length_append, sixteen, Nat.add_sub_cancel, List.take_left, List.drop_left,
    if_pos rfl, crypt_crypt length]

theorem length_encrypt (length : key.length = 32) (iv plain : Bytes) :
    (encrypt key iv plain).length = plain.length + 16 := by
  rw [encrypt, List.length_append, length_crypt length, length_tag length]

/-- **Only what was enciphered is deciphered.** -/
theorem decrypt?_eq_some_iff (length : key.length = 32) {iv sealed plain : Bytes} :
    decrypt? key iv sealed = some plain ↔ sealed = encrypt key iv plain := by
  constructor
  · intro opened
    simp only [decrypt?, Option.ite_none_right_eq_some, Option.some.injEq] at opened
    obtain ⟨tagged, rfl⟩ := opened
    rw [encrypt, crypt_crypt length, ← tagged, List.take_append_drop]
  · rintro rfl
    exact decrypt?_encrypt length iv plain

/-- A ciphertext has one tag. -/
theorem eq_of_decrypt? {iv a b plain plain' : Bytes} (first : decrypt? key iv a = some plain)
    (second : decrypt? key iv b = some plain')
    (front : a.take (a.length - 16) = b.take (b.length - 16)) : a = b := by
  simp only [decrypt?, Option.ite_none_right_eq_some] at first second
  have back : a.drop (a.length - 16) = b.drop (b.length - 16) := by
    rw [first.1, second.1, front]
  calc a = a.take (a.length - 16) ++ a.drop (a.length - 16) := (List.take_append_drop _ a).symm
    _ = b.take (b.length - 16) ++ b.drop (b.length - 16) := by rw [front, back]
    _ = b := List.take_append_drop _ b

end Gcm

namespace SealKey

variable {key : SealKey}

/-- **What is sealed is opened again**, whatever the nonce. -/
theorem openSealed_sealWith (key : SealKey) {nonce : Bytes} (length : nonce.length = nonceLength)
    (plain : Bytes) : key.openSealed (key.sealWith nonce plain) = .ok plain := by
  have sixteen := Gcm.length_tag key.length_bytes nonce (Gcm.crypt (Aes.roundKeys key.bytes) nonce plain)
  have long : ¬ (key.sealWith nonce plain).length < nonceLength + tagLength := by
    rw [sealWith, List.length_append, length, Gcm.encrypt, List.length_append, sixteen, tagLength]
    omega
  have front : (key.sealWith nonce plain).take nonceLength = nonce := List.take_left' length
  have back : (key.sealWith nonce plain).drop nonceLength = Gcm.encrypt key.bytes nonce plain :=
    List.drop_left' length
  rw [openSealed, if_neg long, front, back, Gcm.decrypt?_encrypt key.length_bytes]

theorem length_sealWith (key : SealKey) (nonce plain : Bytes) :
    (key.sealWith nonce plain).length = nonce.length + plain.length + tagLength := by
  rw [sealWith, List.length_append, Gcm.length_encrypt key.length_bytes, ← Nat.add_assoc, tagLength]

/-- Bytes that can be opened have room for a nonce and a tag, and are deciphered after the nonce. -/
theorem openSealed_eq_ok_iff {sealed plain : Bytes} : key.openSealed sealed = .ok plain ↔
    nonceLength + tagLength ≤ sealed.length ∧
      Gcm.decrypt? key.bytes (sealed.take nonceLength) (sealed.drop nonceLength) = some plain := by
  unfold openSealed
  split
  case isTrue short =>
    simp only [reduceCtorEq, false_iff, not_and]
    intro long
    omega
  case isFalse long => cases Gcm.decrypt? key.bytes _ _ <;> simp [Nat.not_lt.1 long]

/-- What is refused is kept whole. -/
theorem cipher_of_openSealed {sealed : Bytes} {f : DecryptFailure} (refused : key.openSealed sealed = .error f) :
    f.cipher = sealed := by
  unfold openSealed at refused
  split at refused
  · cases refused
    rfl
  · split at refused <;> cases refused
    rfl

/-- **Only what was sealed is opened**, under the nonce that it begins with. -/
theorem openSealed_eq_ok_iff_sealWith {sealed plain : Bytes} : key.openSealed sealed = .ok plain ↔
    nonceLength + tagLength ≤ sealed.length ∧ sealed = key.sealWith (sealed.take nonceLength) plain := by
  rw [openSealed_eq_ok_iff, Gcm.decrypt?_eq_some_iff key.length_bytes, sealWith]
  refine and_congr_right fun _ => ⟨fun body => ?_, fun whole => ?_⟩
  · rw [← body, List.take_append_drop]
  · exact List.append_cancel_left ((List.take_append_drop _ sealed).trans whole)

/-- Of all tags behind one nonce and ciphertext, one opens. -/
theorem eq_of_openSealed {front tag tag' plain plain' : Bytes} (length : tag.length = tagLength)
    (length' : tag'.length = tagLength) (first : key.openSealed (front ++ tag) = .ok plain)
    (second : key.openSealed (front ++ tag') = .ok plain') : tag = tag' := by
  obtain ⟨long, first⟩ := openSealed_eq_ok_iff.1 first
  obtain ⟨-, second⟩ := openSealed_eq_ok_iff.1 second
  rw [List.length_append, length] at long
  have nonce : nonceLength ≤ front.length := by omega
  have cipher : ∀ {back : Bytes}, back.length = tagLength →
      (front.drop nonceLength ++ back).take ((front.drop nonceLength ++ back).length - 16) =
        front.drop nonceLength := by
    intro back length
    rw [List.length_append, length, tagLength, Nat.add_sub_cancel, List.take_left]
  rw [List.take_append_of_le_length nonce, List.drop_append_of_le_length nonce] at first second
  exact List.append_cancel_left (Gcm.eq_of_decrypt? first second (by rw [cipher length, cipher length']))

/-- **Opening is exact.** What opens is what sealing gives for the plaintext and the nonce in front; so a
sealed value of any plaintext and nonce opens, and no longer does once its tag is another. Whatever is
refused is kept whole. -/
theorem openSealed_exact (key : SealKey) :
    (∀ sealed plain, key.openSealed sealed = .ok plain ↔
      28 ≤ sealed.length ∧ sealed = sealed.take 12 ++ Gcm.encrypt key.bytes (sealed.take 12) plain) ∧
    (∀ nonce plain, nonce.length = 12 →
      (key.sealWith nonce plain).length = 12 + plain.length + 16 ∧
      key.openSealed (key.sealWith nonce plain) = .ok plain ∧
      ∀ front tag other, key.sealWith nonce plain = front ++ tag → tag.length = 16 → other.length = 16 →
        other ≠ tag → ∃ reason, key.openSealed (front ++ other) = .error ⟨front ++ other, reason⟩) ∧
    ∀ sealed f, key.openSealed sealed = .error f → f.cipher = sealed := by
  refine ⟨fun sealed plain => openSealed_eq_ok_iff_sealWith, fun nonce plain length => ?_,
    fun sealed f => cipher_of_openSealed⟩
  have opens := openSealed_sealWith key length plain
  refine ⟨by rw [length_sealWith, length, tagLength], opens, fun front tag other whole sixteen sixteen' different => ?_⟩
  rw [whole] at opens
  cases result : key.openSealed (front ++ other) with
  | ok plain' => exact absurd (eq_of_openSealed sixteen' sixteen result opens) different
  | error f =>
    obtain ⟨cipher, reason⟩ := f
    obtain rfl : cipher = front ++ other := cipher_of_openSealed result
    exact ⟨reason, rfl⟩

/-- Three bytes that are sealed under a key and a nonce of zeros are opened again, and are not when every
byte of the tag has its lowest bit changed. -/
theorem openSealed_exact_zeros :
    ∃ (key : SealKey) (sealed : Bytes), key.bytes = List.replicate 32 0 ∧
      sealed = key.sealWith (List.replicate 12 0) [1, 2, 3] ∧ sealed.length = 31 ∧
      key.openSealed sealed = .ok [1, 2, 3] ∧
      ∃ reason, key.openSealed (sealed.take 15 ++ (sealed.drop 15).map (· ^^^ 1)) =
        .error ⟨sealed.take 15 ++ (sealed.drop 15).map (· ^^^ 1), reason⟩ := by
  obtain ⟨length, opens, refused⟩ :=
    (openSealed_exact ⟨List.replicate 32 0, rfl⟩).2.1 (List.replicate 12 0) [1, 2, 3] rfl
  have tag := refused _ _ (List.map (· ^^^ 1) (List.drop 15 _)) (List.take_append_drop 15 _).symm
    (by rw [List.length_drop, length]; rfl) (by rw [List.length_map, List.length_drop, length]; rfl)
  refine ⟨_, _, rfl, rfl, length, opens, tag fun same => ?_⟩
  have changes : ∀ b : UInt8, b ^^^ 1 ≠ b := fun b fixed =>
    absurd ((UInt8.xor_right_inj b).1 (fixed.trans UInt8.xor_zero.symm)) (by decide)
  obtain ⟨b, rest, found⟩ := List.exists_cons_of_length_pos
    (by rw [List.length_drop, length]; decide : 0 < (List.drop 15 (sealWith _ _ [1, 2, 3])).length)
  rw [found, List.map_cons] at same
  exact changes b (List.cons.inj same).1

end SealKey
end CertWatch
