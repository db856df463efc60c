import Mathlib.Algebra.Group.Nat.Defs
import CertWatch.Digest

/-!
# What digests tell apart

The bytes that are hashed for a list of fields determine the fields, as long as the length of each
fits into the eight bytes before it. So digests of different fields differ unless the hash itself does
not tell their messages apart.
-/

namespace CertWatch
set_option autoImplicit false

namespace Bytes

/-- Numbers that fit are determined by their bytes. -/
theorem littleEndian_inj {width m n : Nat} (fits : m < 256 ^ width) (fits' : n < 256 ^ width)
    (same : littleEndian width m = littleEndian width n) : m = n := by
  induction width generalizing m n with
  | zero =>
    rw [Nat.pow_zero] at fits fits'
    omega
  | succ width ih =>
    rw [Nat.pow_succ] at fits fits'
    obtain ⟨low, high⟩ := List.cons.inj same
    have lows : m % 256 = n % 256 := by
      have := congrArg UInt8.toNat low
      simpa using this
    have highs : m / 256 = n / 256 := ih (by omega) (by omega) high
    omega

end Bytes

namespace Digest

theorem eq_of_bytes {a b : Digest} (same : a.bytes = b.bytes) : a = b := by
  cases a
  cases b
  congr

/-- The length of a field fits into the bytes before it. -/
def Fits (field : Bytes) : Prop := field.length < 2 ^ 64

instance (field : Bytes) : Decidable (Fits field) := inferInstanceAs (Decidable (_ < _))

/-- A frame ends where its length says, so what follows it can be told from it. -/
theorem frame_append_inj {a b rest rest' : Bytes} (fits : Fits a) (fits' : Fits b)
    (same : frame a ++ rest = frame b ++ rest') : a = b ∧ rest = rest' := by
  rw [frame, frame, List.append_assoc, List.append_assoc] at same
  obtain ⟨lengths, same⟩ := List.append_inj same (by simp)
  have length : a.length = b.length :=
    @Bytes.littleEndian_inj 8 _ _ fits fits' lengths
  exact List.append_inj same length

theorem message_cons (field : Bytes) (rest : List Bytes) :
    message (field :: rest) = frame field ++ message rest := List.flatMap_cons

theorem frame_append_ne_nil (field rest : Bytes) : frame field ++ rest ≠ [] := by
  intro empty
  have := congrArg List.length empty
  simp [frame] at this

/-- **Framing.** Different lists of fields are hashed from different bytes. -/
theorem message_inj {as bs : List Bytes} (fits : ∀ a ∈ as, Fits a) (fits' : ∀ b ∈ bs, Fits b)
    (same : message as = message bs) : as = bs := by
  induction as generalizing bs with
  | nil =>
    cases bs with
    | nil => rfl
    | cons b bs => exact absurd same.symm (frame_append_ne_nil b (message bs))
  | cons a as ih =>
    cases bs with
    | nil => exact absurd same (frame_append_ne_nil a (message as))
    | cons b bs =>
      obtain ⟨fit, fits⟩ := List.forall_mem_cons.1 fits
      obtain ⟨fit', fits'⟩ := List.forall_mem_cons.1 fits'
      rw [message_cons, message_cons] at same
      obtain ⟨first, rest⟩ := frame_append_inj fit fit' same
      rw [first, ih fits fits' rest]

/-- Among some lists of fields, the hash tells different messages apart. -/
structure Distinguishes (hashed : List (List Bytes)) : Prop where
  fits : ∀ fields ∈ hashed, ∀ field ∈ fields, Fits field
  noCollision : ∀ a ∈ hashed, ∀ b ∈ hashed,
    Sha256.hash (message a) = Sha256.hash (message b) → message a = message b

theorem Distinguishes.eq_of_ofFields {hashed : List (List Bytes)} (h : Distinguishes hashed)
    {a b : List Bytes} (among : a ∈ hashed) (among' : b ∈ hashed) (same : ofFields a = ofFields b) :
    a = b :=
  message_inj (h.fits a among) (h.fits b among')
    (h.noCollision a among b among' (congrArg Digest.bytes same))

end Digest
end CertWatch
