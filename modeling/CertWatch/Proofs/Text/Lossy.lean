import CertWatch.Proofs.Text.Utf8

/-!
# Ill-formed UTF-8

A byte below 0x80 ends whatever piece comes before it, so the pieces of a byte string can be taken on
either side of such a byte. And no other bytes make up the character that such a byte stands for.
-/

namespace CertWatch.Utf8
set_option autoImplicit false

section Next

variable {lead b : UInt8}

theorem isTail_of_ascii (ascii : b.toNat < 0x80) : isTail b = false := by
  rw [← Bool.not_eq_true, isTail_iff]
  omega

theorem isSecond_of_ascii (ascii : b.toNat < 0x80) : isSecond lead b = false := by
  rw [← Bool.not_eq_true, isSecond_iff]
  omega

/-- A piece ends before a byte below 0x80, if not earlier. -/
theorem next_append (ascii : b.toNat < 0x80) (lead : UInt8) (rest after : Bytes) :
    next lead (rest ++ b :: after) = ((next lead rest).1, (next lead rest).2 ++ b :: after) := by
  have notTail := isTail_of_ascii ascii
  have notSecond : ∀ lead, isSecond lead b = false := fun _ => isSecond_of_ascii ascii
  rcases rest with _ | ⟨x, _ | ⟨y, _ | ⟨z, rest⟩⟩⟩
  all_goals
    simp only [next, notTail, notSecond, List.nil_append, List.cons_append]
    repeat' split
    all_goals first | rfl | simp_all

theorem next_suffix (lead : UInt8) (rest : Bytes) : (next lead rest).2 <:+ rest := by
  unfold next
  repeat' split
  all_goals simp [List.suffix_cons_iff]

/-- The character that a number stands for has this number; numbers that stand for none read as zero. -/
theorem toNat_char (n : Nat) : (Char.ofNat n).toNat = if n.isValidChar then n else 0 := by
  by_cases valid : n.isValidChar
  · rw [if_pos valid, Char.ofNat, dif_pos valid]
    rfl
  · rw [if_neg valid, Char.ofNat, dif_neg valid]
    rfl

/-- Different numbers stand for different characters, of which one is below 0x80 and not zero. -/
theorem ofNat_inj {m n : Nat} (pos : 0 < m) (ascii : m < 0x80) (same : Char.ofNat n = Char.ofNat m) :
    n = m := by
  have small : m.isValidChar := .inl (by omega)
  have number := congrArg Char.toNat same
  rw [toNat_char, toNat_char, if_pos small] at number
  split at number
  · exact number
  · omega

/-- A piece that begins with a byte above 0x7F is ill-formed or a character above. -/
theorem number_of_next (above : 0x80 ≤ lead.toNat) {rest : Bytes} {ch : Char}
    (h : (next lead rest).1 = some ch) : ∃ n, 0x80 ≤ n ∧ ch = Char.ofNat n := by
  unfold next at h
  repeat' split at h
  all_goals cases h
  all_goals
    refine ⟨_, ?_, rfl⟩
    simp only [Bool.and_eq_true, decide_eq_true_eq, UInt8.le_iff_toNat_le, UInt8.lt_iff_toNat_lt,
      isSecond_iff, isTail_iff, tailBits, UInt8.reduceToNat] at *
    omega

/-- A piece of several bytes is no character below 0x80. -/
theorem eq_of_next (pos : 0 < b.toNat) (ascii : b.toNat < 0x80) {rest : Bytes}
    (h : (next lead rest).1 = some (Char.ofNat b.toNat)) : lead = b := by
  by_cases single : lead.toNat < 0x80
  · rw [next_one rest single, Option.some.injEq] at h
    exact UInt8.toNat_inj.1 (ofNat_inj pos ascii h)
  · obtain ⟨n, above, same⟩ := number_of_next (by omega) h
    have := ofNat_inj pos ascii same.symm
    omega

end Next

theorem pieces_cons_ascii {b : UInt8} (ascii : b.toNat < 0x80) (after : Bytes) :
    pieces (b :: after) = some (Char.ofNat b.toNat) :: pieces after := by
  rw [pieces, next_one after ascii]

/-- The pieces on either side of a byte below 0x80 are taken independently. -/
theorem pieces_append {b : UInt8} (ascii : b.toNat < 0x80) (bs after : Bytes) :
    pieces (bs ++ b :: after) = pieces bs ++ pieces (b :: after) := by
  induction bs using pieces.induct with
  | case1 =>
    have none : pieces [] = [] := by rw [pieces]
    rw [none, List.nil_append, List.nil_append]
  | case2 lead rest ih =>
    have whole : pieces (lead :: rest) = (next lead rest).1 :: pieces (next lead rest).2 := by
      rw [pieces]
    rw [List.cons_append, whole, List.cons_append, ← ih, pieces, next_append ascii]

/-- A character below 0x80 is in a text only if its byte is. -/
theorem mem_of_mem_pieces {b : UInt8} (pos : 0 < b.toNat) (ascii : b.toNat < 0x80) {bs : Bytes}
    (h : some (Char.ofNat b.toNat) ∈ pieces bs) : b ∈ bs := by
  induction bs using pieces.induct with
  | case1 =>
    rw [pieces] at h
    cases h
  | case2 lead rest ih =>
    rw [pieces] at h
    rcases List.mem_cons.1 h with first | later
    · rw [eq_of_next pos ascii first.symm]
      exact List.mem_cons_self
    · exact List.mem_cons_of_mem lead ((next_suffix lead rest).subset (ih later))

end CertWatch.Utf8
