import Mathlib.Data.List.Nodup
import CertWatch.Line

/-!
# The heads of waiting lines

At most one participant is at the head of a line. Who is there stays there while others join or
leave.
-/

namespace CertWatch.Line
set_option autoImplicit false

variable {l : Line} {id other : Nat}

theorem holds_iff : l.holds id = true ↔ l.members.head? = some id := by simp [holds]

theorem eq_of_holds (h : l.holds id = true) (h' : l.holds other = true) : other = id := by
  rw [holds_iff] at h h'
  exact Option.some.inj (h'.symm.trans h)

theorem holds_enter (h : l.holds id = true) (other : Nat) : (l.enter other).holds id = true := by
  rw [holds_iff] at h ⊢
  simp [enter, h]

theorem holds_leave (h : l.holds id = true) (ne : other ≠ id) : (l.leave other).holds id = true := by
  rw [holds_iff] at h ⊢
  obtain ⟨members⟩ := l
  cases members with
  | nil => cases h
  | cons first rest =>
    obtain rfl : first = id := Option.some.inj h
    simp [leave, List.erase_cons_tail, ne.symm]

theorem nodup_enter (h : l.members.Nodup) (new : id ∉ l.members) : (l.enter id).members.Nodup := by
  rw [enter, List.nodup_append]
  refine ⟨h, List.nodup_singleton id, ?_⟩
  intro a ha b hb same
  exact new (List.mem_singleton.1 hb ▸ same ▸ ha)

theorem nodup_leave (h : l.members.Nodup) : (l.leave id).members.Nodup := h.erase id

end CertWatch.Line
