import CertWatch.Bundle

/-!
# The order of instants

Instants that may be absent are ordered strictly, an absent one before all others, and of two that
differ one is earlier. The modification of a bundle is the latest of those of its records.
-/

namespace CertWatch
set_option autoImplicit false

namespace Timestamp

variable {a b c : Option Timestamp}

theorem before_iff {a b : Timestamp} : a.before b = true ↔
    a.seconds < b.seconds ∨ a.seconds = b.seconds ∧ a.nanos < b.nanos := by
  simp [before]

theorem eq_of_not_before {a b : Timestamp} (h : ¬ a.before b = true) (h' : ¬ b.before a = true) :
    a = b := by
  rw [before_iff] at h h'
  cases a
  cases b
  simp only [Timestamp.mk.injEq]
  simp only at h h'
  omega

theorem earlier_iff : earlier a b = true ↔
    ∃ t, b = some t ∧ ∀ s, a = some s → s.before t = true := by
  cases a <;> cases b <;> simp [earlier]

theorem not_earlier_self (a : Option Timestamp) : ¬ earlier a a = true := by
  cases a with
  | none => simp [earlier]
  | some t => simp [earlier, before_iff]

theorem earlier_trans (h : earlier a b = true) (h' : earlier b c = true) : earlier a c = true := by
  obtain ⟨s, rfl, first⟩ := earlier_iff.1 h
  obtain ⟨t, rfl, second⟩ := earlier_iff.1 h'
  refine earlier_iff.2 ⟨t, rfl, fun r same => ?_⟩
  have one := before_iff.1 (first r same)
  have two := before_iff.1 (second s rfl)
  rw [before_iff]
  omega

theorem eq_of_not_earlier (h : ¬ earlier a b = true) (h' : ¬ earlier b a = true) : a = b := by
  cases a with
  | none =>
    cases b with
    | none => rfl
    | some t => exact absurd rfl h
  | some s =>
    cases b with
    | none => exact absurd rfl h'
    | some t => exact congrArg some (eq_of_not_before h h')

theorem not_earlier_trans (h : ¬ earlier a b = true) (h' : ¬ earlier b c = true) :
    ¬ earlier a c = true := by
  intro later
  by_cases other : earlier b a = true
  · exact h' (earlier_trans other later)
  · rw [eq_of_not_earlier h other] at later
    exact h' later

theorem latest_eq (a b : Option Timestamp) : latest a b = if earlier a b then b else a := by
  cases a <;> cases b <;> rfl

end Timestamp

namespace Bundle

open Timestamp (earlier)

/-- The latest of some instants and a first one is one of them, and none of them is later. -/
theorem foldl_latest (roles : List (String × Record)) (first : Option Timestamp) :
    let m := roles.foldl (fun m r => Timestamp.latest m r.2.modified) first
    (m = first ∨ ∃ r ∈ roles, m = r.2.modified) ∧ ¬ earlier m first = true ∧
      ∀ r ∈ roles, ¬ earlier m r.2.modified = true := by
  induction roles generalizing first with
  | nil => exact ⟨.inl rfl, Timestamp.not_earlier_self first, by simp⟩
  | cons r rest ih =>
    obtain ⟨among, notFirst, notRest⟩ := ih (Timestamp.latest first r.2.modified)
    rw [List.foldl_cons]
    generalize rest.foldl (fun m r => Timestamp.latest m r.2.modified)
      (Timestamp.latest first r.2.modified) = m at among notFirst notRest ⊢
    rw [Timestamp.latest_eq] at among notFirst
    split at notFirst
    case isTrue later =>
      rw [if_pos later] at among
      refine ⟨.inr ?_, fun h => ?_, List.forall_mem_cons.2 ⟨notFirst, notRest⟩⟩
      · rcases among with rfl | ⟨s, hs, rfl⟩
        · exact ⟨r, List.mem_cons_self, rfl⟩
        · exact ⟨s, List.mem_cons_of_mem r hs, rfl⟩
      · exact notFirst (Timestamp.earlier_trans h later)
    case isFalse notLater =>
      rw [if_neg notLater] at among
      refine ⟨among.imp id fun ⟨s, hs, same⟩ => ⟨s, List.mem_cons_of_mem r hs, same⟩, notFirst,
        List.forall_mem_cons.2 ⟨Timestamp.not_earlier_trans notFirst notLater, notRest⟩⟩

/-- No record of a bundle was modified later than the bundle. -/
theorem not_earlier_modified (b : Bundle) :
    ∀ r ∈ b.roles, ¬ earlier b.modified r.2.modified = true := (foldl_latest b.roles none).2.2

/-- A bundle with records was modified when one of them was. -/
theorem exists_modified (b : Bundle) (some : b.roles ≠ []) :
    ∃ r ∈ b.roles, b.modified = r.2.modified := by
  rcases (foldl_latest b.roles none).1 with absent | among
  · obtain ⟨r, hr⟩ := List.exists_mem_of_ne_nil b.roles some
    refine ⟨r, hr, Timestamp.eq_of_not_earlier (b.not_earlier_modified r hr) ?_⟩
    rw [modified, absent]
    cases r.2.modified <;> simp [earlier]
  · exact among

end Bundle
end CertWatch
