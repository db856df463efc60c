import CertWatch.Proofs.Except
import CertWatch.Proofs.Secret
import CertWatch.Service

/-!
# Acceptable settings

Settings are judged part by part, and the parts of acceptable settings are acceptable to those who are made
of them. A fault is always reported as a failure of validation.
-/

namespace CertWatch.Config
set_option autoImplicit false

theorem ok_of_orFail {r : Except Invalid Unit} (ok : orFail r = .ok ()) : r = .ok () := by
  cases r with
  | error i => cases ok
  | ok u => rfl

theorem validation_of_orFail {r : Except Invalid Unit} {f : Failure} (failed : orFail r = .error f) :
    ∃ detail, f = .validation detail := by
  cases r with
  | error i =>
    cases failed
    exact ⟨i.message, rfl⟩
  | ok u => cases failed

theorem validation_of_key {c : SealConfig} {f : Failure} (failed : c.key = .error f) :
    ∃ detail, f = .validation detail := by
  unfold SealConfig.key at failed
  cases secret : c.secret with
  | none =>
    rw [secret] at failed
    cases failed
  | some s =>
    simp only [secret] at failed
    rcases SealKey.spells_or_refused s with ⟨k, spells⟩ | ⟨detail, refused⟩
    · rw [spells.ofSecret] at failed
      cases failed
    · rw [refused] at failed
      cases failed
      exact ⟨detail, rfl⟩

/-- Settings that are not acceptable are reported as such. -/
theorem validation_of_validate {c : Config} {f : Failure} (failed : c.validate = .error f) :
    ∃ detail, f = .validation detail := by
  rcases error_of_bind failed with allocation | ⟨_, -, failed⟩
  · exact validation_of_orFail allocation
  rcases error_of_bind failed with sealing | ⟨_, -, failed⟩
  · cases key : c.sealing.key with
    | error f' =>
      rw [SealConfig.validate, key] at sealing
      cases sealing
      exact validation_of_key key
    | ok k =>
      rw [SealConfig.validate, key] at sealing
      cases sealing
  rcases error_of_bind failed with records | ⟨_, -, failed⟩
  · exact validation_of_orFail records
  rcases error_of_bind failed with bundles | ⟨_, -, failed⟩
  · exact validation_of_orFail bundles
  · split at failed
    · cases failed
      exact ⟨_, rfl⟩
    · cases failed

/-- The parts of acceptable settings are acceptable. -/
theorem parts_of_validate {c : Config} (valid : c.validate = .ok ()) :
    c.allocation.validate = .ok () ∧ (∃ key, c.sealing.key = .ok key) ∧
      c.records.validate "records" = .ok () ∧ c.bundles.validate = .ok () := by
  obtain ⟨_, allocation, rest⟩ := ok_of_bind valid
  obtain ⟨_, sealing, rest⟩ := ok_of_bind rest
  obtain ⟨_, records, rest⟩ := ok_of_bind rest
  obtain ⟨_, bundles, -⟩ := ok_of_bind rest
  refine ⟨ok_of_orFail allocation, ?_, ok_of_orFail records, ok_of_orFail bundles⟩
  cases key : c.sealing.key with
  | error f =>
    rw [SealConfig.validate, key] at sealing
    cases sealing
  | ok k => exact ⟨k, rfl⟩

/-- Acceptable settings have positive intervals. -/
theorem intervals_pos {c : Config} (valid : c.validate = .ok ()) :
    0 < c.records.intervalMs ∧ 0 < c.bundles.intervalMs := by
  obtain ⟨-, -, records, bundles⟩ := parts_of_validate valid
  constructor
  · refine Nat.pos_of_ne_zero fun zero => ?_
    have invalid : c.records.validate "records" = .error _ := if_pos zero
    rw [invalid] at records
    cases records
  · refine Nat.pos_of_ne_zero fun zero => ?_
    have invalid : c.bundles.validate = .error _ := if_pos zero
    rw [invalid] at bundles
    cases bundles

/-- Acceptable settings have an allocator. -/
theorem allocator_of_validate {c : Config} (valid : c.validate = .ok ()) :
    c.allocator = .ok { config := c.allocation } := by
  have allocation := (parts_of_validate valid).1
  rw [allocator, valid, Allocator.create, allocation]
  rfl

/-- Settings that are not acceptable have none, for the reason that makes them so. -/
theorem allocator_of_error {c : Config} {f : Failure} (failed : c.validate = .error f) :
    c.allocator = .error f := by
  rw [allocator, failed]
  rfl

/-- In acceptable settings nothing stands in the way of watching, once there is a prefix. -/
theorem watched_of_validate {c : Config} (valid : c.validate = .ok ()) :
    ∃ key, c.sealing.key = .ok key ∧ (∀ f, c.watched (.error f) = .error f) ∧
      ∀ found, c.watched (.ok found) = .ok (⟨found, key⟩, .bundles c.bundles {}) := by
  obtain ⟨-, ⟨key, sealing⟩, -, bundles⟩ := parts_of_validate valid
  refine ⟨key, sealing, fun f => rfl, fun found => ?_⟩
  rw [watched, sealing, Memory.ofBundles, bundles]
  rfl

end CertWatch.Config
