import CertWatch.Backend
import CertWatch.Proofs.Table

/-!
# What calls do to leases

A lease covers an instant for its owner if the owner need not fear to lose it before: until the
instant the lease cannot be taken by anybody else, and only its owner could give it up. Once a lease
has lapsed, nothing but a new request of the owner brings it back.
-/

namespace CertWatch
set_option autoImplicit false

/-- The owner in whose name a call asks something of the lease service. -/
def Call.lessee? : Call → Option String
  | .tryAcquire _ owner _ => some owner
  | .renew _ owner _ => some owner
  | .release _ owner => some owner
  | _ => none

namespace Leases

variable {ls : Leases} {now t : Nat} {r owner other : String} {length : Nat}

theorem owner?_eq_some_iff :
    ls.owner? now r = some owner ↔ ∃ e, ls.get? r = some ⟨owner, e⟩ ∧ now < e := by
  unfold owner?
  rw [Option.map_eq_some_iff]
  constructor
  · rintro ⟨⟨o, e⟩, kept, rfl⟩
    obtain ⟨there, live⟩ := Option.filter_eq_some_iff.1 kept
    exact ⟨e, there, of_decide_eq_true live⟩
  · rintro ⟨e, there, live⟩
    exact ⟨⟨owner, e⟩, Option.filter_eq_some_iff.2 ⟨there, decide_eq_true live⟩, rfl⟩

/-- What is live later was live before, if nothing happened to it. -/
theorem owner?_of_later (h : ls.owner? t r = some owner) (le : now ≤ t) :
    ls.owner? now r = some owner := by
  obtain ⟨e, there, live⟩ := owner?_eq_some_iff.1 h
  exact owner?_eq_some_iff.2 ⟨e, there, by omega⟩

theorem allows_iff :
    ls.allows now r owner = true ↔ ∀ other, ls.owner? now r = some other → other = owner := by
  unfold allows
  cases ls.owner? now r <;> simp

/-- The owner has the lease on a resource, which lasts until an instant, if that is still to come. -/
def Covers (ls : Leases) (now : Nat) (r owner : String) (t : Nat) : Prop :=
  now < t → ∃ e, ls.get? r = some ⟨owner, e⟩ ∧ t ≤ e

theorem Covers.owner? (h : ls.Covers now r owner t) (before : now < t) :
    ls.owner? now r = some owner := by
  obtain ⟨e, there, le⟩ := h before
  exact owner?_eq_some_iff.2 ⟨e, there, by omega⟩

theorem Covers.later (h : ls.Covers now r owner t) {later : Nat} (le : now ≤ later) :
    ls.Covers later r owner t := fun before => h (by omega)

theorem covers_insert (le : t ≤ now + length) :
    Covers (ls.insert r ⟨owner, now + length⟩) now r owner t :=
  fun _ => ⟨_, ls.get?_insert_self r _, le⟩

/-- A granted request covers what was asked for, also if it was asked for earlier. -/
theorem covers_tryAcquire (granted : (ls.tryAcquire now r owner length).2 = true) (le : t ≤ now + length) :
    (ls.tryAcquire now r owner length).1.Covers now r owner t := by
  unfold tryAcquire at granted ⊢
  split at granted
  case isTrue free =>
    rw [if_pos free]
    exact covers_insert le
  case isFalse => cases granted

theorem covers_renew (granted : (ls.renew now r owner length).2 = true) (le : t ≤ now + length) :
    (ls.renew now r owner length).1.Covers now r owner t := by
  unfold renew at granted ⊢
  split at granted
  case isTrue own =>
    rw [if_pos own]
    exact covers_insert le
  case isFalse => cases granted

section Others

variable {r' : String}

/-- A request of another owner takes no lease that lasts. -/
theorem Covers.tryAcquire (h : ls.Covers now r owner t) (ne : other ≠ owner) :
    (ls.tryAcquire now r' other length).1.Covers now r owner t := by
  unfold Leases.tryAcquire
  split
  case isTrue free =>
    intro before
    obtain ⟨e, there, le⟩ := h before
    have differs : r ≠ r' := by
      rintro rfl
      exact ne (allows_iff.1 free owner (h.owner? before)).symm
    exact ⟨e, (ls.get?_insert_of_ne _ differs).trans there, le⟩
  case isFalse => exact h

/-- A renewal by another owner takes no lease, and one by the owner with terms that reach far enough
takes nothing away. -/
theorem Covers.renew (h : ls.Covers now r owner t) (terms : other = owner → t ≤ now + length) :
    (ls.renew now r' other length).1.Covers now r owner t := by
  unfold Leases.renew
  split
  case isTrue own =>
    intro before
    obtain ⟨e, there, le⟩ := h before
    by_cases same : r = r'
    · subst same
      obtain rfl : owner = other := Option.some.inj ((h.owner? before).symm.trans own)
      exact covers_insert (terms rfl) before
    · exact ⟨e, (ls.get?_insert_of_ne _ same).trans there, le⟩
  case isFalse => exact h

theorem get?_release (ls : Leases) (r' other r : String) :
    (ls.release r' other).get? r =
      if r = r' ∧ (ls.get? r').map Lease.owner = some other then none else ls.get? r := by
  unfold release
  cases there : ls.get? r' with
  | none => simp
  | some l =>
    by_cases own : l.owner = other
    · simp only [own, if_true, Option.map_some, and_true]
      exact Table.get?_erase ls r' r
    · simp [own]

/-- Giving a lease up takes no lease of another owner. -/
theorem Covers.release (h : ls.Covers now r owner t) (ne : other ≠ owner) :
    (ls.release r' other).Covers now r owner t := by
  intro before
  obtain ⟨e, there, le⟩ := h before
  refine ⟨e, ?_, le⟩
  rw [get?_release, if_neg, there]
  rintro ⟨rfl, own⟩
  rw [there] at own
  exact ne (Option.some.inj own).symm

end Others
end Leases

namespace Backend

variable {b : Backend} {now t : Nat} {c : Call} {r owner : String}

/-- A call leaves what a lease covers as it is, if it is in the name of another owner or renews the
lease for long enough. -/
theorem covers_perform (h : b.leases.Covers now r owner t)
    (terms : c.lessee? = some owner → ∃ r' length, c = .renew r' owner length ∧ t ≤ now + length) :
    (b.perform now c).1.leases.Covers now r owner t := by
  cases c with
  | get key => exact h
  | set key value => exact h
  | list pattern => exact h
  | tryAcquire r' other length =>
    apply h.tryAcquire
    intro same
    obtain ⟨_, _, impossible, _⟩ := terms (congrArg some same)
    cases impossible
  | renew r' other length =>
    apply h.renew
    intro same
    obtain ⟨_, _, call, le⟩ := terms (congrArg some same)
    cases call
    exact le
  | release r' other =>
    apply h.release
    intro same
    obtain ⟨_, _, impossible, _⟩ := terms (congrArg some same)
    cases impossible

/-- Where a lease comes from that is there after a call: it was there before, it was granted, or it was live and
was renewed. -/
theorem get?_of_perform {e : Nat} (h : (b.perform now c).1.leases.get? r = some ⟨owner, e⟩) :
    b.leases.get? r = some ⟨owner, e⟩ ∨ ∃ length, e = now + length ∧
      (c = .tryAcquire r owner length ∨ c = .renew r owner length ∧ b.leases.owner? now r = some owner) := by
  cases c with
  | get key => exact .inl h
  | set key value => exact .inl h
  | list pattern => exact .inl h
  | tryAcquire r' other length =>
    change (b.leases.tryAcquire now r' other length).1.get? r = _ at h
    unfold Leases.tryAcquire at h
    split at h
    case isTrue =>
      rw [Table.get?_insert] at h
      split at h
      case isTrue same =>
        subst same
        obtain ⟨rfl, rfl⟩ := Lease.mk.inj (Option.some.inj h)
        exact .inr ⟨length, rfl, .inl rfl⟩
      case isFalse => exact .inl h
    case isFalse => exact .inl h
  | renew r' other length =>
    change (b.leases.renew now r' other length).1.get? r = _ at h
    unfold Leases.renew at h
    split at h
    case isTrue owned =>
      rw [Table.get?_insert] at h
      split at h
      case isTrue same =>
        subst same
        obtain ⟨rfl, rfl⟩ := Lease.mk.inj (Option.some.inj h)
        exact .inr ⟨length, rfl, .inr ⟨rfl, owned⟩⟩
      case isFalse => exact .inl h
    case isFalse => exact .inl h
  | release r' other =>
    change (b.leases.release r' other).get? r = _ at h
    rw [Leases.get?_release] at h
    split at h
    case isTrue => cases h
    case isFalse => exact .inl h

/-- Only a request of its own makes an owner the owner of a lease. -/
theorem owner?_of_perform (h : (b.perform now c).1.leases.owner? now r = some owner)
    (noRequest : ∀ r' length, c ≠ .tryAcquire r' owner length) : b.leases.owner? now r = some owner := by
  obtain ⟨e, there, live⟩ := Leases.owner?_eq_some_iff.1 h
  rcases get?_of_perform there with before | ⟨length, -, request | ⟨-, owned⟩⟩
  · exact Leases.owner?_eq_some_iff.2 ⟨e, before, live⟩
  · exact absurd request (noRequest r length)
  · exact owned

end Backend
end CertWatch
