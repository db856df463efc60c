import Mathlib.Data.List.Induction
import CertWatch.Proofs.Time.Order
import CertWatch.Proofs.Watch.View

/-!
# The chosen record

Among keys in ascending order, the record that is chosen is the one with a value that was modified
last, and of several that were modified then the one with the smallest key. No record is chosen only
if none has a value.
-/

namespace CertWatch.View
set_option autoImplicit false

variable {v : View}

/-- One key is preferred to another: its record was modified later, or at the same time and its key is
smaller. -/
def Prefers (v : View) (key other : String) : Prop :=
  Timestamp.earlier (v.record other).modified (v.record key).modified = true ∨
    (v.record other).modified = (v.record key).modified ∧ key < other

instance (v : View) (key other : String) : Decidable (v.Prefers key other) :=
  inferInstanceAs (Decidable (_ ∨ _))

/-- A key among others whose record has a value, and that is preferred to all others with a value. -/
structure IsBest (v : View) (keys : List String) (key : String) : Prop where
  mem : key ∈ keys
  value : (v.record key).value ≠ []
  best : ∀ other ∈ keys, (v.record other).value ≠ [] → other ≠ key → v.Prefers key other

theorem IsBest.append {keys : List String} {key next : String} (h : v.IsBest keys key)
    (next_ : (v.record next).value ≠ [] → next ≠ key → v.Prefers key next) :
    v.IsBest (keys ++ [next]) key where
  mem := List.mem_append_left _ h.mem
  value := h.value
  best other listed value ne := by
    rcases List.mem_append.1 listed with listed | listed
    · exact h.best other listed value ne
    · rw [List.mem_singleton.1 listed] at value ne ⊢
      exact next_ value ne

/-- The later one of two keys is preferred, unless the earlier one was modified as late. -/
theorem prefers_of_not_earlier {key next : String} (ascending : key < next)
    (notLater : ¬ Timestamp.earlier (v.record key).modified (v.record next).modified = true) :
    v.Prefers key next := by
  by_cases earlier : Timestamp.earlier (v.record next).modified (v.record key).modified = true
  · exact .inl earlier
  · exact .inr ⟨Timestamp.eq_of_not_earlier earlier notLater, ascending⟩

/-- What was chosen before is not preferred to a key that was modified later, nor was anything else. -/
theorem IsBest.replaced {keys : List String} {key next : String} (h : v.IsBest keys key)
    (value : (v.record next).value ≠ [])
    (later : Timestamp.earlier (v.record key).modified (v.record next).modified = true) :
    v.IsBest (keys ++ [next]) next where
  mem := by simp
  value := value
  best other listed hasValue ne := by
    left
    rcases List.mem_append.1 listed with listed | listed
    · by_cases same : other = key
      · exact same ▸ later
      · rcases h.best other listed hasValue same with earlier | ⟨equal, -⟩
        · exact Timestamp.earlier_trans earlier later
        · exact equal ▸ later
    · exact absurd (List.mem_singleton.1 listed) ne

/-- The record that is chosen is that of the best key, and none is only if no key has a value. -/
theorem pick_cases {keys : List String} (ascending : keys.Pairwise (· < ·)) :
    (v.pick keys = none ∧ ∀ key ∈ keys, (v.record key).value = []) ∨
      ∃ key, v.pick keys = some (v.record key) ∧ v.IsBest keys key := by
  induction keys using List.reverseRecOn with
  | nil => exact .inl ⟨rfl, by simp⟩
  | append_singleton keys next ih =>
    obtain ⟨ascending, -, before⟩ := List.pairwise_append.1 ascending
    have step : v.pick (keys ++ [next]) = BundleConfig.better (v.pick keys) (v.record next) := by
      simp [pick]
    rw [step]
    unfold BundleConfig.better
    by_cases empty : (v.record next).value = []
    · rw [if_pos empty]
      rcases ih ascending with ⟨none, nothing⟩ | ⟨key, some, best⟩
      · refine .inl ⟨none, fun key listed => ?_⟩
        rcases List.mem_append.1 listed with listed | listed
        · exact nothing key listed
        · rw [List.mem_singleton.1 listed]
          exact empty
      · exact .inr ⟨key, some, best.append fun value => absurd empty value⟩
    · rw [if_neg empty]
      right
      rcases ih ascending with ⟨none, nothing⟩ | ⟨key, some, best⟩
      · rw [none]
        refine ⟨next, rfl, by simp, empty, fun other listed value ne => ?_⟩
        rcases List.mem_append.1 listed with listed | listed
        · exact absurd (nothing other listed) value
        · exact absurd (List.mem_singleton.1 listed) ne
      · rw [some]
        dsimp only
        split
        case isTrue later => exact ⟨next, rfl, best.replaced empty later⟩
        case isFalse notLater =>
          have smaller : key < next := before key best.mem next (by simp)
          exact ⟨key, rfl, best.append fun _ _ => prefers_of_not_earlier smaller notLater⟩

theorem exists_isBest_of_pick {keys : List String} (ascending : keys.Pairwise (· < ·)) {r : Record}
    (picked : v.pick keys = some r) : ∃ key, v.IsBest keys key ∧ r = v.record key := by
  rcases pick_cases (v := v) ascending with ⟨none, -⟩ | ⟨key, some, best⟩
  · rw [none] at picked
    cases picked
  · exact ⟨key, best, Option.some.inj (picked.symm.trans some)⟩

theorem pick_isSome_iff {keys : List String} (ascending : keys.Pairwise (· < ·)) :
    (v.pick keys).isSome = true ↔ ∃ key ∈ keys, (v.record key).value ≠ [] := by
  rcases pick_cases (v := v) ascending with ⟨none, nothing⟩ | ⟨key, some, best⟩
  · rw [none]
    constructor
    · intro h
      cases h
    · rintro ⟨key, listed, value⟩
      exact absurd (nothing key listed) value
  · rw [some]
    exact ⟨fun _ => ⟨key, best.mem, best.value⟩, fun _ => rfl⟩

end CertWatch.View
