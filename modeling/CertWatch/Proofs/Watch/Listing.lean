import CertWatch.Proofs.Plan
import CertWatch.Proofs.Table
import CertWatch.Watch.Bundles

/-!
# What a poll reads

However a store lists its keys and whatever it answers for each of them, the records that a poll reads
have distinct keys, and so have the bundles that it puts together.
-/

namespace CertWatch
set_option autoImplicit false

namespace Scope

theorem nodup_tidy (listed : List String) : (tidy listed).Nodup := Table.nodup_keys _

theorem ascending_tidy (listed : List String) : (tidy listed).Pairwise (· < ·) :=
  Table.ascending_keys _

theorem mem_tidy_iff {listed : List String} {key : String} :
    key ∈ tidy listed ↔ key ∈ listed ∧ key ≠ "" := by
  rw [tidy, Table.mem_keys_ofList]
  simp

/-- Of two listings, those keys are the same about which the listings agree. -/
theorem filter_tidy_eq {listed listed' : List String} {p : String → Bool}
    (same : ∀ key, p key = true → (key ∈ listed ↔ key ∈ listed')) :
    (tidy listed).filter p = (tidy listed').filter p := by
  refine Table.eq_of_ascending ((ascending_tidy _).filter p) ((ascending_tidy _).filter p) fun key => ?_
  rw [List.mem_filter, List.mem_filter, mem_tidy_iff, mem_tidy_iff]
  constructor
  · rintro ⟨⟨listed, nonempty⟩, counts⟩
    exact ⟨⟨(same key counts).1 listed, nonempty⟩, counts⟩
  · rintro ⟨⟨listed, nonempty⟩, counts⟩
    exact ⟨⟨(same key counts).2 listed, nonempty⟩, counts⟩

theorem key_of_ends_record {s : Scope} {key : String} {r : Record}
    (h : (s.record key).Ends (.ok r)) : r.key = key := by
  obtain ⟨fetched, -, rfl⟩ := h.of_map
  rfl

/-- The records are those of the keys, in their order. -/
theorem keys_of_ends_mapM {s : Scope} {keys : List String} {records : List Record}
    (h : (keys.mapM s.record).Ends (.ok records)) : records.map Record.key = keys := by
  have each := Plan.Ends.of_mapM h
  clear h
  induction each with
  | nil => rfl
  | cons first _ ih => rw [List.map_cons, key_of_ends_record first, ih]

theorem nodup_of_ends_records {s : Scope} {records : List Record}
    (h : s.records.Ends (.ok records)) : (records.map Record.key).Nodup := by
  obtain ⟨keys, listed, read⟩ := h.of_bind
  obtain ⟨answer, -, rfl⟩ := listed.of_map
  rw [keys_of_ends_mapM read]
  exact nodup_tidy answer

end Scope

namespace BundleConfig

theorem key_of_ends_bundle {c : BundleConfig} {scope : Scope}
    {e : BundleKey × List (String × String)} {found : Option Bundle}
    (h : (c.bundle scope e).Ends (.ok found)) : ∀ b ∈ found, b.key = e.1 := by
  obtain ⟨chosen, -, rfl⟩ := h.of_map
  intro b hb
  obtain ⟨roles, -, rfl⟩ := Option.map_eq_some_iff.1 hb
  rfl

/-- The bundles that are complete have keys among those of the candidates, in their order. -/
theorem sublist_of_ends_mapM {c : BundleConfig} {scope : Scope}
    {es : List (BundleKey × List (String × String))} {found : List (Option Bundle)}
    (h : (es.mapM (c.bundle scope)).Ends (.ok found)) :
    ((found.filterMap id).map Bundle.key).Sublist (es.map Prod.fst) := by
  have each := Plan.Ends.of_mapM h
  clear h
  induction each with
  | nil => exact .slnil
  | @cons e b es found first _ ih =>
    cases b with
    | none => exact ih.cons _
    | some b =>
      have key := key_of_ends_bundle first b rfl
      simp only [List.filterMap_cons, id, List.map_cons, key]
      exact ih.cons_cons _

theorem ascending_of_ends_assemble {c : BundleConfig} {scope : Scope} {bundles : List Bundle}
    (h : (c.assemble scope).Ends (.ok bundles)) : (bundles.map Bundle.key).Pairwise (· < ·) := by
  obtain ⟨keys, -, h⟩ := h.of_bind
  obtain ⟨found, chosen, rfl⟩ := h.of_map
  exact (c.candidates scope keys).ascending_keys.sublist (sublist_of_ends_mapM chosen)

theorem nodup_of_ends_assemble {c : BundleConfig} {scope : Scope} {bundles : List Bundle}
    (h : (c.assemble scope).Ends (.ok bundles)) : (bundles.map Bundle.key).Nodup :=
  Table.nodup_of_ascending (ascending_of_ends_assemble h)

end BundleConfig
end CertWatch
