import CertWatch.Proofs.Envelope
import CertWatch.Proofs.Sealing
import CertWatch.Proofs.Watch.Assembly
import CertWatch.Proofs.Watch.Reading

/-!
# Values that are written anew

A value can be written in many ways: sealed under another nonce, with other bytes before its envelope,
with the envelope spelled or dated otherwise. A record that holds the same value is the same in
substance, and bundles are too as long as the same keys are chosen. For that it is enough that no
modification changes.
-/

namespace CertWatch
set_option autoImplicit false

/-- Stored bytes wrap a payload: they are the payload, or it is sealed under some nonce if the scope has
a key. -/
def Scope.Wraps (s : Scope) (payload raw : Bytes) : Prop :=
  match s.sealKey with
  | none => raw = payload
  | some k => ∃ nonce : Bytes, nonce.length = nonceLength ∧ raw = k.sealWith nonce payload

/-- Payloads that hold one value: they are the same, or hold envelopes with that value. -/
def Envelope.Restated (payload payload' : Bytes) : Prop :=
  payload = payload' ∨
    ∃ e e' : Envelope, e.Holds payload ∧ e'.Holds payload' ∧ e.value = e'.value

theorem Envelope.Restated.value_eq {payload payload' : Bytes} (h : Restated payload payload') :
    (parseOrEmpty payload).value = (parseOrEmpty payload').value := by
  rcases h with rfl | ⟨e, e', holds, holds', same⟩
  · rfl
  · rw [holds.parseOrEmpty, holds'.parseOrEmpty, same]

namespace View

variable {v w : View}

/-- What is read of bytes that wrap a payload is the payload. -/
theorem payload_of_wraps {key : String} {payload raw : Bytes} (stored : v.content.bytes key = some raw)
    (wraps : v.scope.Wraps payload raw) : (v.fetched key).payload = payload := by
  rw [fetched, stored, Option.getD_some]
  show v.opened key raw = payload
  unfold opened
  unfold Scope.Wraps at wraps
  cases sealed : v.scope.sealKey with
  | none =>
    rw [sealed] at wraps
    exact wraps
  | some k =>
    rw [sealed] at wraps
    obtain ⟨nonce, length, rfl⟩ := wraps
    have nonempty : k.sealWith nonce payload ≠ [] := by
      intro empty
      have short := congrArg List.length empty
      rw [SealKey.sealWith, List.length_append, length] at short
      simp [nonceLength] at short
    dsimp only
    rw [if_neg nonempty, k.openSealed_sealWith length]

/-- A content is written anew: it has the same keys, and at each of them the same bytes or bytes that
wrap the same value. -/
structure Rewritten (v w : View) : Prop where
  scope : v.scope = w.scope
  handler : v.handler = w.handler
  keys : v.keys = w.keys
  values : ∀ key ∈ v.keys, v.content.bytes key = w.content.bytes key ∨
    ∃ raw raw' payload payload', v.content.bytes key = some raw ∧ w.content.bytes key = some raw' ∧
      v.scope.Wraps payload raw ∧ v.scope.Wraps payload' raw' ∧ Envelope.Restated payload payload'

namespace Rewritten

variable (h : v.Rewritten w)
include h

theorem value_eq {key : String} (listed : key ∈ v.keys) :
    (v.record key).value = (w.record key).value := by
  rcases h.values key listed with same | ⟨raw, raw', payload, payload', stored, stored', wraps, wraps', restated⟩
  · rw [record_congr h.scope h.handler same]
  · show (Envelope.parseOrEmpty (v.fetched key).payload).value =
      (Envelope.parseOrEmpty (w.fetched key).payload).value
    rw [payload_of_wraps stored wraps, payload_of_wraps stored' (h.scope ▸ wraps'), restated.value_eq]

/-- Records that are written anew are the same in substance. -/
theorem records_eq : (Reading.records v.records).substance = (Reading.records w.records).substance := by
  have values : (v.records.map fun r => (r.key, r.value)) = w.records.map fun r => (r.key, r.value) := by
    rw [records, records, ← h.keys, List.map_map, List.map_map]
    refine List.map_congr_left fun key listed => ?_
    show (key, (v.record key).value) = (key, (w.record key).value)
    rw [h.value_eq listed]
  rw [Reading.substance, Reading.substance, values]

end Rewritten

/-! ## The choice of records -/

end View

/-- The key of a bundle with its roles and the keys of the chosen records. -/
def Bundle.selection (b : Bundle) : BundleKey × List (String × String) :=
  (b.key, b.roles.map fun r => (r.1, r.2.key))

/-- A record without the bytes as they are stored. -/
def Record.bare (r : Record) : Record := { r with raw := [] }

namespace View

variable {v w : View} {c : BundleConfig}

/-- The chosen records are those of their keys. -/
theorem key_of_mem_roles {b : Bundle} (complete : b ∈ v.bundles c) :
    ∀ r ∈ b.roles, r.2.key ∈ v.keys ∧ r.2 = v.record r.2.key := by
  intro r hr
  obtain ⟨key, chosen, same⟩ := (roles_of_mem_bundles complete).2 r hr
  rw [same]
  exact ⟨Scope.mem_tidy_iff.2 ⟨chosen.candidate.listed, chosen.candidate.nonempty⟩, rfl⟩

/-- What is chosen is the selection with the values of its keys. -/
theorem choices_eq : ((v.bundles c).map fun b => (b.key, b.choice)) =
    ((v.bundles c).map Bundle.selection).map fun s =>
      (s.1, s.2.map fun m => (m.1, m.2, (v.record m.2).value)) := by
  rw [List.map_map]
  refine List.map_congr_left fun b complete => ?_
  refine congrArg (Prod.mk b.key) ?_
  show b.roles.map _ = (b.roles.map fun r => (r.1, r.2.key)).map _
  rw [List.map_map]
  refine List.map_congr_left fun r hr => ?_
  show (r.1, r.2.key, r.2.value) = (r.1, r.2.key, (v.record r.2.key).value)
  rw [← (key_of_mem_roles complete r hr).2]

/-- Bundles that are written anew are the same in substance, as long as the same keys are chosen. -/
theorem Rewritten.bundles_eq (h : v.Rewritten w)
    (same : (v.bundles c).map Bundle.selection = (w.bundles c).map Bundle.selection) :
    (Reading.bundles (v.bundles c)).substance = (Reading.bundles (w.bundles c)).substance := by
  have chosen : ((v.bundles c).map fun b => (b.key, b.choice)) =
      (w.bundles c).map fun b => (b.key, b.choice) := by
    rw [choices_eq, choices_eq, ← same]
    refine List.map_congr_left fun s hs => ?_
    obtain ⟨b, complete, rfl⟩ := List.mem_map.1 hs
    refine congrArg (Prod.mk b.key) (List.map_congr_left fun m hm => ?_)
    obtain ⟨r, hr, rfl⟩ := List.mem_map.1 hm
    rw [h.value_eq (key_of_mem_roles complete r hr).1]
  rw [Reading.substance, Reading.substance, chosen]

/-! ## What the choice depends on -/

/-- Which record is better does not depend on the bytes as they are stored. -/
theorem bare_better (best : Option Record) (next : Record) :
    (BundleConfig.better best next).map Record.bare =
      BundleConfig.better (best.map Record.bare) next.bare := by
  unfold BundleConfig.better
  cases best with
  | none => by_cases empty : next.value = [] <;> simp [Record.bare, empty]
  | some b =>
    by_cases empty : next.value = []
    · simp [Record.bare, empty]
    · by_cases later : Timestamp.earlier b.modified next.modified = true
      · simp [Record.bare, empty, later]
      · simp [Record.bare, empty, later]

theorem bare_foldl (rs : List Record) (best : Option Record) :
    (rs.foldl BundleConfig.better best).map Record.bare =
      (rs.map Record.bare).foldl BundleConfig.better (best.map Record.bare) := by
  induction rs generalizing best with
  | nil => rfl
  | cons r rest ih => rw [List.foldl_cons, ih, bare_better, List.map_cons, List.foldl_cons]

/-- Among keys whose records differ only in the bytes as they are stored, the same key is chosen. -/
theorem key_pick_eq {keys : List String}
    (bare : ∀ key ∈ keys, (v.record key).bare = (w.record key).bare) :
    (v.pick keys).map Record.key = (w.pick keys).map Record.key := by
  have keyOf : ∀ u : View, (u.pick keys).map Record.key =
      (((keys.map u.record).map Record.bare).foldl BundleConfig.better none).map Record.key := by
    intro u
    have picked := bare_foldl (keys.map u.record) none
    rw [Option.map_none] at picked
    rw [← picked, Option.map_map]
    rfl
  have records : (keys.map v.record).map Record.bare = (keys.map w.record).map Record.bare := by
    rw [List.map_map, List.map_map]
    exact List.map_congr_left bare
  rw [keyOf, keyOf, records]

theorem keys_pickAll_eq {members : List (String × String)}
    (bare : ∀ m ∈ members, (v.record m.2).bare = (w.record m.2).bare) (roles : List String) :
    (v.pickAll members roles).map (List.map fun r => (r.1, r.2.key)) =
      (w.pickAll members roles).map (List.map fun r => (r.1, r.2.key)) := by
  induction roles with
  | nil => rfl
  | cons role rest ih =>
    have first : (v.pick ((members.filter fun m => m.1 = role).map Prod.snd)).map Record.key =
        (w.pick ((members.filter fun m => m.1 = role).map Prod.snd)).map Record.key := by
      refine key_pick_eq fun key among => ?_
      obtain ⟨m, hm, rfl⟩ := List.mem_map.1 among
      exact bare m (List.mem_filter.1 hm).1
    rw [pickAll_cons, pickAll_cons]
    cases here : v.pick ((members.filter fun m => m.1 = role).map Prod.snd) with
    | none =>
      rw [here, Option.map_none] at first
      rw [Option.map_eq_none_iff.1 first.symm]
      rfl
    | some r =>
      rw [here, Option.map_some] at first
      obtain ⟨r', there, key⟩ := Option.map_eq_some_iff.1 first.symm
      rw [there, Option.bind_some, Option.bind_some, Option.map_map, Option.map_map]
      have cons : ∀ (r : Record) (chosen : Option (List (String × Record))),
          chosen.map ((List.map fun r => (r.1, r.2.key)) ∘ fun rs => (role, r) :: rs) =
            (chosen.map (List.map fun r => (r.1, r.2.key))).map ((role, r.key) :: ·) := by
        intro r chosen
        cases chosen <;> rfl
      rw [cons, cons, ih, key]

/-- Where no modification changes, the same keys are chosen. -/
theorem Rewritten.selections_eq (h : v.Rewritten w)
    (modified : ∀ key ∈ v.keys, (v.record key).modified = (w.record key).modified) :
    (v.bundles c).map Bundle.selection = (w.bundles c).map Bundle.selection := by
  have bare : ∀ key ∈ v.keys, (v.record key).bare = (w.record key).bare := by
    intro key listed
    have value := h.value_eq listed
    have digest : (v.record key).digest = (w.record key).digest := congrArg (Record.digestOf key) value
    rw [Record.bare, Record.bare, value, digest, modified key listed, key_record, key_record]
  have selections : ∀ u : View, (u.bundles c).map Bundle.selection =
      (c.candidates u.scope u.keys).entries.filterMap fun e =>
        ((u.pickAll e.2 c.roles).map (List.map fun r => (r.1, r.2.key))).map (Prod.mk e.1) := by
    intro u
    rw [bundles, List.map_filterMap]
    refine List.filterMap_congr fun e _ => ?_
    cases u.pickAll e.2 c.roles <;> rfl
  rw [selections, selections, ← h.keys, ← h.scope]
  refine List.filterMap_congr fun e found => ?_
  rw [keys_pickAll_eq (fun m among => bare m.2 ?_) c.roles]
  exact (BundleConfig.placed_of_mem_candidates found among).1

end View
end CertWatch
