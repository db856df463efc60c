import CertWatch.Proofs.Watch.Candidates
import CertWatch.Proofs.Watch.Choice
import CertWatch.Proofs.Watch.Listing

/-!
# Assembled bundles

The bundles of a store that does not change are described without saying how they are found: there is
one for each bundle key that has a candidate in every role, and the record for a role is that of the
preferred candidate.
-/

namespace CertWatch
set_option autoImplicit false

namespace View

variable {v : View} {c : BundleConfig} {k : BundleKey} {role key : String}

/-- A key that counts for a role of a bundle: it is listed, its path belongs to the bundle, its
extension is the role, and it has a value. -/
structure IsCandidate (v : View) (root : String) (k : BundleKey) (role key : String) : Prop where
  listed : key ∈ v.content.listed v.scope.pattern
  nonempty : key ≠ ""
  bundle : BundleKey.ofPath? ⟨v.scope.name, key⟩ root = some k
  extension : KeyPath.extension ⟨v.scope.name, key⟩ = some role
  value : (v.record key).value ≠ []

/-- The candidate that is preferred to all others. -/
structure IsChosen (v : View) (root : String) (k : BundleKey) (role key : String) : Prop where
  candidate : v.IsCandidate root k role key
  best : ∀ other, v.IsCandidate root k role other → other ≠ key → v.Prefers key other

/-- The keys that belong to a bundle in a role. -/
def placed (v : View) (c : BundleConfig) (k : BundleKey) (role : String) : List String :=
  v.keys.filter fun key => c.place v.scope key = some (k, role)

theorem ascending_placed (v : View) (c : BundleConfig) (k : BundleKey) (role : String) :
    (v.placed c k role).Pairwise (· < ·) := (Scope.ascending_tidy _).filter _

theorem isCandidate_iff (configured : role ∈ c.roles) :
    v.IsCandidate c.rootFolder k role key ↔ key ∈ v.placed c k role ∧ (v.record key).value ≠ [] := by
  rw [placed, List.mem_filter, decide_eq_true_eq, BundleConfig.place_eq_some_iff, keys,
    Scope.mem_tidy_iff]
  constructor
  · rintro ⟨listed, nonempty, bundle, extension, value⟩
    exact ⟨⟨⟨listed, nonempty⟩, extension, configured, bundle⟩, value⟩
  · rintro ⟨⟨⟨listed, nonempty⟩, extension, -, bundle⟩, value⟩
    exact ⟨listed, nonempty, bundle, extension, value⟩

theorem isChosen_of_isBest (configured : role ∈ c.roles) (h : v.IsBest (v.placed c k role) key) :
    v.IsChosen c.rootFolder k role key where
  candidate := (isCandidate_iff configured).2 ⟨h.mem, h.value⟩
  best other candidate := by
    obtain ⟨listed, value⟩ := (isCandidate_iff configured).1 candidate
    exact h.best other listed value

/-- Choosing for roles gives a record for each, in their order. -/
theorem names_of_pickAll {members : List (String × String)} {roles : List String}
    {chosen : List (String × Record)} (h : v.pickAll members roles = some chosen) :
    chosen.map Prod.fst = roles ∧ ∀ r ∈ chosen,
      v.pick ((members.filter fun m => m.1 = r.1).map Prod.snd) = some r.2 := by
  induction roles generalizing chosen with
  | nil =>
    cases h
    exact ⟨rfl, by simp⟩
  | cons role rest ih =>
    rw [pickAll_cons] at h
    obtain ⟨record, first, h⟩ := Option.bind_eq_some_iff.1 h
    obtain ⟨more, second, rfl⟩ := Option.map_eq_some_iff.1 h
    obtain ⟨names, picked⟩ := ih second
    exact ⟨by rw [List.map_cons, names], List.forall_mem_cons.2 ⟨first, picked⟩⟩

theorem isSome_pickAll_iff {members : List (String × String)} {roles : List String} :
    (v.pickAll members roles).isSome = true ↔ ∀ role ∈ roles,
      (v.pick ((members.filter fun m => m.1 = role).map Prod.snd)).isSome = true := by
  induction roles with
  | nil => simp [pickAll]
  | cons role rest ih =>
    rw [pickAll_cons, List.forall_mem_cons, ← ih]
    cases v.pick ((members.filter fun m => m.1 = role).map Prod.snd) <;> simp

/-- The records that are chosen for the roles of a bundle, if there is one for each. -/
def rolesOf (v : View) (c : BundleConfig) (k : BundleKey) : Option (List (String × Record)) :=
  v.pickAll (c.members v.scope v.keys k) c.roles

theorem isSome_rolesOf_iff : (v.rolesOf c k).isSome = true ↔
    ∀ role ∈ c.roles, ∃ key, v.IsCandidate c.rootFolder k role key := by
  rw [rolesOf, isSome_pickAll_iff]
  refine forall₂_congr fun role configured => ?_
  rw [BundleConfig.keys_of_role]
  have picked := pick_isSome_iff (v := v) (v.ascending_placed c k role)
  exact picked.trans (exists_congr fun key => (isCandidate_iff configured).symm)

theorem members_ne_nil_of_rolesOf (needed : c.roles ≠ []) {chosen : List (String × Record)}
    (h : v.rolesOf c k = some chosen) : c.members v.scope v.keys k ≠ [] := by
  intro nobody
  obtain ⟨role, rest, roles⟩ := List.exists_cons_of_ne_nil needed
  rw [rolesOf, nobody, roles, pickAll_cons] at h
  cases h

/-- A bundle has the records that are chosen for its roles. -/
theorem rolesOf_of_mem_bundles {b : Bundle} (complete : b ∈ v.bundles c) :
    v.rolesOf c b.key = some b.roles := by
  obtain ⟨⟨k, members⟩, listed, found⟩ := List.mem_filterMap.1 complete
  obtain ⟨chosen, all, rfl⟩ := Option.map_eq_some_iff.1 found
  rw [(BundleConfig.mem_candidates_iff.1 listed).1] at all
  exact all

/-- The bundles are those that have a record for each role. -/
theorem mem_bundles_iff (needed : c.roles ≠ []) {b : Bundle} :
    b ∈ v.bundles c ↔ v.rolesOf c b.key = some b.roles := by
  refine ⟨rolesOf_of_mem_bundles, fun chosen => ?_⟩
  have some_ := members_ne_nil_of_rolesOf needed chosen
  refine List.mem_filterMap.2 ⟨(b.key, c.members v.scope v.keys b.key),
    BundleConfig.mem_candidates_iff.2 ⟨rfl, some_⟩, ?_⟩
  exact Option.map_eq_some_iff.2 ⟨b.roles, chosen, rfl⟩

/-- There is a bundle exactly for the keys that have a candidate in each role. -/
theorem mem_keys_bundles_iff (needed : c.roles ≠ []) : k ∈ (v.bundles c).map Bundle.key ↔
    ∀ role ∈ c.roles, ∃ key, v.IsCandidate c.rootFolder k role key := by
  rw [← isSome_rolesOf_iff, List.mem_map, Option.isSome_iff_exists]
  constructor
  · rintro ⟨b, complete, rfl⟩
    exact ⟨b.roles, (mem_bundles_iff needed).1 complete⟩
  · rintro ⟨chosen, all⟩
    exact ⟨⟨k, chosen⟩, (mem_bundles_iff needed).2 all, rfl⟩

/-- The records of a bundle are those of the chosen keys, in the order of the roles. -/
theorem roles_of_mem_bundles {b : Bundle} (complete : b ∈ v.bundles c) :
    b.roles.map Prod.fst = c.roles ∧ ∀ r ∈ b.roles,
      ∃ key, v.IsChosen c.rootFolder b.key r.1 key ∧ r.2 = v.record key := by
  obtain ⟨names, picked⟩ := names_of_pickAll (rolesOf_of_mem_bundles complete)
  refine ⟨names, fun r hr => ?_⟩
  have configured : r.1 ∈ c.roles := names ▸ List.mem_map_of_mem hr
  have found := picked r hr
  rw [BundleConfig.keys_of_role] at found
  obtain ⟨key, best, same⟩ := exists_isBest_of_pick (v.ascending_placed c b.key r.1) found
  exact ⟨key, isChosen_of_isBest configured best, same⟩

end View

theorem BundleConfig.roles_ne_nil {c : BundleConfig} (valid : c.validate = .ok ()) : c.roles ≠ [] := by
  intro none
  unfold validate at valid
  rw [if_pos none] at valid
  split at valid
  · cases valid
  · split at valid <;> cases valid

namespace BundleConfig

open Timestamp (earlier)

/-- **Assembly.** Over a store that does not change and answers every call, acceptable settings put
together exactly one bundle for each bundle key that has a candidate in every role, in strictly
ascending order of the keys. Its records follow the order of the roles, and each is the record of the
candidate that was modified last, of equally late ones that with the smallest key. A bundle was
modified when the last of its records was; that is unknown only if it is unknown for all of them. -/
theorem assemble_spec {c : BundleConfig} (valid : c.validate = .ok ()) (v : View)
    {answer : Nat → (c : Call) → Except Failure c.Answer} (answers : v.content.Answers answer) (n : Nat) :
    ∃ bundles, (c.assemble v.scope).run answer v.handler n = .ok bundles ∧
      (bundles.map Bundle.key).Pairwise (· < ·) ∧
      (∀ k, k ∈ bundles.map Bundle.key ↔
        ∀ role ∈ c.roles, ∃ key, v.IsCandidate c.rootFolder k role key) ∧
      ∀ b ∈ bundles, b.roles.map Prod.fst = c.roles ∧
        (∀ r ∈ b.roles, ∃ key, v.IsChosen c.rootFolder b.key r.1 key ∧ r.2 = v.record key) ∧
        (∀ r ∈ b.roles, ¬ earlier b.modified r.2.modified = true) ∧
        (∃ r ∈ b.roles, b.modified = r.2.modified) ∧
        (b.modified = none ↔ ∀ r ∈ b.roles, r.2.modified = none) := by
  have needed := roles_ne_nil valid
  have assembled := View.yields_bundles answers c n
  have ended := @Plan.ends_run _ answer v.handler (c.assemble v.scope) n
  rw [assembled] at ended
  refine ⟨v.bundles c, assembled, ascending_of_ends_assemble ended,
    fun k => View.mem_keys_bundles_iff needed, fun b complete => ?_⟩
  obtain ⟨names, chosen⟩ := View.roles_of_mem_bundles complete
  have some_ : b.roles ≠ [] := fun none => needed (by rw [← names, none, List.map_nil])
  obtain ⟨last, among, same⟩ := b.exists_modified some_
  refine ⟨names, chosen, b.not_earlier_modified, ⟨last, among, same⟩, ?_⟩
  constructor
  · intro unknown r hr
    have notLater := b.not_earlier_modified r hr
    rw [unknown] at notLater
    cases known : r.2.modified with
    | none => rfl
    | some t => exact absurd (by rw [known]; rfl) notLater
  · intro unknown
    rw [same, unknown last among]

/-- Two certificates for one bundle, of which that in the folder below was modified later. -/
def twoCertificates : Store := .ofList
  [("n/certificates/s/d/x.crt", Utf8.encode "\x7b\"value\":\"QQ==\"\x7d"),
   ("n/certificates/s/d/y/x.crt",
     Utf8.encode "\x7b\"modified\":\"2024-05-01T10:00:00Z\",\"value\":\"Qg==\"\x7d")]

/-- Of two certificates for one bundle, the one that was modified later is taken. -/
theorem assemble_spec_of_two_certificates :
    ({ roles := ["crt"] } : BundleConfig).validate = .ok () ∧
    ∃ bundles, (({ roles := ["crt"] } : BundleConfig).assemble ⟨"n", none⟩).run
        (fun now c => .ok ((⟨twoCertificates, .empty⟩ : Backend).perform now c).2) (fun _ _ => none) 0 =
          .ok bundles ∧
      ∃ b ∈ bundles, b.key = ⟨"s", "d", "x"⟩ ∧
        b.roles.map (fun r => r.2.key) = ["n/certificates/s/d/y/x.crt"] := by
  let v : View := ⟨⟨"n", none⟩, .ofStore twoCertificates, fun _ _ => none⟩
  have valid : ({ roles := ["crt"] } : BundleConfig).validate = .ok () := by decide
  obtain ⟨bundles, assembled, -, keys, each⟩ :=
    assemble_spec valid v (Content.answers_perform ⟨twoCertificates, .empty⟩) 0
  have candidate : v.IsCandidate "certificates" ⟨"s", "d", "x"⟩ "crt" "n/certificates/s/d/y/x.crt" :=
    ⟨by decide +kernel, by decide, by decide, by decide, by decide +kernel⟩
  obtain ⟨b, found, key⟩ := List.mem_map.1
    ((keys ⟨"s", "d", "x"⟩).2 (List.forall_mem_singleton.2 ⟨_, candidate⟩))
  obtain ⟨names, chosen, -⟩ := each b found
  obtain ⟨r, single⟩ : ∃ r, b.roles = [r] := by
    rw [← List.length_eq_one_iff, ← List.length_map (f := Prod.fst), names]
    rfl
  refine ⟨valid, bundles, assembled, b, found, key, ?_⟩
  rw [single, List.map_singleton] at names ⊢
  obtain ⟨taken, best, same⟩ := chosen r (by rw [single]; exact List.mem_singleton_self r)
  have listed : taken = "n/certificates/s/d/x.crt" ∨ taken = "n/certificates/s/d/y/x.crt" := by
    have two : v.content.listed v.scope.pattern =
        ["n/certificates/s/d/x.crt", "n/certificates/s/d/y/x.crt"] := by decide +kernel
    simpa [two] using best.candidate.listed
  rw [same, View.key_record, List.cons.injEq]
  refine ⟨?_, rfl⟩
  rcases listed with rfl | rfl
  · have role : r.1 = "crt" := (List.cons.inj names).1
    rw [key, role] at best
    exact absurd (best.best _ candidate (by decide)) (by decide +kernel)
  · rfl

end BundleConfig
end CertWatch
