import CertWatch.Proofs.Digest
import CertWatch.Proofs.Text.Utf8
import CertWatch.Proofs.Watch.Snapshot
import CertWatch.Proofs.Watch.View

/-!
# What a poll reads

A poll first reads and then compares what it read with its memory. Of what it read the memory keeps
the digests. The digests of two readings agree exactly if the readings agree in substance, that is in
the values by key, or in the chosen records by bundle, unless the hash does not tell two of the
messages apart that the readings have digests of.
-/

namespace CertWatch
set_option autoImplicit false

namespace Record

/-- What the digest of a record covers. -/
def fields (r : Record) : List Bytes := [Utf8.encode r.key, r.value]

/-- The digest of a record is that of its key and value. -/
def Digested (r : Record) : Prop := r.digest = Digest.ofFields r.fields

theorem digested_of_ends {s : Scope} {key : String} {r : Record} (h : (s.record key).Ends (.ok r)) :
    r.Digested := by
  obtain ⟨fetched, -, rfl⟩ := h.of_map
  rfl

theorem eq_of_fields {r s : Record} (same : r.fields = s.fields) : r.key = s.key ∧ r.value = s.value := by
  obtain ⟨keys, values⟩ := List.cons.inj same
  exact ⟨Utf8.encode_inj keys, (List.cons.inj values).1⟩

end Record

namespace Bundle

/-- What the digest of a bundle covers. -/
def fields (b : Bundle) : List Bytes :=
  b.key.parts.map Utf8.encode ++ b.roles.map fun r => r.2.digest.bytes

/-- The roles of a bundle with the keys and the values of the chosen records. -/
def choice (b : Bundle) : List (String × String × Bytes) := b.roles.map fun r => (r.1, r.2.key, r.2.value)

/-- The keys and the values of the chosen records, in the order of the roles. -/
def contents (b : Bundle) : List (String × Bytes) := b.roles.map fun r => (r.2.key, r.2.value)

theorem contents_eq (b : Bundle) : b.contents = b.choice.map Prod.snd := by
  simp [contents, choice, Function.comp_def]

end Bundle

/-- What a poll reads: the records of a scope, or its bundles. -/
inductive Reading where
  | records (records : List Record)
  | bundles (bundles : List Bundle)

/-- What there is to a reading for those who watch: the value of each key, or the records that are
chosen for each bundle. -/
inductive Substance where
  | records (values : Table String Bytes)
  | bundles (chosen : Table BundleKey (List (String × String × Bytes)))

namespace Memory

/-- What a watcher watches: records, or the bundles of some settings. -/
def kind : Memory → Option BundleConfig
  | records _ => none
  | bundles config _ => some config

/-- Reads what is watched. -/
def reading (scope : Scope) : Memory → Plan Reading
  | records _ => do return .records (← scope.records)
  | bundles config _ => do return .bundles (← config.assemble scope)

/-- Takes a reading over, which must be of what is watched; the answer is what changed. -/
def commit : Memory → Reading → Memory × Changes
  | records w, .records current => (records (w.commit current).1, .records (w.commit current).2)
  | bundles c w, .bundles current => (bundles c (w.commit current).1, .bundles (w.commit current).2)
  | m, _ => (m, .records ⟨[], [], []⟩)

/-- A poll reads and takes over what it read. -/
theorem poll_eq (m : Memory) (scope : Scope) :
    m.poll scope = do return m.commit (← m.reading scope) := by
  cases m with
  | records w => simp [poll, RecordWatch.poll, reading, commit]
  | bundles c w => simp [poll, BundleWatch.poll, reading, commit]

end Memory

namespace Reading

/-- Nothing was read yet. -/
def blank : Option BundleConfig → Reading
  | none => records []
  | some _ => bundles []

/-- The digests by key. -/
def snapshot : Reading → Snapshot
  | records rs => .records (ChangeSet.snapshot Record.key Record.digest rs)
  | bundles bs => .bundles (ChangeSet.snapshot Bundle.key Bundle.digest bs)

/-- The values by key, or the chosen records by bundle. -/
def substance : Reading → Substance
  | records rs => .records (.ofList (rs.map fun r => (r.key, r.value)))
  | bundles bs => .bundles (.ofList (bs.map fun b => (b.key, b.choice)))

/-- The lists of fields that a reading has digests of. -/
def hashed : Reading → List (List Bytes)
  | records rs => rs.map Record.fields
  | bundles bs => bs.flatMap fun b => b.fields :: b.roles.map fun r => r.2.fields

/-- A reading that a poll can end with, by what is watched. -/
inductive Of : Option BundleConfig → Reading → Prop where
  | records {rs : List Record} (distinct : (rs.map Record.key).Nodup) (digested : ∀ r ∈ rs, r.Digested) :
      Of none (.records rs)
  | bundles {c : BundleConfig} {bs : List Bundle} (distinct : (bs.map Bundle.key).Nodup)
      (roles : ∀ b ∈ bs, b.roles.map Prod.fst = c.roles)
      (digested : ∀ b ∈ bs, ∀ r ∈ b.roles, r.2.Digested) : Of (some c) (.bundles bs)

theorem of_blank (kind : Option BundleConfig) : Of kind (blank kind) := by
  cases kind with
  | none => exact .records List.nodup_nil (by simp)
  | some c => exact .bundles List.nodup_nil (by simp) (by simp)

end Reading

/-! ## Readings of polls -/

namespace BundleConfig

variable {c : BundleConfig} {scope : Scope}

/-- What is chosen was the best before or is the record of a key. -/
theorem digested_of_ends_choose {keys : List String} {best chosen : Option Record}
    (h : (choose scope best keys).Ends (.ok chosen)) (before : ∀ r ∈ best, r.Digested) :
    ∀ r ∈ chosen, r.Digested := by
  induction keys generalizing best with
  | nil =>
    cases h
    exact before
  | cons key rest ih =>
    obtain ⟨next, read, h⟩ := h.of_bind
    refine ih h fun r hr => ?_
    have among : r ∈ best ∨ r = next := by
      unfold better at hr
      split at hr
      · exact .inl hr
      · split at hr
        · exact .inr (Option.some.inj hr).symm
        · split at hr
          · exact .inr (Option.some.inj hr).symm
          · exact .inl hr
    rcases among with old | rfl
    · exact before r old
    · exact Record.digested_of_ends read

/-- If there is a record for each role, these are the roles in their order. -/
theorem roles_of_ends_chooseAll {members : List (String × String)} {roles : List String}
    {chosen : Option (List (String × Record))} (h : (chooseAll scope members roles).Ends (.ok chosen)) :
    ∀ rs ∈ chosen, rs.map Prod.fst = roles ∧ ∀ r ∈ rs, r.2.Digested := by
  induction roles generalizing chosen with
  | nil =>
    cases h
    rintro rs ⟨⟩
    exact ⟨rfl, by simp⟩
  | cons role rest ih =>
    obtain ⟨found, first, h⟩ := h.of_bind
    have digested := digested_of_ends_choose first (by simp)
    cases found with
    | none =>
      cases h
      rintro rs ⟨⟩
    | some record =>
      obtain ⟨more, second, rfl⟩ := h.of_map
      intro rs hrs
      obtain ⟨others, there, rfl⟩ := Option.map_eq_some_iff.1 hrs
      obtain ⟨names, later⟩ := ih second others there
      exact ⟨by rw [List.map_cons, names], List.forall_mem_cons.2 ⟨digested record rfl, later⟩⟩

theorem roles_of_ends_assemble {bundles : List Bundle} (h : (c.assemble scope).Ends (.ok bundles)) :
    ∀ b ∈ bundles, b.roles.map Prod.fst = c.roles ∧ ∀ r ∈ b.roles, r.2.Digested := by
  obtain ⟨keys, -, h⟩ := h.of_bind
  obtain ⟨found, chosen, rfl⟩ := h.of_map
  intro b hb
  obtain ⟨_, among, rfl⟩ := List.mem_filterMap.1 hb
  obtain ⟨e, -, ended⟩ := Plan.Ends.exists_of_mem_mapM chosen among
  obtain ⟨picked, all, same⟩ := ended.of_map
  obtain ⟨roles, there, rfl⟩ := Option.map_eq_some_iff.1 same.symm
  exact roles_of_ends_chooseAll all roles there

end BundleConfig

theorem Memory.of_ends_reading {m : Memory} {scope : Scope} {r : Reading}
    (h : (m.reading scope).Ends (.ok r)) : r.Of m.kind := by
  cases m with
  | records w =>
    obtain ⟨rs, read, rfl⟩ := h.of_map
    refine .records (Scope.nodup_of_ends_records read) fun r hr => ?_
    obtain ⟨keys, -, read⟩ := read.of_bind
    obtain ⟨key, -, read⟩ := Plan.Ends.exists_of_mem_mapM read hr
    exact Record.digested_of_ends read
  | bundles c w =>
    obtain ⟨bs, assembled, rfl⟩ := h.of_map
    have each := BundleConfig.roles_of_ends_assemble assembled
    exact .bundles (BundleConfig.nodup_of_ends_assemble assembled) (fun b hb => (each b hb).1)
      fun b hb => (each b hb).2

/-- A memory that takes a reading over has its snapshot, and finds changes exactly if it had another. -/
theorem Memory.commit_spec {m : Memory} {r : Reading} (h : r.Of m.kind) :
    (m.commit r).1.kind = m.kind ∧ (m.commit r).1.snapshot = r.snapshot ∧
      ((m.commit r).2.isEmpty = true ↔ m.snapshot = r.snapshot) := by
  cases m with
  | records w =>
    obtain ⟨distinct, -⟩ | _ := h
    refine ⟨rfl, rfl, ?_⟩
    have found : (ChangeSet.changes Record.key Record.digest w.known _).isEmpty = true ↔
        w.known = ChangeSet.snapshot Record.key Record.digest _ := ChangeSet.isEmpty_changes_iff distinct
    simp only [snapshot, Reading.snapshot, Snapshot.records.injEq]
    exact found
  | bundles c w =>
    obtain _ | ⟨distinct, -, -⟩ := h
    refine ⟨rfl, congrArg Snapshot.bundles (w.digests_commit distinct), ?_⟩
    have found : (ChangeSet.changes Bundle.key Bundle.digest (w.previous.map Bundle.digest) _).isEmpty =
        true ↔ w.previous.map Bundle.digest = ChangeSet.snapshot Bundle.key Bundle.digest _ :=
      ChangeSet.isEmpty_changes_iff distinct
    simp only [snapshot, Reading.snapshot, Snapshot.bundles.injEq]
    exact found

/-! ## Digests and substance -/

/-- Lists with the same images under one function have the same images under another, if the one tells what
the other does. -/
theorem map_eq_of_map_eq {α β γ : Type} {f : α → β} {g : α → γ} {as bs : List α} (same : as.map f = bs.map f)
    (tell : ∀ a ∈ as, ∀ b ∈ bs, f a = f b → g a = g b) : as.map g = bs.map g := by
  induction as generalizing bs with
  | nil =>
    obtain rfl := List.map_eq_nil_iff.1 same.symm
    rfl
  | cons a rest ih =>
    obtain ⟨b, rest', rfl, here, there⟩ := List.map_eq_cons_iff.1 same.symm
    have more := ih there.symm fun c hc d hd =>
      tell c (List.mem_cons_of_mem a hc) d (List.mem_cons_of_mem b hd)
    rw [List.map_cons, List.map_cons, tell a List.mem_cons_self b List.mem_cons_self here.symm, more]

theorem Record.digest_eq {a b : Record} (ha : a.Digested) (hb : b.Digested) (keys : a.key = b.key)
    (values : a.value = b.value) : a.digest = b.digest := by
  rw [ha, hb, fields, fields, keys, values]

namespace Bundle

variable {b b' : Bundle}

/-- The keys and the values of the records determine the digest, with the key of the bundle. -/
theorem digest_of_contents (digested : ∀ r ∈ b.roles, r.2.Digested) :
    b.digest = Digest.ofFields (b.key.parts.map Utf8.encode ++
      b.contents.map fun e => (Record.digestOf e.1 e.2).bytes) := by
  have digests : b.roles.map (fun r => r.2.digest.bytes) =
      b.contents.map fun e => (Record.digestOf e.1 e.2).bytes := by
    rw [contents, List.map_map]
    refine List.map_congr_left fun r hr => ?_
    rw [digested r hr]
    rfl
  rw [digest, digests]

theorem digest_eq (digested : ∀ r ∈ b.roles, r.2.Digested) (digested' : ∀ r ∈ b'.roles, r.2.Digested)
    (keys : b.key = b'.key) (contents : b.contents = b'.contents) : b.digest = b'.digest := by
  rw [digest_of_contents digested, digest_of_contents digested', keys, contents]

/-- Roles with the same names and digests have the same keys and values, if the digests tell. -/
theorem choice_eq {rs rs' : List (String × Record)} (names : rs.map Prod.fst = rs'.map Prod.fst)
    (digests : rs.map (fun r => r.2.digest.bytes) = rs'.map fun r => r.2.digest.bytes)
    (tell : ∀ r ∈ rs, ∀ r' ∈ rs', r.2.digest = r'.2.digest →
      r.2.key = r'.2.key ∧ r.2.value = r'.2.value) :
    (rs.map fun r => (r.1, r.2.key, r.2.value)) = rs'.map fun r => (r.1, r.2.key, r.2.value) := by
  have contents : (rs.map fun r => (r.2.key, r.2.value)) = rs'.map fun r => (r.2.key, r.2.value) :=
    map_eq_of_map_eq digests fun r hr r' hr' digest =>
      Prod.ext_iff.2 (tell r hr r' hr' (Digest.eq_of_bytes digest))
  have zipped := congrArg₂ List.zip names contents
  rwa [List.zip_map', List.zip_map'] at zipped

end Bundle

namespace Reading

open Digest (Distinguishes)

variable {kind : Option BundleConfig} {r r' : Reading}

/-- Readings that agree in substance have the same digests. -/
theorem Of.snapshot_eq (h : r.Of kind) (h' : r'.Of kind) (same : r.substance = r'.substance) :
    r.snapshot = r'.snapshot := by
  cases h with
  | records distinct digested =>
    obtain ⟨distinct', digested'⟩ | _ := h'
    refine congrArg Snapshot.records (Table.ofList_map_eq distinct distinct' ?_ (Substance.records.inj same))
    intro a ha b hb keys values
    exact Record.digest_eq (digested a ha) (digested' b hb) keys values
  | bundles distinct roles digested =>
    obtain _ | ⟨distinct', roles', digested'⟩ := h'
    refine congrArg Snapshot.bundles (Table.ofList_map_eq distinct distinct' ?_ (Substance.bundles.inj same))
    intro a ha b hb keys chosen
    refine Bundle.digest_eq (digested a ha) (digested' b hb) keys ?_
    rw [Bundle.contents_eq, Bundle.contents_eq, chosen]

/-- Readings with the same digests agree in substance, if the hash tells their messages apart. -/
theorem Of.substance_eq (h : r.Of kind) (h' : r'.Of kind) (tells : Distinguishes (r.hashed ++ r'.hashed))
    (same : r.snapshot = r'.snapshot) : r.substance = r'.substance := by
  have equal : ∀ fields ∈ r.hashed, ∀ fields' ∈ r'.hashed,
      Digest.ofFields fields = Digest.ofFields fields' → fields = fields' :=
    fun fields among fields' among' =>
      tells.eq_of_ofFields (List.mem_append_left _ among) (List.mem_append_right _ among')
  cases h with
  | records distinct digested =>
    obtain ⟨distinct', digested'⟩ | _ := h'
    refine congrArg Substance.records (Table.ofList_map_eq distinct distinct' ?_ (Snapshot.records.inj same))
    intro a ha b hb _ digests
    rw [digested a ha, digested' b hb] at digests
    exact (Record.eq_of_fields
      (equal _ (List.mem_map_of_mem ha) _ (List.mem_map_of_mem hb) digests)).2
  | @bundles c bs distinct roles digested =>
    obtain _ | @⟨_, bs', distinct', roles', digested'⟩ := h'
    refine congrArg Substance.bundles (Table.ofList_map_eq distinct distinct' ?_ (Snapshot.bundles.inj same))
    intro a ha b hb _ digests
    have among : ∀ {bs : List Bundle} {b : Bundle}, b ∈ bs → b.fields ∈ (Reading.bundles bs).hashed ∧
        ∀ r ∈ b.roles, r.2.fields ∈ (Reading.bundles bs).hashed := by
      intro bs b hb
      refine ⟨List.mem_flatMap.2 ⟨b, hb, List.mem_cons_self⟩, fun r hr => ?_⟩
      exact List.mem_flatMap.2 ⟨b, hb, List.mem_cons_of_mem _ (List.mem_map_of_mem hr)⟩
    have fields : a.fields = b.fields := equal _ (among ha).1 _ (among hb).1 digests
    obtain ⟨-, digests⟩ := List.append_inj fields (by simp [BundleKey.parts])
    refine Bundle.choice_eq ((roles a ha).trans (roles' b hb).symm) digests fun r hr r' hr' digest => ?_
    rw [digested a ha r hr, digested' b hb r' hr'] at digest
    exact Record.eq_of_fields (equal _ ((among ha).2 r hr) _ ((among hb).2 r' hr') digest)

end Reading

/-! ## Reading a store that does not change -/

namespace View

/-- What there is to read. -/
def reading (v : View) : Option BundleConfig → Reading
  | none => .records v.records
  | some c => .bundles (v.bundles c)

theorem yields_reading {v : View} {answer : Nat → (c : Call) → Except Failure c.Answer}
    (h : v.content.Answers answer) (m : Memory) :
    Plan.Yields answer v.handler (m.reading v.scope) (v.reading m.kind) := by
  cases m with
  | records w => exact (yields_records h).map Reading.records
  | bundles c w => exact (yields_bundles h c).map Reading.bundles

theorem of_reading (v : View) (m : Memory) : (v.reading m.kind).Of m.kind := by
  have ended := @Plan.ends_run _ v.content.answer v.handler (m.reading v.scope) 0
  rw [yields_reading v.content.answers_answer m 0] at ended
  exact Memory.of_ends_reading ended

end View
end CertWatch
