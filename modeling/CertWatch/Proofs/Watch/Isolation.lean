import CertWatch.Proofs.Watch.Assembly
import CertWatch.Proofs.Watch.Snapshot

/-!
# One record does not harm the others

Whatever bytes a store holds, a poll fails only with the failure of a listing or of a look-up. And the
bytes at one key matter only for what a poll says about that key, or about the bundle that the key
belongs to: two polls of stores that differ there say the same of everything else.
-/

namespace CertWatch
set_option autoImplicit false

/-! ## What makes a poll fail -/

namespace Scope

/-- The calls of a poll: it lists the keys of the scope and looks keys up. -/
def Asks (s : Scope) (c : Call) : Prop := c = .list s.pattern ∨ ∃ key, c = .get key

variable {s : Scope}

theorem passesOn_keys (s : Scope) : s.keys.PassesOn s.Asks :=
  (Plan.passesOn_ask (c := .list s.pattern) (.inl rfl)).map tidy

theorem passesOn_unwrap (s : Scope) (key : String) (raw : Bytes) :
    (s.unwrap key raw).PassesOn s.Asks := by
  unfold unwrap
  cases s.sealKey with
  | none => exact .done raw
  | some k =>
    dsimp only
    split
    · exact .done raw
    · split
      · exact .done _
      · exact .consult fun bytes => .done _

theorem passesOn_record (s : Scope) (key : String) : (s.record key).PassesOn s.Asks :=
  ((Plan.passesOn_ask (c := .get key) (.inr ⟨key, rfl⟩)).bind fun raw =>
    (s.passesOn_unwrap key (raw.getD [])).map fun payload =>
      (⟨raw.getD [], payload⟩ : Fetched)).map fun f => f.record key

theorem passesOn_records (s : Scope) : s.records.PassesOn s.Asks :=
  s.passesOn_keys.bind fun keys => .mapM s.passesOn_record keys

end Scope

namespace BundleConfig

theorem passesOn_choose (scope : Scope) (keys : List String) (best : Option Record) :
    (choose scope best keys).PassesOn scope.Asks := by
  induction keys generalizing best with
  | nil => exact .done best
  | cons key rest ih => exact (scope.passesOn_record key).bind fun r => ih (better best r)

theorem passesOn_chooseAll (scope : Scope) (members : List (String × String)) (roles : List String) :
    (chooseAll scope members roles).PassesOn scope.Asks := by
  induction roles with
  | nil => exact .done (some [])
  | cons role rest ih =>
    refine (passesOn_choose scope _ none).bind fun chosen => ?_
    cases chosen with
    | none => exact .done none
    | some record => exact ih.map _

theorem passesOn_assemble (c : BundleConfig) (scope : Scope) :
    (c.assemble scope).PassesOn scope.Asks := by
  refine scope.passesOn_keys.bind fun keys => Plan.PassesOn.map ?_ _
  have each : ∀ e, (c.bundle scope e).PassesOn scope.Asks :=
    fun e => (passesOn_chooseAll scope e.2 c.roles).map _
  exact .mapM each _

end BundleConfig

theorem Memory.passesOn_poll (m : Memory) (scope : Scope) : (m.poll scope).PassesOn scope.Asks := by
  cases m with
  | records w => exact (scope.passesOn_records.map w.commit).map _
  | bundles c w => exact ((c.passesOn_assemble scope).map w.commit).map _

/-! ## Two stores that differ at one key -/

namespace ChangeSet

variable {τ κ : Type} [LT κ] [DecidableEq κ]

/-- The changes except those of one key. -/
def without (key : τ → κ) (k : κ) (c : ChangeSet τ κ) : ChangeSet τ κ where
  added := c.added.filter fun a => key a ≠ k
  updated := c.updated.filter fun a => key a ≠ k
  removed := c.removed.filter fun j => j ≠ k

variable {key : τ → κ} {digest : τ → Digest} {previous : Table κ Digest} {current other : List τ} {k : κ}

omit [LT κ] in
/-- Listings with the same items outside of one key have the same other keys. -/
theorem mem_keys_of_filter_eq (same : (current.filter fun a => key a ≠ k) = other.filter fun a => key a ≠ k)
    {j : κ} (ne : j ≠ k) : j ∈ current.map key ↔ j ∈ other.map key := by
  have outside : ∀ items : List τ, j ∈ items.map key ↔ j ∈ (items.filter fun a => key a ≠ k).map key := by
    intro items
    simp only [List.mem_map, List.mem_filter, decide_eq_true_eq]
    constructor
    · rintro ⟨a, ha, rfl⟩
      exact ⟨a, ⟨ha, ne⟩, rfl⟩
    · rintro ⟨a, ⟨ha, -⟩, rfl⟩
      exact ⟨a, ha, rfl⟩
  rw [outside current, outside other, same]

/-- Changes to listings with the same items outside of one key are the same outside of that key. -/
theorem without_changes
    (same : (current.filter fun a => key a ≠ k) = other.filter fun a => key a ≠ k) :
    (changes key digest previous current).without key k =
      (changes key digest previous other).without key k := by
  have picked : ∀ pick : κ × τ → Bool,
      (((current.map fun a => (key a, a)).filter pick).map Prod.snd).filter (fun a => key a ≠ k) =
        (((other.map fun a => (key a, a)).filter pick).map Prod.snd).filter fun a => key a ≠ k := by
    intro pick
    rw [picked_eq, picked_eq, List.filter_comm, same, List.filter_comm]
  have removed : (removedFrom previous (current.map fun a => (key a, a))).filter (fun j => j ≠ k) =
      (removedFrom previous (other.map fun a => (key a, a))).filter fun j => j ≠ k := by
    rw [removedFrom, removedFrom, List.filter_filter, List.filter_filter]
    apply List.filter_congr
    intro j _
    by_cases here : j = k
    · simp [here]
    · have listed := mem_keys_of_filter_eq same here
      simp only [List.mem_map] at listed
      simp [here, listed]
  simp only [without, changes, between, addedTo, updatedIn, picked, removed]

end ChangeSet

namespace View

/-- Two views that differ at most in the bytes at one key. -/
structure DifferAt (v w : View) (k : String) : Prop where
  scope : v.scope = w.scope
  handler : v.handler = w.handler
  listed : v.content.listed = w.content.listed
  elsewhere : ∀ key, key ≠ k → v.content.bytes key = w.content.bytes key

namespace DifferAt

variable {v w : View} {k : String} (h : v.DifferAt w k)
include h

theorem keys : v.keys = w.keys := by rw [View.keys, View.keys, h.listed, h.scope]

theorem record {key : String} (ne : key ≠ k) : v.record key = w.record key :=
  record_congr h.scope h.handler (h.elsewhere key ne)

theorem records : (v.records.filter fun r => r.key ≠ k) = w.records.filter fun r => r.key ≠ k := by
  rw [View.records, View.records, ← h.keys, List.filter_map, List.filter_map]
  refine List.map_congr_left fun key outside => h.record fun same => ?_
  simp [same] at outside

/-- Bundles that the key does not belong to are found in both stores. -/
theorem bundles (c : BundleConfig) (outside : BundleKey → Bool)
    (elsewhere : ∀ bundle role, c.place v.scope k = some (bundle, role) → outside bundle = false) :
    ((v.bundles c).filter fun b => outside b.key) = (w.bundles c).filter fun b => outside b.key := by
  rw [View.bundles, View.bundles, ← h.keys, ← h.scope, List.filter_filterMap, List.filter_filterMap]
  refine List.filterMap_congr fun e listed => ?_
  by_cases here : outside e.1 = true
  · rw [View.pickAll_congr (fun m among => h.record ?_) c.roles]
    intro same
    have placed := (BundleConfig.placed_of_mem_candidates listed among).2
    rw [same] at placed
    rw [elsewhere _ _ placed] at here
    cases here
  · have dropped : ∀ chosen : Option (List (String × Record)),
        (chosen.map (Bundle.mk e.1)).filter (fun b => outside b.key) = none := by
      intro chosen
      cases chosen <;> simp [Option.filter, here]
    rw [dropped, dropped]

end DifferAt
end View

/-- **Isolation.** Whatever is stored, and whatever the calls of a poll are answered, the poll fails
only as a listing of the scope or a look-up failed. And if two stores hold the same keys and the same
bytes except at one key, then polls of both from one snapshot, with one handler that decides by the
key and the failure, both succeed and find the same changes, in the same order, except those of that
key, or of the bundle that the key belongs to; if it belongs to none they find the same bundles
throughout. -/
theorem isolated {v w : View} {k : String} (differ : v.DifferAt w k)
    {answer answer' : Nat → (c : Call) → Except Failure c.Answer} (answers : v.content.Answers answer)
    (answers' : w.content.Answers answer') (config : BundleConfig) (n n' : Nat) :
    (∀ (m : Memory) (ask : Nat → (c : Call) → Except Failure c.Answer) (f : Failure),
      (m.poll v.scope).run ask v.handler n = .error f →
        ∃ i, n ≤ i ∧ (ask i (.list v.scope.pattern) = .error f ∨ ∃ key, ask i (.get key) = .error f)) ∧
    (∀ known : RecordWatch, ∃ found found',
      (known.poll v.scope).run answer v.handler n = .ok found ∧
      (known.poll w.scope).run answer' w.handler n' = .ok found' ∧
      found.2.without Record.key k = found'.2.without Record.key k) ∧
    ∀ known : BundleWatch, ∃ found found',
      (known.poll config v.scope).run answer v.handler n = .ok found ∧
      (known.poll config w.scope).run answer' w.handler n' = .ok found' ∧
      match config.place v.scope k with
      | some (bundle, _) => found.2.without Bundle.key bundle = found'.2.without Bundle.key bundle
      | none => found.2 = found'.2 := by
  refine ⟨fun m ask f failed => ?_, fun known => ?_, fun known => ?_⟩
  · obtain ⟨i, c, later, asked, failed⟩ := (m.passesOn_poll v.scope).exists_failed_call failed
    rcases asked with rfl | ⟨key, rfl⟩
    · exact ⟨i, later, .inl failed⟩
    · exact ⟨i, later, .inr ⟨key, failed⟩⟩
  · exact ⟨_, _, (View.yields_records answers).map known.commit n,
      (View.yields_records answers').map known.commit n', ChangeSet.without_changes differ.records⟩
  · refine ⟨_, _, (View.yields_bundles answers config).map known.commit n,
      (View.yields_bundles answers' config).map known.commit n', ?_⟩
    cases belongs : config.place v.scope k with
    | none =>
      have same := differ.bundles config (fun _ => true) (by simp [belongs])
      simp only [List.filter_true] at same
      rw [same]
    | some at_ =>
      refine ChangeSet.without_changes (differ.bundles config (fun b => b ≠ at_.1) ?_)
      intro bundle role placed
      cases belongs.symm.trans placed
      simp

/-- Bytes that are too short to be opened, and others, at one of two keys: the polls succeed, and find
the same for the other key. -/
theorem isolated_of_short_bytes :
    let scope : Scope := ⟨"n", some ⟨List.replicate 32 0, rfl⟩⟩
    let answer (short : Bytes) (_ : Nat) : (c : Call) → Except Failure c.Answer
      | .list _ => .ok ["n/a", "n/b"]
      | .get key => .ok (some (if key = "n/b" then short else []))
      | _ => .error .cancelled
    ∃ found found',
      (RecordWatch.poll {} scope).run (answer [1]) (fun _ _ => none) 0 = .ok found ∧
      (RecordWatch.poll {} scope).run (answer [2, 3]) (fun _ _ => none) 0 = .ok found' ∧
      found.2.without Record.key "n/b" = found'.2.without Record.key "n/b" := by
  intro scope answer
  let view (short : Bytes) : View :=
    ⟨scope, ⟨fun _ => ["n/a", "n/b"], fun key => some (if key = "n/b" then short else [])⟩,
      fun _ _ => none⟩
  have differ : (view [1]).DifferAt (view [2, 3]) "n/b" := by
    refine ⟨rfl, rfl, rfl, fun key ne => ?_⟩
    simp [view, ne]
  have answers : ∀ short, (view short).content.Answers (answer short) :=
    fun short => ⟨fun _ _ => rfl, fun _ _ => rfl⟩
  obtain ⟨-, records, -⟩ := isolated differ (answers [1]) (answers [2, 3]) {} 0 0
  exact records {}

end CertWatch
