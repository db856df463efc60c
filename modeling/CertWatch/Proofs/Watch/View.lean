import CertWatch.Proofs.Plan
import CertWatch.Watch.Watcher

/-!
# A store that does not change

While a store stays as it is and answers every call, what a poll reads is a function of the content of
the store. `View` holds what that function depends on, and the functions of a view say without any
calls what the plans of a scope end with: `yields_record`, `yields_records` and `yields_bundles`.
-/

namespace CertWatch
set_option autoImplicit false

/-- What a store holds: the keys that it lists for a pattern, in any order, some of them perhaps
several times or empty, and the bytes at each key. -/
structure Content where
  listed : String → List String
  bytes : String → Option Bytes

namespace Content

/-- Every listing and every look-up is answered from the content. -/
structure Answers (c : Content) (answer : Nat → (c : Call) → Except Failure c.Answer) : Prop where
  list (n : Nat) (pattern : String) : answer n (.list pattern) = .ok (c.listed pattern)
  get (n : Nat) (key : String) : answer n (.get key) = .ok (c.bytes key)

/-- Answers listings and look-ups from the content, and no other call. -/
def answer (c : Content) (_ : Nat) : (call : Call) → Except Failure call.Answer
  | .list pattern => .ok (c.listed pattern)
  | .get key => .ok (c.bytes key)
  | .set .. => .error .cancelled
  | .tryAcquire .. => .error .cancelled
  | .renew .. => .error .cancelled
  | .release .. => .error .cancelled

theorem answers_answer (c : Content) : c.Answers c.answer where
  list _ _ := rfl
  get _ _ := rfl

/-- The content of a store in memory. -/
def ofStore (s : Store) : Content := ⟨s.list, s.get?⟩

/-- A backend that nobody writes to answers from the content of its store. -/
theorem answers_perform (b : Backend) :
    (ofStore b.store).Answers fun now c => .ok (b.perform now c).2 where
  list _ _ := rfl
  get _ _ := rfl

end Content

/-- A scope over a store that does not change, and a handler that decides by the key and the failure
what bytes to take instead of those that cannot be opened. -/
structure View where
  scope : Scope
  content : Content
  handler : String → DecryptFailure → Option Bytes

namespace View

/-- The keys of the scope. -/
def keys (v : View) : List String := Scope.tidy (v.content.listed v.scope.pattern)

/-- The bytes of the envelope in stored bytes. -/
def opened (v : View) (key : String) (raw : Bytes) : Bytes :=
  match v.scope.sealKey with
  | none => raw
  | some k =>
    if raw = [] then raw
    else match k.openSealed raw with
      | .ok plain => plain
      | .error failure => (v.handler key failure).getD []

/-- What reading a key gives. -/
def fetched (v : View) (key : String) : Fetched :=
  let raw := (v.content.bytes key).getD []
  ⟨raw, v.opened key raw⟩

/-- The record of a key. -/
def record (v : View) (key : String) : Record := (v.fetched key).record key

/-- The records of all keys, in their order. -/
def records (v : View) : List Record := v.keys.map v.record

/-- The record that is chosen among keys. -/
def pick (v : View) (keys : List String) : Option Record :=
  (keys.map v.record).foldl BundleConfig.better none

/-- The records that are chosen for roles, if there is one for each. -/
def pickAll (v : View) (members : List (String × String)) (roles : List String) :
    Option (List (String × Record)) :=
  roles.mapM fun role =>
    (v.pick ((members.filter fun m => m.1 = role).map Prod.snd)).map (role, ·)

/-- The complete bundles, in the order of their keys. -/
def bundles (v : View) (c : BundleConfig) : List Bundle :=
  (c.candidates v.scope v.keys).entries.filterMap fun e =>
    (v.pickAll e.2 c.roles).map (Bundle.mk e.1)

theorem pickAll_cons (v : View) (members : List (String × String)) (role : String)
    (rest : List String) : v.pickAll members (role :: rest) =
      (v.pick ((members.filter fun m => m.1 = role).map Prod.snd)).bind fun record =>
        (v.pickAll members rest).map ((role, record) :: ·) := by
  unfold pickAll
  rw [List.mapM_cons]
  cases v.pick ((members.filter fun m => m.1 = role).map Prod.snd) with
  | none => rfl
  | some record =>
    cases rest.mapM fun role =>
      (v.pick ((members.filter fun m => m.1 = role).map Prod.snd)).map (role, ·) <;> rfl

/-- What is read of a key depends on the bytes there, the scope and the handler. -/
theorem record_congr {v w : View} (scope : v.scope = w.scope) (handler : v.handler = w.handler)
    {key : String} (bytes : v.content.bytes key = w.content.bytes key) : v.record key = w.record key := by
  have opened : v.opened = w.opened := by
    funext key raw
    rw [View.opened, View.opened, scope, handler]
  rw [record, record, fetched, fetched, bytes, opened]

/-- What is chosen depends only on the records of the members. -/
theorem pickAll_congr {v w : View} {members : List (String × String)}
    (same : ∀ m ∈ members, v.record m.2 = w.record m.2) (roles : List String) :
    v.pickAll members roles = w.pickAll members roles := by
  have picked : ∀ role, v.pick ((members.filter fun m => m.1 = role).map Prod.snd) =
      w.pick ((members.filter fun m => m.1 = role).map Prod.snd) := by
    intro role
    rw [pick, pick]
    congr 1
    refine List.map_congr_left fun key among => ?_
    obtain ⟨m, hm, rfl⟩ := List.mem_map.1 among
    exact same m (List.mem_filter.1 hm).1
  simp only [pickAll, picked]

@[simp] theorem key_record (v : View) (key : String) : (v.record key).key = key := rfl

variable {v : View} {answer : Nat → (c : Call) → Except Failure c.Answer}

theorem yields_keys (h : v.content.Answers answer) :
    Plan.Yields answer v.handler v.scope.keys v.keys := by
  have listed : Plan.Yields answer v.handler (Plan.ask (.list v.scope.pattern))
      (v.content.listed v.scope.pattern) := fun n => h.list n _
  exact listed.map Scope.tidy

theorem yields_unwrap (answer : Nat → (c : Call) → Except Failure c.Answer) (key : String) (raw : Bytes) :
    Plan.Yields answer v.handler (v.scope.unwrap key raw) (v.opened key raw) := by
  intro n
  unfold Scope.unwrap opened
  cases v.scope.sealKey with
  | none => rfl
  | some k =>
    dsimp only
    by_cases blank : raw = []
    · rw [if_pos blank, if_pos blank]
      rfl
    · rw [if_neg blank, if_neg blank]
      cases k.openSealed raw <;> rfl

theorem yields_record (h : v.content.Answers answer) (key : String) :
    Plan.Yields answer v.handler (v.scope.record key) (v.record key) := by
  have asked : Plan.Yields answer v.handler (Plan.ask (.get key)) (v.content.bytes key) :=
    fun n => h.get n key
  have fetched : Plan.Yields answer v.handler (v.scope.fetch key) (v.fetched key) :=
    asked.bind ((yields_unwrap answer key _).map _)
  exact fetched.map _

theorem yields_records (h : v.content.Answers answer) :
    Plan.Yields answer v.handler v.scope.records v.records :=
  (yields_keys h).bind (.mapM fun key _ => yields_record h key)

theorem yields_choose (h : v.content.Answers answer) (keys : List String) (best : Option Record) :
    Plan.Yields answer v.handler (BundleConfig.choose v.scope best keys)
      ((keys.map v.record).foldl BundleConfig.better best) := by
  induction keys generalizing best with
  | nil => exact Plan.yields_pure best
  | cons key rest ih => exact (yields_record h key).bind (ih _)

theorem yields_chooseAll (h : v.content.Answers answer) (members : List (String × String))
    (roles : List String) :
    Plan.Yields answer v.handler (BundleConfig.chooseAll v.scope members roles)
      (v.pickAll members roles) := by
  induction roles with
  | nil => exact Plan.yields_pure (some [])
  | cons role rest ih =>
    refine Plan.Yields.bind (a := v.pick ((members.filter fun m => m.1 = role).map Prod.snd))
      (yields_choose h _ none) ?_
    rw [pickAll_cons]
    cases v.pick ((members.filter fun m => m.1 = role).map Prod.snd) with
    | none => exact Plan.yields_pure none
    | some record => exact ih.map _

theorem yields_bundles (h : v.content.Answers answer) (c : BundleConfig) :
    Plan.Yields answer v.handler (c.assemble v.scope) (v.bundles c) := by
  have each : ∀ e : BundleKey × List (String × String),
      Plan.Yields answer v.handler (c.bundle v.scope e)
        ((v.pickAll e.2 c.roles).map (Bundle.mk e.1)) := fun e => (yields_chooseAll h e.2 c.roles).map _
  have found : Plan.Yields answer v.handler
      ((c.candidates v.scope v.keys).entries.mapM (c.bundle v.scope))
      ((c.candidates v.scope v.keys).entries.map fun e =>
        (v.pickAll e.2 c.roles).map (Bundle.mk e.1)) := .mapM fun e _ => each e
  have complete := found.map (List.filterMap id)
  rw [List.filterMap_map] at complete
  exact (yields_keys h).bind complete

end View
end CertWatch
