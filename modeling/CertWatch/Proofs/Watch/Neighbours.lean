import CertWatch.Proofs.Watch.Candidates
import CertWatch.Proofs.Watch.Listing
import CertWatch.Proofs.Watch.View

/-!
# Neighbouring namespaces

The keys of a scope are those that begin with its name, whatever comes next. So a namespace whose name
goes on where that of the scope ends is listed with it, and its first segment counts as the root
folder if the rest of its name is that of the folder. What else a store holds matters neither for
records nor for bundles.
-/

namespace CertWatch
set_option autoImplicit false

/-! ## Keys of a scope -/

theorem matchesPattern_star_iff {front key : String} :
    matchesPattern (front ++ "*") key = true ↔ front.toList <+: key.toList := by
  have star : (front ++ "*").toList = front.toList ++ ['*'] := by simp
  simp only [matchesPattern, star, List.getLast?_append, List.getLast?_singleton, Option.some_or,
    List.dropLast_concat, List.isPrefixOf_iff_prefix]

theorem Store.mem_list_star_iff {s : Store} {front key : String} :
    key ∈ s.list (front ++ "*") ↔ (s.get? key).isSome = true ∧ front.toList <+: key.toList := by
  rw [list, List.mem_filter, matchesPattern_star_iff, Table.isSome_get?_iff]

namespace KeyPath

theorem stripFront_append (front cs : List Char) : stripFront front (front ++ cs) = cs := by
  simp [stripFront]

/-- A text with more than one segment begins with the first one and the character that ends it. -/
theorem exists_of_cut {c : Char} {cs s t : List Char} {more : List (List Char)}
    (h : cut c cs = s :: t :: more) : ∃ tail, cs = s ++ c :: tail := by
  induction cs generalizing s t more with
  | nil => cases h
  | cons d rest ih =>
    rw [cut] at h
    split at h
    case isTrue here =>
      obtain ⟨rfl, -⟩ := List.cons.inj h
      exact ⟨rest, by rw [here, List.nil_append]⟩
    case isFalse =>
      split at h
      case h_1 => cases h
      case h_2 first others same =>
        obtain ⟨rfl, rfl⟩ := List.cons.inj h
        obtain ⟨tail, rfl⟩ := ih same
        exact ⟨tail, by rw [List.cons_append]⟩

end KeyPath

/-- A listed key that belongs to a bundle has a slash after the name of the scope, or right after the
root folder that follows the name. -/
theorem BundleKey.prefix_of_ofPath? {name root key : String} {k : BundleKey}
    (listed : name.toList <+: key.toList) (belongs : ofPath? ⟨name, key⟩ root = some k) :
    (name ++ "/").toList <+: key.toList ∨ (name ++ root ++ "/").toList <+: key.toList := by
  obtain ⟨rest, same⟩ := listed
  have relative : KeyPath.relative ⟨name, key⟩ = rest.dropWhile (· = '/') := by
    rw [KeyPath.relative, ← same, KeyPath.stripFront_append]
  cases rest with
  | nil => simp [ofPath?, KeyPath.after, KeyPath.segments, relative, KeyPath.cut] at belongs
  | cons d tail =>
    by_cases slash : d = '/'
    · left
      subst slash
      exact ⟨tail, by rw [← same]; simp⟩
    · right
      rw [List.dropWhile_cons_of_neg (by simpa using slash)] at relative
      have segments : ∃ t more, KeyPath.cut '/' (d :: tail) = root.toList :: t :: more := by
        simp only [ofPath?, KeyPath.after, KeyPath.segments, relative] at belongs
        cases cut : KeyPath.cut '/' (d :: tail) with
        | nil => simp [cut] at belongs
        | cons s others =>
          by_cases first : root = String.ofList s
          · cases others with
            | nil => simp [cut] at belongs
            | cons t more => exact ⟨t, more, by rw [first, String.toList_ofList]⟩
          · simp [cut, first] at belongs
      obtain ⟨t, more, cut⟩ := segments
      obtain ⟨after, rest⟩ := KeyPath.exists_of_cut cut
      exact ⟨after, by rw [← same, rest]; simp⟩

/-! ## Stores that agree on some keys -/

namespace Store

/-- Two stores hold the same at all keys that begin with a text. -/
def AgreeFrom (a : Store) (front : String) (b : Store) : Prop :=
  ∀ key : String, front.toList <+: key.toList → a.get? key = b.get? key

/-- Two stores hold the same at all keys that do not begin with a text. -/
def AgreeOutside (a : Store) (front : String) (b : Store) : Prop :=
  ∀ key : String, ¬ front.toList <+: key.toList → a.get? key = b.get? key

/-- Neither of two texts begins with the other. -/
def Incomparable (one other : String) : Prop :=
  ¬ one.toList <+: other.toList ∧ ¬ other.toList <+: one.toList

instance (one other : String) : Decidable (Incomparable one other) :=
  inferInstanceAs (Decidable (_ ∧ _))

/-- No key begins with two incomparable texts. -/
theorem AgreeOutside.agreeFrom {front other : String} {a b : Store} (h : a.AgreeOutside other b)
    (apart : Incomparable front other) : a.AgreeFrom front b := by
  intro key begins
  refine h key fun begins' => ?_
  rcases List.prefix_or_prefix_of_prefix begins begins' with below | above
  · exact apart.1 below
  · exact apart.2 above

/-- A plan ends with a result over a store that nobody writes to, whenever it is carried out. -/
def Settles {α : Type} (s : Store) (handler : String → DecryptFailure → Option Bytes) (p : Plan α)
    (result : α) : Prop :=
  ∀ answer, (Content.ofStore s).Answers answer → Plan.Yields answer handler p result

/-- A plan ends over two stores, and with the same result. -/
def SettleAlike {α : Type} (a b : Store) (handler : String → DecryptFailure → Option Bytes)
    (p : Plan α) : Prop :=
  ∃ result, a.Settles handler p result ∧ b.Settles handler p result

theorem SettleAlike.map {α β : Type} {a b : Store} {handler : String → DecryptFailure → Option Bytes}
    {p : Plan α} (h : a.SettleAlike b handler p) (f : α → β) :
    a.SettleAlike b handler (do return f (← p)) := by
  obtain ⟨result, first, second⟩ := h
  exact ⟨f result, fun answer answers => (first answer answers).map f,
    fun answer answers => (second answer answers).map f⟩

end Store

namespace View

/-- A view of a store in memory. -/
def ofStore (scope : Scope) (handler : String → DecryptFailure → Option Bytes) (s : Store) : View :=
  ⟨scope, .ofStore s, handler⟩

variable {scope : Scope} {handler : String → DecryptFailure → Option Bytes} {a b : Store}

theorem record_eq {key : String} (same : a.get? key = b.get? key) :
    (ofStore scope handler a).record key = (ofStore scope handler b).record key :=
  record_congr (v := ofStore scope handler a) (w := ofStore scope handler b) rfl rfl same

variable (scope handler) in
/-- Views of two stores have those keys in common at which the stores agree. -/
theorem filter_keys_eq (p : String → Bool)
    (agree : ∀ key, scope.name.toList <+: key.toList → p key = true → a.get? key = b.get? key) :
    (ofStore scope handler a).keys.filter p = (ofStore scope handler b).keys.filter p := by
  refine Scope.filter_tidy_eq fun key counts => ?_
  show key ∈ a.list (scope.name ++ "*") ↔ key ∈ b.list (scope.name ++ "*")
  rw [Store.mem_list_star_iff, Store.mem_list_star_iff]
  refine and_congr_left fun listed => ?_
  rw [agree key listed counts]

theorem prefix_of_mem_keys {key : String} (h : key ∈ (ofStore scope handler a).keys) :
    scope.name.toList <+: key.toList :=
  (Store.mem_list_star_iff.1 (Scope.mem_tidy_iff.1 h).1).2

/-- The records depend only on what begins with the name of the scope. -/
theorem records_eq (agree : a.AgreeFrom scope.name b) :
    (ofStore scope handler a).records = (ofStore scope handler b).records := by
  have keys := filter_keys_eq scope handler (fun _ => true) fun key listed _ => agree key listed
  simp only [List.filter_true] at keys
  rw [records, records, ← keys]
  exact List.map_congr_left fun key listed => record_eq (agree key (prefix_of_mem_keys listed))

/-- The bundles depend only on what begins with the name of the scope and a slash, or with that name,
the root folder and a slash. -/
theorem bundles_eq {c : BundleConfig} (below : a.AgreeFrom (scope.name ++ "/") b)
    (folder : a.AgreeFrom (scope.name ++ c.rootFolder ++ "/") b) :
    (ofStore scope handler a).bundles c = (ofStore scope handler b).bundles c := by
  have agree : ∀ key, scope.name.toList <+: key.toList → (c.place scope key).isSome = true →
      a.get? key = b.get? key := by
    intro key listed somewhere
    obtain ⟨⟨k, role⟩, placed⟩ := Option.isSome_iff_exists.1 somewhere
    obtain ⟨-, -, belongs⟩ := BundleConfig.place_eq_some_iff.1 placed
    rcases BundleKey.prefix_of_ofPath? listed belongs with slash | root
    · exact below key slash
    · exact folder key root
  have candidates : c.candidates scope (ofStore scope handler a).keys =
      c.candidates scope (ofStore scope handler b).keys := by
    rw [← c.candidates_filter, ← c.candidates_filter scope (ofStore scope handler b).keys,
      filter_keys_eq scope handler _ agree]
  show ((c.candidates scope _).entries.filterMap fun e => _) =
    (c.candidates scope _).entries.filterMap fun e => _
  rw [← candidates]
  refine List.filterMap_congr fun e found => ?_
  rw [pickAll_congr (fun m among => record_eq ?_) c.roles]
  obtain ⟨listed, placed⟩ := BundleConfig.placed_of_mem_candidates found among
  exact agree m.2 (prefix_of_mem_keys listed) (Option.isSome_of_mem placed)

end View

namespace Scope

variable {s : Scope} {handler : String → DecryptFailure → Option Bytes} {a b : Store}

theorem settles_records (s : Scope) (handler : String → DecryptFailure → Option Bytes) (a : Store) :
    a.Settles handler s.records (View.ofStore s handler a).records :=
  fun _ answers => View.yields_records (v := .ofStore s handler a) answers

theorem settles_assemble (s : Scope) (handler : String → DecryptFailure → Option Bytes) (a : Store)
    (c : BundleConfig) : a.Settles handler (c.assemble s) ((View.ofStore s handler a).bundles c) :=
  fun _ answers => View.yields_bundles (v := .ofStore s handler a) answers c

/-- Records are read alike, and polls of them end alike, over stores with the same records. -/
theorem settleAlike_poll (agree : a.AgreeFrom s.name b) (w : RecordWatch) :
    a.SettleAlike b handler (w.poll s) := by
  have second := s.settles_records handler b
  rw [← View.records_eq agree] at second
  exact Store.SettleAlike.map ⟨_, s.settles_records handler a, second⟩ w.commit

/-- Bundles are put together alike, and polls of them end alike, over stores with the same bundles. -/
theorem settleAlike_assemble {c : BundleConfig} (below : a.AgreeFrom (s.name ++ "/") b)
    (folder : a.AgreeFrom (s.name ++ c.rootFolder ++ "/") b) :
    a.SettleAlike b handler (c.assemble s) ∧
      ∀ w : BundleWatch, a.SettleAlike b handler (w.poll c s) := by
  have second := s.settles_assemble handler b c
  rw [← View.bundles_eq below folder] at second
  have assembled : a.SettleAlike b handler (c.assemble s) :=
    ⟨_, s.settles_assemble handler a c, second⟩
  exact ⟨assembled, fun w => assembled.map w.commit⟩

end Scope

/-- **Neighbours.** What a poll of records finds, from whatever snapshot, depends only on what a store
holds at keys that begin with the name of the scope; what is put together into bundles, and what a
poll of bundles finds, depends only on keys that begin with the name and a slash, or with the name,
the root folder and a slash. So nothing that is written at keys that begin with the name of another
namespace and a slash matters, unless one of these two texts begins with the other. -/
theorem Store.settleAlike (s : Scope) (c : BundleConfig)
    (handler : String → DecryptFailure → Option Bytes) (a b : Store) :
    (a.AgreeFrom s.name b → ∀ w : RecordWatch, a.SettleAlike b handler (w.poll s)) ∧
    (a.AgreeFrom (s.name ++ "/") b → a.AgreeFrom (s.name ++ c.rootFolder ++ "/") b →
      a.SettleAlike b handler (c.assemble s) ∧
        ∀ w : BundleWatch, a.SettleAlike b handler (w.poll c s)) ∧
    ∀ m : String, a.AgreeOutside (m ++ "/") b →
      (Incomparable s.name (m ++ "/") → ∀ w : RecordWatch, a.SettleAlike b handler (w.poll s)) ∧
      (Incomparable (s.name ++ "/") (m ++ "/") →
        Incomparable (s.name ++ c.rootFolder ++ "/") (m ++ "/") →
        a.SettleAlike b handler (c.assemble s) ∧
          ∀ w : BundleWatch, a.SettleAlike b handler (w.poll c s)) := by
  refine ⟨Scope.settleAlike_poll, Scope.settleAlike_assemble, fun m agree => ⟨fun apart => ?_, ?_⟩⟩
  · exact Scope.settleAlike_poll (agree.agreeFrom apart)
  · intro apart folder
    exact Scope.settleAlike_assemble (agree.agreeFrom apart) (agree.agreeFrom folder)

/-- A store with one value. -/
def Store.single (key : String) (value : Bytes) : Store := .ofList [(key, value)]

theorem Store.get?_single {key other : String} {value : Bytes} (ne : other ≠ key) :
    (single key value).get? other = none := by
  show (Table.empty.insert key value).get? other = none
  rw [Table.get?_insert_of_ne _ _ ne, Table.get?_empty]

theorem Store.agreeFrom_single {front key : String} {value : Bytes}
    (elsewhere : ¬ front.toList <+: key.toList) : AgreeFrom .empty front (single key value) := by
  intro other begins
  symm
  apply get?_single
  rintro rfl
  exact elsewhere begins

theorem Store.agreeOutside_single {front key : String} {value : Bytes}
    (here : front.toList <+: key.toList) : AgreeOutside .empty front (single key value) := by
  intro other elsewhere
  symm
  apply get?_single
  rintro rfl
  exact elsewhere here

/-- What is written under a namespace apart from that of the scope is not seen. -/
theorem Store.settleAlike_of_foreign_record :
    let foreign : Store := .single "m/certificates/s/d/x.crt" [1]
    AgreeFrom .empty "n" foreign ∧ AgreeFrom .empty "n/" foreign ∧
      AgreeFrom .empty "ncertificates/" foreign ∧ AgreeOutside .empty "m/" foreign ∧
      (∀ w : RecordWatch, SettleAlike .empty foreign (fun _ _ => none) (w.poll ⟨"n", none⟩)) ∧
      SettleAlike .empty foreign (fun _ _ => none) (({} : BundleConfig).assemble ⟨"n", none⟩) ∧
      ∀ w : BundleWatch, SettleAlike .empty foreign (fun _ _ => none) (w.poll {} ⟨"n", none⟩) := by
  intro foreign
  have name : AgreeFrom .empty "n" foreign := agreeFrom_single (by decide)
  have below : AgreeFrom .empty "n/" foreign := agreeFrom_single (by decide)
  have folder : AgreeFrom .empty "ncertificates/" foreign := agreeFrom_single (by decide)
  have outside : AgreeOutside .empty "m/" foreign := agreeOutside_single (by decide)
  obtain ⟨records, bundles, apart⟩ := settleAlike ⟨"n", none⟩ {} (fun _ _ => none) .empty foreign
  obtain ⟨-, bundlesApart⟩ := apart "m" outside
  exact ⟨name, below, folder, outside, records name, (bundles below folder).1,
    (bundlesApart (by decide) (by decide)).2⟩

/-- A certificate whose key begins with the name of a scope, but not with a slash after it. -/
def neighbouringCertificate : Store :=
  .single "nscertificates/s/d/x.crt" (Utf8.encode "\x7b\"value\":\"QQ==\"\x7d")

/-- A record that is below two namespaces, of which one is below the other. -/
def inheritedRecord : Store := .single "a/b/x" []

/-- What is written under other namespaces can be seen. Nothing begins with the name of the first scope
and a slash, and yet a record and a bundle are found in it, though the namespace where it was written
is neither that of the scope nor below it. Neither is that of the second scope, which is below it. -/
theorem neighbour_reported :
    ({ roles := ["crt"] } : BundleConfig).validate = .ok () ∧
    (Store.AgreeFrom .empty "ns/" neighbouringCertificate ∧
      Store.AgreeOutside .empty "nscertificates/" neighbouringCertificate ∧
      ¬ "ns/".toList <+: "nscertificates/".toList ∧
      (∃ found found', Store.Settles .empty (fun _ _ => none) (RecordWatch.poll {} ⟨"ns", none⟩) found ∧
        neighbouringCertificate.Settles (fun _ _ => none) (RecordWatch.poll {} ⟨"ns", none⟩) found' ∧
        found.2.added = [] ∧ found'.2.added.map Record.key = ["nscertificates/s/d/x.crt"]) ∧
      ∃ bundles bundles', Store.Settles .empty (fun _ _ => none)
          (({ roles := ["crt"] } : BundleConfig).assemble ⟨"ns", none⟩) bundles ∧
        neighbouringCertificate.Settles (fun _ _ => none)
          (({ roles := ["crt"] } : BundleConfig).assemble ⟨"ns", none⟩) bundles' ∧
        bundles = [] ∧ bundles'.map Bundle.key = [⟨"s", "d", "x"⟩]) ∧
    Store.AgreeOutside .empty "a/" inheritedRecord ∧ ¬ "a/b/".toList <+: "a/".toList ∧
    ∃ found, inheritedRecord.Settles (fun _ _ => none) (RecordWatch.poll {} ⟨"a/b", none⟩) found ∧
      found.2.added.map Record.key = ["a/b/x"] := by
  have polled : ∀ (s : Scope) (a : Store), a.Settles (fun _ _ => none) (RecordWatch.poll {} s)
      (({} : RecordWatch).commit (View.ofStore s (fun _ _ => none) a).records) :=
    fun s a answer answers => (s.settles_records _ a answer answers).map _
  refine ⟨by decide, ⟨Store.agreeFrom_single (by decide), Store.agreeOutside_single (by decide), by decide, ?_, ?_⟩,
    Store.agreeOutside_single (by decide), by decide, ?_⟩
  · refine ⟨_, _, polled _ _, polled _ _, ?_, ?_⟩
    · decide +kernel
    · decide +kernel
  · refine ⟨_, _, Scope.settles_assemble _ _ _ _, Scope.settles_assemble _ _ _ _, ?_, ?_⟩
    · decide +kernel
    · decide +kernel
  · refine ⟨_, polled _ _, ?_⟩
    decide +kernel

end CertWatch
