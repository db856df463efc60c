import CertWatch.Proofs.KeyPath
import CertWatch.Proofs.Watch.Neighbours
import CertWatch.Proofs.Watch.Rewriting

/-!
# The layout of bundles

The records of a bundle are laid out as `<root>/<service>/<domain>/<name>.<role>` under the namespace.
Acceptable settings find a bundle that is laid out so if their root folder can be a segment of a path
and their roles can be extensions. Settings need not be like that to be acceptable, and those that are
not find no bundle in any store.
-/

namespace CertWatch
set_option autoImplicit false

open KeyPath (IsSegment IsExtension)

namespace BundleKey

/-- The key of the record of a bundle in a role, where the layout puts it. -/
def location (k : BundleKey) (scope root role : String) : String :=
  scope ++ "/" ++ root ++ "/" ++ k.service ++ "/" ++ k.domain ++ "/" ++ (k.name ++ "." ++ role)

/-- A bundle key that the layout can express. -/
structure Regular (k : BundleKey) : Prop where
  service : IsSegment k.service
  domain : IsSegment k.domain
  name : IsSegment k.name

variable {k : BundleKey} {scope root role : String}

theorem toList_location (k : BundleKey) (scope root role : String) :
    (k.location scope root role).toList = scope.toList ++ '/' :: (root.toList ++ '/' ::
      (k.service.toList ++ '/' :: (k.domain.toList ++ '/' :: (k.name ++ "." ++ role).toList))) := by
  simp [location]

theorem prefix_location (k : BundleKey) (scope root role : String) :
    scope.toList <+: (k.location scope root role).toList := by
  rw [toList_location]
  exact List.prefix_append _ _

theorem location_injective (k : BundleKey) (scope root : String) :
    Function.Injective (k.location scope root) := by
  intro role role' same
  have letters := congrArg String.toList same
  apply String.toList_inj.1
  simpa [location] using letters

theorem location_ne (k : BundleKey) (scope root role : String) : k.location scope root role ≠ "" := by
  intro empty
  have letters := toList_location k scope root role
  simp [empty] at letters

theorem segments_location (regular : k.Regular) (folder : IsSegment root) (ends : IsExtension role) :
    KeyPath.segments ⟨scope, k.location scope root role⟩ =
      [root, k.service, k.domain, k.name ++ "." ++ role] := by
  have file : '/' ∉ (k.name ++ "." ++ role).toList := by
    simp [regular.name.whole, ends.whole]
  have relative : KeyPath.relative ⟨scope, k.location scope root role⟩ = root.toList ++ '/' ::
      (k.service.toList ++ '/' :: (k.domain.toList ++ '/' :: (k.name ++ "." ++ role).toList)) := by
    rw [KeyPath.relative, toList_location, KeyPath.stripFront_append,
      List.dropWhile_cons_of_pos (by simp)]
    exact folder.dropWhile_append _
  rw [KeyPath.segments, relative, KeyPath.cut_append folder.whole,
    KeyPath.cut_append regular.service.whole, KeyPath.cut_append regular.domain.whole,
    KeyPath.cut_of_not_mem file]
  simp only [List.map_cons, List.map_nil, String.ofList_toList]

theorem fileName_location (regular : k.Regular) (folder : IsSegment root) (ends : IsExtension role) :
    KeyPath.fileName ⟨scope, k.location scope root role⟩ = some (k.name ++ "." ++ role) := by
  rw [KeyPath.fileName, segments_location regular folder ends]
  refine KeyPath.unlessBlank_eq_some_iff.2 ⟨?_, rfl⟩
  rw [String.append_assoc]
  exact KeyPath.blank_append regular.name.visible

/-- The path of a laid out record belongs to the bundle, in the role. -/
theorem belongs_location (regular : k.Regular) (folder : IsSegment root) (ends : IsExtension role) :
    ofPath? ⟨scope, k.location scope root role⟩ root = some k ∧
      KeyPath.extension ⟨scope, k.location scope root role⟩ = some role := by
  obtain ⟨stem, extension⟩ := KeyPath.stem_extension_of_fileName
    (fileName_location regular folder ends) regular.name.visible ends
  refine ⟨?_, extension⟩
  have after : KeyPath.after ⟨scope, k.location scope root role⟩ [root] =
      [k.service, k.domain, k.name ++ "." ++ role] := by
    rw [KeyPath.after, segments_location regular folder ends]
    simp
  simp [ofPath?, after, stem, regular.service.visible, regular.domain.visible]

/-- A path belongs to a bundle only if the root folder is one of its segments. -/
theorem isSegment_of_ofPath? {p : KeyPath} (belongs : ofPath? p root = some k) :
    '/' ∉ root.toList := by
  have first : [root].isPrefixOf p.segments = true := by
    by_contra other
    simp [ofPath?, KeyPath.after, other] at belongs
  obtain ⟨more, same⟩ := List.isPrefixOf_iff_prefix.1 first
  apply KeyPath.whole_of_mem_segments (p := p)
  rw [← same]
  exact List.mem_cons_self

end BundleKey

namespace BundleConfig

/-- Settings that ask for what paths can have: a root folder that is one segment, and roles that are
extensions. -/
structure Attainable (c : BundleConfig) : Prop where
  folder : '/' ∉ c.rootFolder.toList
  roles : ∀ role ∈ c.roles, '/' ∉ role.toList ∧ '.' ∉ role.toList

variable {c : BundleConfig}

theorem validateRoles_cons {seen rest : List String} {role : String}
    (valid : validateRoles seen (role :: rest) = .ok ()) :
    Text.blank role = false ∧ role ∉ seen ∧ validateRoles (role :: seen) rest = .ok () := by
  rw [validateRoles] at valid
  split at valid
  case isTrue => cases valid
  case isFalse visible =>
    split at valid
    case isTrue => cases valid
    case isFalse new => exact ⟨by simpa using visible, new, valid⟩

/-- Roles that pass are not blank, and none of them occurs twice or was seen before. -/
theorem of_validateRoles {seen roles : List String} (valid : validateRoles seen roles = .ok ()) :
    (∀ role ∈ roles, Text.blank role = false ∧ role ∉ seen) ∧ roles.Nodup := by
  induction roles generalizing seen with
  | nil => exact ⟨nofun, List.nodup_nil⟩
  | cons role rest ih =>
    obtain ⟨visible, new, valid⟩ := validateRoles_cons valid
    obtain ⟨each, distinct⟩ := ih valid
    refine ⟨List.forall_mem_cons.2 ⟨⟨visible, new⟩, ?_⟩, List.nodup_cons.2 ⟨?_, distinct⟩⟩
    · intro other later
      exact ⟨(each other later).1, List.not_mem_of_not_mem_cons (each other later).2⟩
    · intro later
      exact (each role later).2 List.mem_cons_self

/-- Acceptable settings have a root folder and roles that are not blank, and different roles. -/
theorem of_validate (valid : c.validate = .ok ()) : Text.blank c.rootFolder = false ∧
    (∀ role ∈ c.roles, Text.blank role = false) ∧ c.roles.Nodup := by
  unfold validate at valid
  split at valid
  case isTrue => cases valid
  case isFalse =>
    split at valid
    case isTrue => cases valid
    case isFalse visible =>
      split at valid
      case isTrue => cases valid
      case isFalse =>
        obtain ⟨each, distinct⟩ := of_validateRoles valid
        exact ⟨by simpa using visible, fun role configured => (each role configured).1, distinct⟩

theorem Attainable.isSegment (h : c.Attainable) (valid : c.validate = .ok ()) :
    IsSegment c.rootFolder := ⟨(of_validate valid).1, h.folder⟩

theorem Attainable.isExtension (h : c.Attainable) (valid : c.validate = .ok ()) {role : String}
    (configured : role ∈ c.roles) : IsExtension role where
  visible := (of_validate valid).2.1 role configured
  whole := (h.roles role configured).1
  last := (h.roles role configured).2

end BundleConfig

namespace View

variable {v : View} {c : BundleConfig} {k : BundleKey} {raw : String → Bytes} {e : String → Envelope}

/-- The bytes at a key hold an envelope, sealed if the scope has a key. -/
def Encloses (v : View) (key : String) (raw : Bytes) (e : Envelope) : Prop :=
  v.content.bytes key = some raw ∧ ∃ payload, v.scope.Wraps payload raw ∧ e.Holds payload

theorem record_of_encloses {key : String} {raw : Bytes} {e : Envelope} (h : v.Encloses key raw e) :
    v.record key = .ofEnvelope key raw e := by
  obtain ⟨stored, payload, wraps, holds⟩ := h
  have read : v.fetched key = ⟨raw, payload⟩ := by
    rw [← payload_of_wraps stored wraps]
    simp [fetched, stored]
  rw [record, read, Fetched.record, Fetched.envelope, holds.parseOrEmpty]

theorem ascending_bundles (v : View) (c : BundleConfig) :
    ((v.bundles c).map Bundle.key).Pairwise (· < ·) := by
  have ended := @Plan.ends_run _ v.content.answer v.handler (c.assemble v.scope) 0
  rw [yields_bundles v.content.answers_answer c 0] at ended
  exact BundleConfig.ascending_of_ends_assemble ended

/-- What is listed are the records of one bundle as the layout has them, one for each role, and each of
them holds a value. -/
structure LaidOut (v : View) (c : BundleConfig) (k : BundleKey) (raw : String → Bytes)
    (e : String → Envelope) : Prop where
  listed : ∀ key, key ∈ v.content.listed v.scope.pattern ↔
    ∃ role ∈ c.roles, key = k.location v.scope.name c.rootFolder role
  stored : ∀ role ∈ c.roles,
    v.Encloses (k.location v.scope.name c.rootFolder role) (raw role) (e role) ∧ (e role).value ≠ []

/-- The candidates of a store with one bundle are its records, each in its role. -/
theorem LaidOut.isCandidate_iff (h : v.LaidOut c k raw e) (valid : c.validate = .ok ())
    (attainable : c.Attainable) (regular : k.Regular) {k' : BundleKey} {role key : String}
    (configured : role ∈ c.roles) : v.IsCandidate c.rootFolder k' role key ↔
      k' = k ∧ key = k.location v.scope.name c.rootFolder role := by
  have belongs : ∀ role ∈ c.roles,
      BundleKey.ofPath? ⟨v.scope.name, k.location v.scope.name c.rootFolder role⟩ c.rootFolder = some k ∧
        KeyPath.extension ⟨v.scope.name, k.location v.scope.name c.rootFolder role⟩ = some role := by
    intro role configured
    exact BundleKey.belongs_location regular (attainable.isSegment valid)
      (attainable.isExtension valid configured)
  constructor
  · rintro ⟨listed, -, bundle, extension, -⟩
    obtain ⟨other, configured', rfl⟩ := (h.listed key).1 listed
    obtain ⟨bundle', extension'⟩ := belongs other configured'
    obtain rfl : k = k' := Option.some.inj (bundle'.symm.trans bundle)
    obtain rfl : other = role := Option.some.inj (extension'.symm.trans extension)
    exact ⟨rfl, rfl⟩
  · rintro ⟨rfl, rfl⟩
    obtain ⟨bundle, extension⟩ := belongs role configured
    obtain ⟨encloses, value⟩ := h.stored role configured
    refine ⟨(h.listed _).2 ⟨role, configured, rfl⟩, BundleKey.location_ne _ _ _ _, bundle, extension, ?_⟩
    rw [record_of_encloses encloses]
    exact value

theorem LaidOut.keys_bundles (h : v.LaidOut c k raw e) (valid : c.validate = .ok ())
    (attainable : c.Attainable) (regular : k.Regular) : (v.bundles c).map Bundle.key = [k] := by
  have needed := BundleConfig.roles_ne_nil valid
  refine Table.eq_of_ascending (v.ascending_bundles c) (List.pairwise_singleton _ k) fun k' => ?_
  rw [mem_keys_bundles_iff needed, List.mem_singleton]
  constructor
  · intro all
    obtain ⟨role, configured⟩ := List.exists_mem_of_ne_nil _ needed
    obtain ⟨key, candidate⟩ := all role configured
    exact ((h.isCandidate_iff valid attainable regular configured).1 candidate).1
  · rintro rfl role configured
    exact ⟨_, (h.isCandidate_iff valid attainable regular configured).2 ⟨rfl, rfl⟩⟩

/-- A store with one bundle has that bundle, with the record at its place for each role. -/
theorem LaidOut.bundles_eq (h : v.LaidOut c k raw e) (valid : c.validate = .ok ())
    (attainable : c.Attainable) (regular : k.Regular) :
    v.bundles c = [⟨k, c.roles.map fun role =>
      (role, .ofEnvelope (k.location v.scope.name c.rootFolder role) (raw role) (e role))⟩] := by
  obtain ⟨b, single, same⟩ := List.map_eq_singleton_iff.1 (h.keys_bundles valid attainable regular)
  have complete : b ∈ v.bundles c := single ▸ List.mem_singleton_self b
  obtain ⟨names, chosen⟩ := roles_of_mem_bundles complete
  have each : ∀ r ∈ b.roles, r = (r.1, Record.ofEnvelope
      (k.location v.scope.name c.rootFolder r.1) (raw r.1) (e r.1)) := by
    intro r among
    have configured : r.1 ∈ c.roles := names ▸ List.mem_map_of_mem among
    obtain ⟨key, best, record⟩ := chosen r among
    obtain ⟨-, rfl⟩ := (h.isCandidate_iff valid attainable regular configured).1 best.candidate
    rw [record_of_encloses (h.stored r.1 configured).1] at record
    exact Prod.ext rfl record
  rw [single]
  refine congrArg (· :: []) ?_
  obtain ⟨key, roles⟩ := b
  refine congrArg₂ Bundle.mk same ?_
  rw [← names, List.map_map]
  exact (List.map_id roles).symm.trans (List.map_congr_left each)

/-- Settings that ask for what no path has find nothing. -/
theorem bundles_eq_nil (needed : c.roles ≠ []) (unattainable : ¬ c.Attainable) : v.bundles c = [] := by
  by_contra some_
  obtain ⟨b, complete⟩ := List.exists_mem_of_ne_nil _ some_
  have all := (mem_keys_bundles_iff needed).1 (List.mem_map_of_mem complete)
  refine unattainable ⟨?_, fun role configured => ?_⟩
  · obtain ⟨role, configured⟩ := List.exists_mem_of_ne_nil _ needed
    obtain ⟨key, candidate⟩ := all role configured
    exact BundleKey.isSegment_of_ofPath? candidate.bundle
  · obtain ⟨key, candidate⟩ := all role configured
    have ends := KeyPath.isExtension_of_extension candidate.extension
    exact ⟨ends.whole, ends.last⟩

end View

namespace BundleConfig

variable {c : BundleConfig} {k : BundleKey} {scope : Scope}
  {handler : String → DecryptFailure → Option Bytes} {raw : String → Bytes} {e : String → Envelope}

/-- The store in memory that holds a value for each role of a bundle, where the layout puts it, and
nothing else. -/
def storeOf (c : BundleConfig) (scope : Scope) (k : BundleKey) (raw : String → Bytes) : Store :=
  .ofList (c.roles.map fun role => (k.location scope.name c.rootFolder role, raw role))

theorem get?_storeOf (valid : c.validate = .ok ()) {role : String} (configured : role ∈ c.roles) :
    (c.storeOf scope k raw).get? (k.location scope.name c.rootFolder role) = some (raw role) := by
  have distinct : (c.roles.map (k.location scope.name c.rootFolder)).Nodup :=
    (of_validate valid).2.2.map (k.location_injective scope.name c.rootFolder)
  have here : (c.roles.find? fun other =>
      k.location scope.name c.rootFolder other = k.location scope.name c.rootFolder role).isSome :=
    List.find?_isSome.2 ⟨role, configured, decide_eq_true rfl⟩
  rw [storeOf, Table.get?_ofList_map distinct, Option.map_eq_some_iff]
  obtain ⟨other, found⟩ := Option.isSome_iff_exists.1 here
  have same : k.location scope.name c.rootFolder other = k.location scope.name c.rootFolder role := by
    simpa using List.find?_some found
  exact ⟨other, found, congrArg raw (k.location_injective scope.name c.rootFolder same)⟩

theorem laidOut_storeOf (valid : c.validate = .ok ())
    (wrapped : ∀ role ∈ c.roles, (∃ payload, scope.Wraps payload (raw role) ∧ (e role).Holds payload) ∧
      (e role).value ≠ []) :
    (View.ofStore scope handler (c.storeOf scope k raw)).LaidOut c k raw e where
  listed key := by
    show key ∈ (c.storeOf scope k raw).list (scope.name ++ "*") ↔ _
    rw [Store.mem_list_star_iff, Table.isSome_get?_iff, storeOf, Table.mem_keys_ofList, List.map_map,
      List.mem_map]
    constructor
    · rintro ⟨⟨role, configured, rfl⟩, -⟩
      exact ⟨role, configured, rfl⟩
    · rintro ⟨role, configured, rfl⟩
      exact ⟨⟨role, configured, rfl⟩, k.prefix_location _ _ _⟩
  stored role configured := by
    obtain ⟨payload, value⟩ := wrapped role configured
    exact ⟨⟨get?_storeOf valid configured, payload⟩, value⟩

/-- **The layout.** Over a store that does not change and answers every call, acceptable settings whose
root folder has no slash and whose roles have neither a slash nor a dot find a bundle that is laid out:
where one value is stored for each role, and nothing else, exactly that bundle is put together, with the
record at its place for each role. All other acceptable settings find nothing, whatever is stored. -/
theorem assemble_layout (valid : c.validate = .ok ()) (v : View)
    {answer : Nat → (c : Call) → Except Failure c.Answer} (answers : v.content.Answers answer) :
    (c.Attainable → ∀ (k : BundleKey) (raw : String → Bytes) (e : String → Envelope), k.Regular →
      v.LaidOut c k raw e →
        Plan.Yields answer v.handler (c.assemble v.scope) [⟨k, c.roles.map fun role =>
          (role, .ofEnvelope (k.location v.scope.name c.rootFolder role) (raw role) (e role))⟩]) ∧
    (¬ c.Attainable → Plan.Yields answer v.handler (c.assemble v.scope) []) := by
  have assembled := View.yields_bundles answers c
  constructor
  · intro attainable k raw e regular laidOut
    rwa [laidOut.bundles_eq valid attainable regular] at assembled
  · intro unattainable
    rwa [View.bundles_eq_nil (roles_ne_nil valid) unattainable] at assembled

/-- The envelope of one byte in the open. -/
theorem holds_byte : Envelope.Holds ⟨[0x41], none⟩ (Utf8.encode "\x7b\"value\":\"QQ==\"\x7d") :=
  ⟨[], "\"value\":\"QQ==\"\x7d".toList, by simp, by decide +kernel, by decide +kernel⟩

/-- A bundle of sealed values whose name has a dot is found. -/
theorem assemble_layout_of_dotted_name :
    let key : SealKey := ⟨List.replicate 32 7, rfl⟩
    let scope : Scope := ⟨"ns", some key⟩
    let k : BundleKey := ⟨"svc", "d.com", "site.v1"⟩
    let raw (_ : String) : Bytes :=
      key.sealWith (List.replicate 12 9) (Utf8.encode "\x7b\"value\":\"QQ==\"\x7d")
    let s : Store := ({} : BundleConfig).storeOf scope k raw
    ({} : BundleConfig).validate = .ok () ∧ ({} : BundleConfig).Attainable ∧ k.Regular ∧
      (View.ofStore scope (fun _ _ => none) s).LaidOut {} k raw (fun _ => ⟨[0x41], none⟩) ∧
      s.Settles (fun _ _ => none) (({} : BundleConfig).assemble scope)
        [⟨k, ["json", "key", "crt"].map fun role =>
          (role, .ofEnvelope (k.location "ns" "certificates" role) (raw role) ⟨[0x41], none⟩)⟩] := by
  intro key scope k raw s
  have valid : ({} : BundleConfig).validate = .ok () := by decide
  have attainable : ({} : BundleConfig).Attainable := ⟨by decide, by decide⟩
  have regular : k.Regular := ⟨⟨by decide, by decide⟩, ⟨by decide, by decide⟩, ⟨by decide, by decide⟩⟩
  have laidOut : (View.ofStore scope (fun _ _ => none) s).LaidOut {} k raw (fun _ => ⟨[0x41], none⟩) :=
    laidOut_storeOf valid fun _ _ => ⟨⟨_, ⟨_, by decide, rfl⟩, holds_byte⟩, by simp⟩
  refine ⟨valid, attainable, regular, laidOut, fun answer answers => ?_⟩
  exact (assemble_layout valid (.ofStore scope (fun _ _ => none) s) answers).1 attainable k raw _ regular
    laidOut

/-- Settings whose root folder is two segments. -/
def nestedFolder : BundleConfig := { rootFolder := "a/b", roles := ["crt"] }

/-- Settings with a role that has a dot. -/
def dottedRole : BundleConfig := { roles := ["tar.gz"] }

/-- A bundle that is laid out need not be found: not under a root folder of two segments, and not with
a role that has a dot, though both are acceptable. -/
theorem laid_out_not_found :
    let k : BundleKey := ⟨"s", "d", "x"⟩
    let raw (_ : String) : Bytes := Utf8.encode "\x7b\"value\":\"QQ==\"\x7d"
    k.Regular ∧ ∀ c ∈ [nestedFolder, dottedRole], c.validate = .ok () ∧
      (View.ofStore ⟨"ns", none⟩ (fun _ _ => none) (c.storeOf ⟨"ns", none⟩ k raw)).LaidOut c k raw
        (fun _ => ⟨[0x41], none⟩) ∧
      (c.storeOf ⟨"ns", none⟩ k raw).Settles (fun _ _ => none) (c.assemble ⟨"ns", none⟩) [] := by
  intro k raw
  have regular : k.Regular := ⟨⟨by decide, by decide⟩, ⟨by decide, by decide⟩, ⟨by decide, by decide⟩⟩
  have invisible : ∀ c : BundleConfig, c.validate = .ok () → ¬ c.Attainable → c.validate = .ok () ∧
      (View.ofStore ⟨"ns", none⟩ (fun _ _ => none) (c.storeOf ⟨"ns", none⟩ k raw)).LaidOut c k raw
        (fun _ => ⟨[0x41], none⟩) ∧
      (c.storeOf ⟨"ns", none⟩ k raw).Settles (fun _ _ => none) (c.assemble ⟨"ns", none⟩) [] := by
    intro c valid unattainable
    refine ⟨valid, laidOut_storeOf valid fun _ _ => ⟨⟨_, rfl, holds_byte⟩, by simp⟩, ?_⟩
    have settled := Scope.settles_assemble ⟨"ns", none⟩ (fun _ _ => none) (c.storeOf ⟨"ns", none⟩ k raw) c
    rwa [View.bundles_eq_nil (roles_ne_nil valid) unattainable] at settled
  refine ⟨regular, List.forall_mem_cons.2 ⟨?_, List.forall_mem_singleton.2 ?_⟩⟩
  · exact invisible nestedFolder (by decide) fun attainable => absurd attainable.folder (by decide)
  · exact invisible dottedRole (by decide) fun attainable =>
      absurd (attainable.roles "tar.gz" (by decide)).2 (by decide)

end BundleConfig
end CertWatch
