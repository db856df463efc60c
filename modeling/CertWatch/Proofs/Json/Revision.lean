import CertWatch.Proofs.Json.Values

/-!
# Revised texts

The members of an object can be put into another order, and members with unknown names can be added to a record or
changed. The fields of the record are still found, with the same texts or with texts that are revised in this way.
-/

namespace CertWatch.Json
set_option autoImplicit false

/-- What a text is read as: a record with the shapes of its fields, in order, or something without fields. -/
inductive Shape where
  | plain
  | record (fields : List (String × Shape))

namespace Shape

/-- The names of the fields, in order. -/
def names : Shape → List String
  | plain => []
  | record fields => fields.map Prod.fst

/-- The shape of a field. -/
def field (s : Shape) (name : String) : Shape :=
  match s with
  | plain => plain
  | record fields => ((fields.find? fun f => f.1 = name).map Prod.snd).getD plain

/-- The shape of an element of an array: that of the field with its position. -/
def item (s : Shape) (i : Nat) : Shape := ((s.names[i]?).map s.field).getD plain

end Shape

/-- A text and a revision of it. The members of an object are those before, in any order, and others whose names
are unknown; the values of members with known names are revised, whatever becomes of the values of the others. The
elements of an array are revised in their places. -/
inductive Revised : Shape → Bytes → Bytes → Prop where
  | same {s : Shape} {bs : Bytes} : Revised s bs bs
  | object {s : Shape} {bs bs' : Bytes} {members members' added all : List (String × Bytes)}
      (before : IsObject quoted bs members) (after : IsObject quoted bs' all)
      (named : members'.map Prod.fst = members.map Prod.fst)
      (values : ∀ (i : Nat) (m m' : String × Bytes), members[i]? = some m → members'[i]? = some m' → m.1 ∈ s.names →
        Revised (s.field m.1) m.2 m'.2)
      (unknown : ∀ m ∈ added, m.1 ∉ s.names) (permuted : all.Perm (members' ++ added)) : Revised s bs bs'
  | array {s : Shape} {bs bs' : Bytes} {items items' : List Bytes} (before : IsArray bs items)
      (after : IsArray bs' items') (length : items'.length = items.length)
      (values : ∀ (i : Nat) (item item' : Bytes), items[i]? = some item → items'[i]? = some item' →
        Revised (s.item i) item item') : Revised s bs bs'

/-- The members of one object in another order, with others whose names are unknown. -/
theorem Revised.reordered {s : Shape} {bs bs' : Bytes} {members added all : List (String × Bytes)}
    (before : IsObject quoted bs members) (after : IsObject quoted bs' all) (unknown : ∀ m ∈ added, m.1 ∉ s.names)
    (permuted : all.Perm (members ++ added)) : Revised s bs bs' := by
  refine .object before after rfl ?_ unknown permuted
  intro i m m' here here' _
  rw [here] at here'
  cases here'
  exact .same

/-- A reader whose result does not change when the text is revised. -/
def Steady {α : Type} (s : Shape) (read : Bytes → Option α) : Prop :=
  ∀ bs bs' a, Revised s bs bs' → read bs = some a → read bs' = some a

variable {α : Type}

/-! ## Values without fields -/

theorem skipSpace_of_isObject {κ : Type} {name : Scan κ} {bs : Bytes} {members : List (κ × Bytes)}
    (h : IsObject name bs members) : ∃ tail, skipSpace bs = 0x7B :: tail := by
  obtain ⟨inside, ⟨front, back, before, -, rfl⟩, -⟩ := h
  exact ⟨_, skipSpace_append before ⟨0x7B, _, rfl, rfl⟩⟩

theorem skipSpace_of_isArray {bs : Bytes} {items : List Bytes} (h : IsArray bs items) :
    ∃ tail, skipSpace bs = 0x5B :: tail := by
  obtain ⟨inside, ⟨front, back, before, -, rfl⟩, -⟩ := h
  exact ⟨_, skipSpace_append before ⟨0x5B, _, rfl, rfl⟩⟩

/-- What is read neither from an object nor from an array is the same in a revised text, or is read from neither. -/
theorem whole_of_revised {scan : Scan α} (noObject : ∀ tail, scan (0x7B :: tail) = none)
    (noArray : ∀ tail, scan (0x5B :: tail) = none) {s : Shape} {bs bs' : Bytes} (h : Revised s bs bs') :
    whole scan bs' = whole scan bs := by
  cases h with
  | same => rfl
  | object before after =>
    obtain ⟨tail, opens⟩ := skipSpace_of_isObject before
    obtain ⟨tail', opens'⟩ := skipSpace_of_isObject after
    rw [whole, whole, opens, opens', noObject, noObject]
  | array before after =>
    obtain ⟨tail, opens⟩ := skipSpace_of_isArray before
    obtain ⟨tail', opens'⟩ := skipSpace_of_isArray after
    rw [whole, whole, opens, opens', noArray, noArray]

theorem numeral_revised {s : Shape} {bs bs' : Bytes} (h : Revised s bs bs') : whole numeral bs' = whole numeral bs :=
  whole_of_revised (numeral_of_first rfl (by decide)) (numeral_of_first rfl (by decide)) h

theorem steady_readString (s : Shape) : Steady s readString := fun _ _ _ revised read =>
  (whole_of_revised (fun _ => rfl) (fun _ => rfl) revised).trans read

theorem steady_readWord (s : Shape) : Steady s readWord := by
  intro bs bs' n revised read
  rwa [readWord, numeral_revised revised]

theorem steady_readOption {s : Shape} {read : Bytes → Option α} (steady : Steady s read) :
    Steady s (readOption read) := by
  intro bs bs' o revised found
  have null : whole (literal [0x6E, 0x75, 0x6C, 0x6C]) bs' = whole (literal [0x6E, 0x75, 0x6C, 0x6C]) bs :=
    whole_of_revised (fun _ => rfl) (fun _ => rfl) revised
  unfold readOption at found ⊢
  rw [null]
  split at found
  case isTrue isNull =>
    rw [if_pos isNull]
    exact found
  case isFalse notNull =>
    obtain ⟨a, value, rfl⟩ := Option.map_eq_some_iff.1 found
    rw [if_neg notNull, steady bs bs' a revised value]
    rfl

theorem memberTexts_of_isArray {bs : Bytes} {items : List Bytes} (h : IsArray bs items) :
    whole memberTexts bs = none := by
  obtain ⟨tail, opens⟩ := skipSpace_of_isArray h
  rw [whole, opens]
  rfl

theorem elementTexts_of_isObject {κ : Type} {name : Scan κ} {bs : Bytes} {members : List (κ × Bytes)}
    (h : IsObject name bs members) : whole elementTexts bs = none := by
  obtain ⟨tail, opens⟩ := skipSpace_of_isObject h
  rw [whole, opens]
  rfl

theorem mapM_of_forall₂ {β : Type} {f : β → Option α} {bs bs' : List β} {as : List α}
    (each : List.Forall₂ (fun b b' => ∀ a, f b = some a → f b' = some a) bs bs') (found : bs.mapM f = some as) :
    bs'.mapM f = some as := by
  induction each generalizing as with
  | nil => exact found
  | cons first _ ih =>
    rw [List.mapM_cons] at found ⊢
    obtain ⟨a, head, found⟩ := Option.bind_eq_some_iff.1 found
    obtain ⟨more, tail, same⟩ := Option.bind_eq_some_iff.1 found
    rw [first a head, ih tail]
    exact same

theorem steady_readStrings (s : Shape) : Steady s readStrings := by
  intro bs bs' strings revised found
  cases revised with
  | same => exact found
  | object before =>
    rw [readStrings, elementTexts_of_isObject before] at found
    cases found
  | @array _ _ _ items items' before after length values =>
    rw [readStrings, elementTexts_iff.2 before] at found
    rw [readStrings, elementTexts_iff.2 after]
    have each : List.Forall₂ (fun item item' => ∀ role, readString item = some role → readString item' = some role)
        items items' :=
      List.forall₂_iff_get.2 ⟨length.symm, fun i h h' role => steady_readString _ _ _ role
        (values i _ _ (List.getElem?_eq_getElem h) (List.getElem?_eq_getElem h'))⟩
    exact mapM_of_forall₂ each found

/-! ## Fields -/

/-- The value of a name that occurs once among the members. -/
theorem lookup_iff {members : List (String × Bytes)} {n : String} (once : (members.filter fun m => m.1 = n).length ≤ 1)
    {text : Bytes} : (members.find? fun m => m.1 = n).map Prod.snd = some text ↔ (n, text) ∈ members := by
  rw [← List.head?_filter]
  constructor
  · intro found
    obtain ⟨m, first, rfl⟩ := Option.map_eq_some_iff.1 found
    obtain ⟨among, same⟩ := List.mem_filter.1 (List.mem_of_head? first)
    rwa [← of_decide_eq_true same]
  · intro among
    have kept : (n, text) ∈ members.filter fun m => m.1 = n := List.mem_filter.2 ⟨among, decide_eq_true rfl⟩
    obtain ⟨m, only⟩ := List.length_eq_one_iff.1 (Nat.le_antisymm once (List.length_pos_of_mem kept))
    rw [only, List.mem_singleton] at kept
    rw [only, ← kept]
    rfl

/-- A field is found in the revised members exactly if it is found in the original ones. -/
theorem rel_of_lookup {R : Bytes → Bytes → Prop} {members revised : List (String × Bytes)} {n : String}
    (once : (members.filter fun m => m.1 = n).length ≤ 1) (once' : (revised.filter fun m => m.1 = n).length ≤ 1)
    (forth : ∀ text, (n, text) ∈ members → ∃ text', (n, text') ∈ revised ∧ R text text')
    (back : ∀ text', (n, text') ∈ revised → ∃ text, (n, text) ∈ members) :
    Option.Rel R ((members.find? fun m => m.1 = n).map Prod.snd) ((revised.find? fun m => m.1 = n).map Prod.snd) := by
  cases found : (members.find? fun m => m.1 = n).map Prod.snd with
  | some text =>
    obtain ⟨text', among, related⟩ := forth text ((lookup_iff once).1 found)
    rw [(lookup_iff once').2 among]
    exact .some related
  | none =>
    cases found' : (revised.find? fun m => m.1 = n).map Prod.snd with
    | none => exact .none
    | some text' =>
      obtain ⟨text, among⟩ := back text' ((lookup_iff once').1 found')
      rw [(lookup_iff once).2 among] at found
      cases found

theorem once_of_fieldsOnce {names : List String} {members : List (String × Bytes)}
    (h : fieldsOnce names members = true) {n : String} (known : n ∈ names) :
    (members.filter fun m => m.1 = n).length ≤ 1 :=
  of_decide_eq_true (List.all_eq_true.1 h n known)

/-- How often a name occurs depends on the names alone. -/
theorem length_filter_name (members : List (String × Bytes)) (n : String) :
    (members.filter fun m => m.1 = n).length = ((members.map Prod.fst).filter fun k => k = n).length := by
  rw [List.filter_map, List.length_map]
  rfl

theorem sublist_zip_names (names : List String) (items : List Bytes) :
    ((names.zip items).map Prod.fst).Sublist names := by
  induction names generalizing items with
  | nil => exact List.Sublist.refl []
  | cons n names ih =>
    cases items with
    | nil => exact List.nil_sublist _
    | cons item items => exact (ih items).cons_cons n

section Fields

variable {s : Shape} {bs bs' : Bytes} {field : FieldTexts}

/-- Every field of a record is there with a revised text, or is missing as before. -/
def FieldsRevised (s : Shape) (field field' : FieldTexts) : Prop :=
  ∀ n ∈ s.names, Option.Rel (Revised (s.field n)) (field n) (field' n)

theorem fieldsRevised_refl (s : Shape) (field : FieldTexts) : FieldsRevised s field field := by
  intro n _
  cases field n with
  | none => exact .none
  | some text => exact .some .same

theorem fields_of_object {members members' added all : List (String × Bytes)} (before : IsObject quoted bs members)
    (after : IsObject quoted bs' all) (named : members'.map Prod.fst = members.map Prod.fst)
    (values : ∀ (i : Nat) (m m' : String × Bytes), members[i]? = some m → members'[i]? = some m' → m.1 ∈ s.names →
      Revised (s.field m.1) m.2 m'.2)
    (unknown : ∀ m ∈ added, m.1 ∉ s.names) (permuted : all.Perm (members' ++ added))
    (found : fields? s.names bs = some field) :
    ∃ field', fields? s.names bs' = some field' ∧ FieldsRevised s field field' := by
  rw [fields?, memberTexts_iff.2 before] at found
  dsimp only at found
  split at found
  case isFalse => cases found
  case isTrue once =>
    cases found
    have count {n : String} (known : n ∈ s.names) : (all.filter fun m => m.1 = n).length ≤ 1 := by
      have none : added.filter (fun m => m.1 = n) = [] :=
        List.filter_eq_nil_iff.2 fun m among same => unknown m among (of_decide_eq_true same ▸ known)
      rw [(permuted.filter _).length_eq, List.filter_append, none, List.append_nil, length_filter_name, named,
        ← length_filter_name]
      exact once_of_fieldsOnce once known
    have once' : fieldsOnce s.names all = true :=
      List.all_eq_true.2 fun n known => decide_eq_true (count known)
    refine ⟨fun n => (all.find? fun m => m.1 = n).map Prod.snd, ?_, ?_⟩
    · rw [fields?, memberTexts_iff.2 after]
      simp only [once', if_true]
    · intro n known
      have names (i : Nat) : (members'[i]?).map Prod.fst = (members[i]?).map Prod.fst := by
        rw [← List.getElem?_map, ← List.getElem?_map, named]
      refine rel_of_lookup (once_of_fieldsOnce once known) (count known) ?_ ?_
      · intro text among
        obtain ⟨i, here⟩ := List.mem_iff_getElem?.1 among
        have name := names i
        rw [here] at name
        obtain ⟨⟨k, text'⟩, here', rfl⟩ := Option.map_eq_some_iff.1 name
        have kept := List.mem_append_left added (List.mem_of_getElem? here')
        exact ⟨text', permuted.mem_iff.2 kept, values i _ _ here here' known⟩
      · intro text' among
        rcases List.mem_append.1 (permuted.mem_iff.1 among) with kept | other
        · obtain ⟨i, here'⟩ := List.mem_iff_getElem?.1 kept
          have name := names i
          rw [here'] at name
          obtain ⟨⟨k, text⟩, here, rfl⟩ := Option.map_eq_some_iff.1 name.symm
          exact ⟨text, List.mem_of_getElem? here⟩
        · exact absurd known (unknown _ other)

theorem fields_of_array {items items' : List Bytes} (distinct : s.names.Nodup) (before : IsArray bs items)
    (after : IsArray bs' items') (length : items'.length = items.length)
    (values : ∀ (i : Nat) (item item' : Bytes), items[i]? = some item → items'[i]? = some item' →
      Revised (s.item i) item item') (found : fields? s.names bs = some field) :
    ∃ field', fields? s.names bs' = some field' ∧ FieldsRevised s field field' := by
  rw [fields?, memberTexts_of_isArray before, elementTexts_iff.2 before] at found
  dsimp only at found
  split at found
  case isFalse => cases found
  case isTrue fits =>
    cases found
    have once (items : List Bytes) {n : String} (known : n ∈ s.names) :
        ((s.names.zip items).filter fun m => m.1 = n).length ≤ 1 :=
      once_of_fieldsOnce (fieldsOnce_of_nodup s.names (distinct.sublist (sublist_zip_names s.names items))) known
    refine ⟨fun n => ((s.names.zip items').find? fun m => m.1 = n).map Prod.snd, ?_, ?_⟩
    · rw [fields?, memberTexts_of_isArray after, elementTexts_iff.2 after]
      exact if_pos (length ▸ fits)
    · intro n known
      refine rel_of_lookup (once items known) (once items' known) ?_ ?_
      · intro text among
        obtain ⟨i, here⟩ := List.mem_iff_getElem?.1 among
        obtain ⟨name, value⟩ := List.getElem?_zip_eq_some.1 here
        obtain ⟨text', value'⟩ : ∃ text', items'[i]? = some text' := by
          have := (List.getElem?_eq_some_iff.1 value).1
          exact ⟨_, List.getElem?_eq_getElem (length ▸ this)⟩
        have shape : s.item i = s.field n := by simp [Shape.item, name]
        refine ⟨text', List.mem_iff_getElem?.2 ⟨i, List.getElem?_zip_eq_some.2 ⟨name, value'⟩⟩, ?_⟩
        exact shape ▸ values i _ _ value value'
      · intro text' among
        obtain ⟨i, here⟩ := List.mem_iff_getElem?.1 among
        obtain ⟨name, value'⟩ := List.getElem?_zip_eq_some.1 here
        obtain ⟨text, value⟩ : ∃ text, items[i]? = some text := by
          have := (List.getElem?_eq_some_iff.1 value').1
          exact ⟨_, List.getElem?_eq_getElem (length ▸ this)⟩
        exact ⟨text, List.mem_iff_getElem?.2 ⟨i, List.getElem?_zip_eq_some.2 ⟨name, value⟩⟩⟩

/-- **The fields of a revised record are revised.** -/
theorem fields_of_revised (distinct : s.names.Nodup) (revised : Revised s bs bs')
    (found : fields? s.names bs = some field) :
    ∃ field', fields? s.names bs' = some field' ∧ FieldsRevised s field field' := by
  cases revised with
  | same => exact ⟨field, found, fieldsRevised_refl s field⟩
  | object before after named values unknown permuted =>
    exact fields_of_object before after named values unknown permuted found
  | array before after length values => exact fields_of_array distinct before after length values found

/-- A record is read steadily if what is made of its fields does not change when these are revised. -/
theorem steady_record {next : FieldTexts → Option α} (distinct : s.names.Nodup)
    (each : ∀ field field' a, FieldsRevised s field field' → next field = some a → next field' = some a) :
    Steady s fun bs => fields? s.names bs >>= next := by
  intro bs bs' a revised found
  obtain ⟨field, fields, result⟩ := Option.bind_eq_some_iff.1 found
  obtain ⟨field', fields', related⟩ := fields_of_revised distinct revised fields
  exact Option.bind_eq_some_iff.2 ⟨field', fields', each field field' a related result⟩

/-- A field that is read steadily is read the same from the revised record, and so is what follows. -/
theorem bind_field {β : Type} {fallback : α} {read : Bytes → Option α} {o o' : Option Bytes}
    {next next' : α → Option β} {b : β} (steady : Steady s read) (related : Option.Rel (Revised s) o o')
    (follows : ∀ a, next a = some b → next' a = some b) :
    (fieldOr fallback read o >>= next) = some b → (fieldOr fallback read o' >>= next') = some b := by
  intro found
  obtain ⟨a, value, result⟩ := Option.bind_eq_some_iff.1 found
  have value' : fieldOr fallback read o' = some a := by
    cases related with
    | none => exact value
    | some revised => exact steady _ _ a revised value
  exact Option.bind_eq_some_iff.2 ⟨a, value', follows a result⟩

end Fields

end CertWatch.Json
