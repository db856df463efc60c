import CertWatch.KeyPath

/-!
# Paths and their parts

A path is cut at its slashes and a file name at its last dot, so no segment has a slash and no extension
has a slash or a dot, and nothing is lost: segments, joined by slashes, are the path again, and a stem and
an extension, joined by a dot, are the file name. The other way round, parts that are joined are found again.
-/

namespace CertWatch.KeyPath
set_option autoImplicit false

/-! ## Cutting -/

section Cut

variable {c d : Char} {cs front back : List Char}

theorem cut_ne_nil (c : Char) (cs : List Char) : cut c cs ≠ [] := by
  cases cs with
  | nil => simp [cut]
  | cons d rest =>
    rw [cut]
    split
    · simp
    · split <;> simp

theorem cut_cons_of_ne (ne : d ≠ c) {first : List Char} {more : List (List Char)}
    (rest : cut c cs = first :: more) : cut c (d :: cs) = (d :: first) :: more := by
  rw [cut, if_neg ne, rest]

/-- A text without the character is left whole. -/
theorem cut_of_not_mem (absent : c ∉ cs) : cut c cs = [cs] := by
  induction cs with
  | nil => rfl
  | cons d rest ih =>
    obtain ⟨ne, absent⟩ := List.ne_and_not_mem_of_not_mem_cons absent
    exact cut_cons_of_ne ne.symm (ih absent)

/-- What stands before the first occurrence of the character is the first part. -/
theorem cut_append (absent : c ∉ front) (back : List Char) :
    cut c (front ++ c :: back) = front :: cut c back := by
  induction front with
  | nil => rw [List.nil_append, cut, if_pos rfl]
  | cons d rest ih =>
    obtain ⟨ne, absent⟩ := List.ne_and_not_mem_of_not_mem_cons absent
    exact cut_cons_of_ne ne.symm (ih absent)

/-- No part has the character. -/
theorem not_mem_of_mem_cut {part : List Char} (among : part ∈ cut c cs) : c ∉ part := by
  induction cs generalizing part with
  | nil =>
    rw [cut, List.mem_singleton] at among
    simp [among]
  | cons d rest ih =>
    by_cases here : d = c
    · rw [cut, if_pos here] at among
      rcases List.mem_cons.1 among with rfl | later
      · exact List.not_mem_nil
      · exact ih later
    · obtain ⟨first, more, parts⟩ := List.exists_cons_of_ne_nil (cut_ne_nil c rest)
      rw [cut_cons_of_ne here parts] at among
      rw [parts] at ih
      rcases List.mem_cons.1 among with rfl | later
      · exact List.not_mem_cons_of_ne_of_not_mem (Ne.symm here) (ih List.mem_cons_self)
      · exact ih (List.mem_cons_of_mem _ later)

theorem cutLast_eq_none_iff : cutLast c cs = none ↔ c ∉ cs := by
  induction cs with
  | nil => simp [cutLast]
  | cons d rest ih =>
    rw [cutLast, List.mem_cons, not_or, ← ih]
    cases cutLast c rest with
    | some parts => simp
    | none => by_cases here : c = d <;> simp [here, Ne.symm]

/-- What stands after the last occurrence of the character is the second part. -/
theorem cutLast_append (front : List Char) (absent : c ∉ back) :
    cutLast c (front ++ c :: back) = some (front, back) := by
  induction front with
  | nil =>
    rw [List.nil_append, cutLast, cutLast_eq_none_iff.2 absent]
    exact if_pos rfl
  | cons d rest ih => rw [List.cons_append, cutLast, ih]

/-- A text is cut at the last occurrence of the character. -/
theorem cutLast_eq_some_iff :
    cutLast c cs = some (front, back) ↔ cs = front ++ c :: back ∧ c ∉ back := by
  refine ⟨fun h => ?_, fun ⟨text, absent⟩ => text ▸ cutLast_append front absent⟩
  induction cs generalizing front with
  | nil => cases h
  | cons d rest ih =>
    rw [cutLast] at h
    split at h
    case h_1 front' back' same =>
      cases h
      obtain ⟨text, absent⟩ := ih same
      exact ⟨congrArg (d :: ·) text, absent⟩
    case h_2 none =>
      split at h
      case isTrue here =>
        cases h
        exact ⟨congrArg (· :: back) here, cutLast_eq_none_iff.1 none⟩
      case isFalse => cases h

/-- The parts of a text make it up again, with the character between them. -/
theorem intercalate_cut (c : Char) (cs : List Char) : [c].intercalate (cut c cs) = cs := by
  induction cs with
  | nil => rfl
  | cons d rest ih =>
    obtain ⟨first, more, parts⟩ := List.exists_cons_of_ne_nil (cut_ne_nil c rest)
    rw [parts] at ih
    by_cases here : d = c
    · rw [cut, if_pos here, parts, List.intercalate_cons_cons, ih, here]
      rfl
    · rw [cut_cons_of_ne here parts, ← ih]
      cases more with
      | nil => rw [List.intercalate_singleton, List.intercalate_singleton]
      | cons second more =>
        rw [List.intercalate_cons_cons, List.intercalate_cons_cons]
        rfl

/-- What is taken off the front of a text is what stood there. -/
theorem append_stripFront (front cs : List Char) :
    (if front <+: cs then front else []) ++ stripFront front cs = cs := by
  unfold stripFront
  by_cases begins : front <+: cs
  · rw [if_pos begins, if_pos (List.isPrefixOf_iff_prefix.2 begins)]
    exact List.prefix_iff_eq_append.1 begins
  · rw [if_neg begins, if_neg (mt List.isPrefixOf_iff_prefix.1 begins), List.nil_append]

end Cut

/-! ## Segments and extensions -/

/-- A text that can stand between two slashes of a path: it is not blank and has no slash. -/
structure IsSegment (s : String) : Prop where
  visible : Text.blank s = false
  whole : '/' ∉ s.toList

/-- Nothing is dropped at the front of a path that begins with a segment. -/
theorem IsSegment.dropWhile_append {s : String} (h : IsSegment s) (rest : List Char) :
    (s.toList ++ rest).dropWhile (· = '/') = s.toList ++ rest := by
  obtain ⟨visible, whole⟩ := h
  cases letters : s.toList with
  | nil => simp [Text.blank, letters] at visible
  | cons d more =>
    rw [letters] at whole
    have other : ¬ d = '/' := fun same => whole (same ▸ List.mem_cons_self)
    rw [List.cons_append, List.dropWhile_cons_of_neg (by simpa using other)]

/-- A text that can stand behind the last dot of a file name. -/
structure IsExtension (s : String) : Prop where
  visible : Text.blank s = false
  whole : '/' ∉ s.toList
  last : '.' ∉ s.toList

variable {p : KeyPath} {s : String}

theorem unlessBlank_eq_some_iff {t : String} :
    unlessBlank s = some t ↔ Text.blank s = false ∧ s = t := by
  unfold unlessBlank
  cases Text.blank s <;> simp

theorem whole_of_mem_segments (among : s ∈ p.segments) : '/' ∉ s.toList := by
  obtain ⟨part, cut, rfl⟩ := List.mem_map.1 among
  rw [String.toList_ofList]
  exact not_mem_of_mem_cut cut

theorem fileName_eq_some_iff :
    p.fileName = some s ↔ p.segments.getLast? = some s ∧ Text.blank s = false := by
  rw [fileName, Option.bind_eq_some_iff]
  constructor
  · rintro ⟨last, ends, named⟩
    obtain ⟨visible, rfl⟩ := unlessBlank_eq_some_iff.1 named
    exact ⟨ends, visible⟩
  · rintro ⟨ends, visible⟩
    exact ⟨s, ends, unlessBlank_eq_some_iff.2 ⟨visible, rfl⟩⟩

theorem whole_of_fileName (h : p.fileName = some s) : '/' ∉ s.toList :=
  whole_of_mem_segments (List.mem_of_getLast? (fileName_eq_some_iff.1 h).1)

/-- An extension has neither a slash nor a dot. -/
theorem isExtension_of_extension (h : p.extension = some s) : IsExtension s := by
  obtain ⟨name, named, h⟩ := Option.bind_eq_some_iff.1 h
  obtain ⟨⟨front, back⟩, parts, h⟩ := Option.bind_eq_some_iff.1 h
  obtain ⟨visible, rfl⟩ := unlessBlank_eq_some_iff.1 h
  obtain ⟨text, absent⟩ := cutLast_eq_some_iff.1 parts
  refine ⟨visible, ?_, ?_⟩
  · rw [String.toList_ofList]
    refine fun among => whole_of_fileName named ?_
    rw [text]
    exact List.mem_append_right front (List.mem_cons_of_mem _ among)
  · rwa [String.toList_ofList]

/-- A text that is not blank has a character, and nothing that is put around it makes it blank. -/
theorem blank_append {t : String} (visible : Text.blank s = false) : Text.blank (s ++ t) = false := by
  rw [Text.blank, String.toList_append, List.all_append, ← Text.blank, visible, Bool.false_and]

/-- A file name that is made of a stem and an extension has these. -/
theorem stem_extension_of_fileName {stem role : String} (name : p.fileName = some (stem ++ "." ++ role))
    (visible : Text.blank stem = false) (ends : IsExtension role) :
    p.stem = some stem ∧ p.extension = some role := by
  have parts : cutLast '.' (stem.toList ++ '.' :: role.toList) = some (stem.toList, role.toList) :=
    cutLast_append stem.toList ends.last
  constructor
  · simp [KeyPath.stem, name, parts, unlessBlank, visible]
  · simp [KeyPath.extension, name, parts, unlessBlank, ends.visible]

/-- A stem and an extension together are the file name, with a dot between them. -/
theorem stem_extension_iff {stem role : String} : p.stem = some stem ∧ p.extension = some role ↔
    p.fileName = some (stem ++ "." ++ role) ∧ Text.blank stem = false ∧ IsExtension role := by
  constructor
  · rintro ⟨before, after⟩
    have ends := isExtension_of_extension after
    obtain ⟨name, named, after⟩ := Option.bind_eq_some_iff.1 after
    obtain ⟨⟨front, back⟩, parts, after⟩ := Option.bind_eq_some_iff.1 after
    obtain ⟨-, rfl⟩ := unlessBlank_eq_some_iff.1 after
    simp only [KeyPath.stem, named, parts, Option.bind_eq_bind, Option.bind_some] at before
    obtain ⟨visible, rfl⟩ := unlessBlank_eq_some_iff.1 before
    have text : name = String.ofList front ++ "." ++ String.ofList back := by
      rw [← String.toList_inj, (cutLast_eq_some_iff.1 parts).1]
      simp
    exact ⟨text ▸ named, visible, ends⟩
  · rintro ⟨name, visible, ends⟩
    exact stem_extension_of_fileName name visible ends

/-- A file name without a dot is a stem without an extension. -/
theorem stem_of_dotless (named : p.fileName = some s) (dotless : '.' ∉ s.toList) :
    p.stem = some s ∧ p.extension = none := by
  have whole := cutLast_eq_none_iff.2 dotless
  obtain ⟨-, visible⟩ := fileName_eq_some_iff.1 named
  constructor
  · simp [KeyPath.stem, named, whole, unlessBlank, visible]
  · simp [KeyPath.extension, named, whole]

/-! ## What follows expected segments -/

variable {expected rest : List String}

@[simp] theorem after_nil (p : KeyPath) : p.after [] = p.segments := by simp [after]

theorem after_of_segments (h : p.segments = expected ++ rest) : p.after expected = rest := by
  have begins : expected.isPrefixOf p.segments = true :=
    List.isPrefixOf_iff_prefix.2 ⟨rest, h.symm⟩
  rw [after, if_pos begins, h, List.drop_left]

/-- Something follows only if the path begins with what is expected and goes on. -/
theorem after_eq_iff (some : rest ≠ []) : p.after expected = rest ↔ p.segments = expected ++ rest := by
  refine ⟨fun h => ?_, after_of_segments⟩
  unfold after at h
  split at h
  case isTrue begins =>
    rw [← h]
    exact (List.prefix_iff_eq_append.1 (List.isPrefixOf_iff_prefix.1 begins)).symm
  case isFalse => exact absurd h.symm some

/-- To expect more is to expect it of what follows. -/
theorem after_append {a b : List String} (h : p.after a = b ++ rest) : p.after (a ++ b) = rest := by
  by_cases nothing : b ++ rest = []
  · obtain ⟨rfl, rfl⟩ := List.append_eq_nil_iff.1 nothing
    rwa [List.append_nil]
  · apply after_of_segments
    rw [(after_eq_iff nothing).1 h, List.append_assoc]

theorem after_append_of_not_prefix {a b : List String} (h : ¬ b <+: p.after a) : p.after (a ++ b) = [] := by
  apply Decidable.byContradiction
  intro some
  have segments := (after_eq_iff some).1 rfl
  rw [List.append_assoc] at segments
  exact h ⟨_, (after_of_segments segments).symm⟩

/-- The whole path, joined by slashes, is the key without its scope and without slashes at the front. -/
theorem toList_intercalate_segments (p : KeyPath) : ("/".intercalate p.segments).toList = p.relative := by
  have parts : p.segments.map String.toList = cut '/' p.relative := by
    simp [segments, Function.comp_def]
  rw [String.toList_intercalate, parts]
  exact intercalate_cut '/' p.relative

/-- **Decomposition.** The whole path, joined by slashes, is the key without the scope, if the key begins
with that, and without the slashes that come next. Something follows expected segments exactly if these
are the front of the whole path and not all of it, and then it is the remainder; to expect more is to
expect it of what follows. The file name is the last segment, unless that is blank. There are a stem and an
extension exactly if the file name is made of them, with a dot between, where neither is blank and the
extension has no dot and no slash. A file name without a dot is a stem without an extension. -/
theorem decomposition_exact (p : KeyPath) :
    (∃ slashes, (∀ c ∈ slashes, c = '/') ∧
      p.key.toList = (if p.scope.toList <+: p.key.toList then p.scope.toList else []) ++ slashes ++
        ("/".intercalate (p.after [])).toList ∧
      ("/".intercalate (p.after [])).toList.head? ≠ some '/') ∧
    (∀ expected rest, rest ≠ [] → (p.after expected = rest ↔ p.after [] = expected ++ rest)) ∧
    (∀ a b, (∀ rest, p.after a = b ++ rest → p.after (a ++ b) = rest) ∧
      (¬ b <+: p.after a → p.after (a ++ b) = [])) ∧
    (∀ name, p.fileName = some name ↔ (p.after []).getLast? = some name ∧ Text.blank name = false) ∧
    (∀ stem role, p.stem = some stem ∧ p.extension = some role ↔
      p.fileName = some (stem ++ "." ++ role) ∧ Text.blank stem = false ∧ IsExtension role) ∧
    ∀ name, p.fileName = some name → '.' ∉ name.toList → p.stem = some name ∧ p.extension = none := by
  simp only [after_nil]
  refine ⟨⟨(stripFront p.scope.toList p.key.toList).takeWhile (· = '/'), fun c among => ?_, ?_, ?_⟩,
    fun expected rest some => after_eq_iff some,
    fun a b => ⟨fun rest => after_append, after_append_of_not_prefix⟩, fun name => fileName_eq_some_iff,
    fun stem role => stem_extension_iff, fun name => stem_of_dotless⟩
  · simpa using List.all_eq_true.1 List.all_takeWhile c among
  · rw [toList_intercalate_segments, relative, List.append_assoc, List.takeWhile_append_dropWhile,
      append_stripFront]
  · rw [toList_intercalate_segments]
    intro slash
    have first := List.head?_dropWhile_not (· = '/') (stripFront p.scope.toList p.key.toList)
    rw [relative] at slash
    rw [slash] at first
    cases first

/-- Of a doubled slash inside a path an empty segment remains, and of two dots the last one counts. -/
theorem decomposition_exact_of_doubled_slash :
    let p : KeyPath := ⟨"ns", "ns//a//site.tar.gz"⟩
    p.after ["a", ""] = ["site.tar.gz"] ∧ p.stem = some "site.tar" ∧ p.extension = some "gz" := by
  intro p
  have whole : p.after [] = ["a", "", "site.tar.gz"] := by decide +kernel
  obtain ⟨-, follows, -, names, ends, -⟩ := decomposition_exact p
  have name : p.fileName = some ("site.tar" ++ "." ++ "gz") :=
    (names _).2 ⟨by rw [whole]; rfl, by decide⟩
  exact ⟨(follows _ _ (List.cons_ne_nil _ _)).2 whole,
    (ends _ _).2 ⟨name, by decide, by decide, by decide, by decide⟩⟩

end CertWatch.KeyPath
