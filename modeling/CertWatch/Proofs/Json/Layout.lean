import Mathlib.Data.List.Forall2
import CertWatch.Json.Record

/-!
# Texts with parts

A reader takes the text of an item wherever the item may end: where white space, a comma or a closing bracket
follows, or nothing. Between an opening and a closing bracket stand texts of parts with commas between them, each
with white space around it. Such a text is read part by part, and every text that is read between brackets is of
this form.
-/

namespace CertWatch.Json
set_option autoImplicit false

section Space

/-- Bytes whose first one is no white space. -/
def StartsBare (bs : Bytes) : Prop := ∃ b rest, bs = b :: rest ∧ isSpace b = false

/-- Nothing but white space. -/
def AllSpace (bs : Bytes) : Prop := ∀ b ∈ bs, isSpace b = true

/-- A text with white space around it. -/
def Spaced (text bs : Bytes) : Prop := ∃ front back, AllSpace front ∧ AllSpace back ∧ bs = front ++ (text ++ back)

theorem StartsBare.append {bs : Bytes} (h : StartsBare bs) (rest : Bytes) : StartsBare (bs ++ rest) := by
  obtain ⟨b, more, rfl, bare⟩ := h
  exact ⟨b, more ++ rest, rfl, bare⟩

theorem skipSpace_of_startsBare {bs : Bytes} (h : StartsBare bs) : skipSpace bs = bs := by
  obtain ⟨b, rest, rfl, bare⟩ := h
  simp [skipSpace, bare]

theorem skipSpace_of_allSpace {bs : Bytes} (h : AllSpace bs) : skipSpace bs = [] := by
  rw [← List.append_nil bs, skipSpace, List.dropWhile_append_of_pos h]
  rfl

theorem skipSpace_append {front bs : Bytes} (h : AllSpace front) (bare : StartsBare bs) :
    skipSpace (front ++ bs) = bs := by
  rw [skipSpace, List.dropWhile_append_of_pos h]
  exact skipSpace_of_startsBare bare

/-- White space at the front is what is dropped. -/
theorem exists_skipSpace (bs : Bytes) : ∃ front, AllSpace front ∧ bs = front ++ skipSpace bs :=
  ⟨bs.takeWhile isSpace, List.all_eq_true.1 List.all_takeWhile, List.takeWhile_append_dropWhile.symm⟩

theorem allSpace_of_skipSpace {bs : Bytes} (h : skipSpace bs = []) : AllSpace bs := by
  obtain ⟨front, blank, same⟩ := exists_skipSpace bs
  rw [h, List.append_nil] at same
  exact same ▸ blank

theorem spaced_self (text : Bytes) : Spaced text text := ⟨[], [], nofun, nofun, by simp⟩

end Space

/-- What can follow a value: nothing, white space, a comma or a closing bracket. -/
def Delimited (rest : Bytes) : Prop :=
  rest = [] ∨ ∃ b more, rest = b :: more ∧ (b = 0x2C ∨ b = 0x5D ∨ b = 0x7D ∨ isSpace b = true)

theorem delimited_of_allSpace {back rest : Bytes} (h : AllSpace back) (ends : Delimited rest) :
    Delimited (back ++ rest) := by
  cases back with
  | nil => exact ends
  | cons b back => exact .inr ⟨b, _, rfl, .inr (.inr (.inr (h b List.mem_cons_self)))⟩

/-- A reader takes the text of an item for a value, wherever the item may end. -/
structure Reads {β : Type} (item : Scan β) (text : Bytes) (v : β) : Prop where
  bare : StartsBare text
  read : ∀ rest, Delimited rest → item (text ++ rest) = some (v, rest)

/-- A whole text is read, whatever white space is around it. -/
theorem Reads.whole {α : Type} {scan : Scan α} {text bs : Bytes} {a : α} (h : Reads scan text a)
    (spaced : Spaced text bs) : whole scan bs = some a := by
  obtain ⟨front, back, before, after, rfl⟩ := spaced
  have read := h.read back (by simpa using delimited_of_allSpace after (.inl rfl))
  rw [Json.whole, skipSpace_append before (h.bare.append back), read]
  simp [skipSpace_of_allSpace after]

/-- What a reader takes off the front of a text is of a kind. -/
def Cuts {α : Type} (scan : Scan α) (part : Bytes → α → Prop) : Prop :=
  ∀ bs a rest, scan bs = some (a, rest) → ∃ text, bs = text ++ rest ∧ part text a

/-! ## Parts between brackets -/

/-- The text between two brackets that has parts of a kind, which belong to the given ones. -/
def Listed {α : Type} (part : Bytes → α → Prop) (inside : Bytes) (as : List α) : Prop :=
  as = [] ∧ AllSpace inside ∨ ∃ texts, texts ≠ [] ∧ inside = [0x2C].intercalate texts ∧
    List.Forall₂ (fun bs a => ∃ text, Spaced text bs ∧ part text a) texts as

theorem intercalate_cons {α : Type} (comma : List α) (first : List α) (more : List (List α)) :
    comma.intercalate (first :: more) = first ++ more.flatMap fun next => comma ++ next := by
  induction more generalizing first with
  | nil => simp [List.intercalate]
  | cons next more ih => rw [List.intercalate_cons_cons, ih]; simp

theorem length_le_intercalate {comma text : Bytes} {texts : List Bytes} (among : text ∈ texts) :
    text.length ≤ (comma.intercalate texts).length := by
  obtain ⟨before, after, rfl⟩ := List.append_of_mem among
  cases before with
  | nil => rw [List.nil_append, intercalate_cons, List.length_append]; omega
  | cons first before =>
    rw [List.cons_append, intercalate_cons]
    simp only [List.flatMap_append, List.flatMap_cons, List.length_append]
    omega

/-- Parts of one kind are parts of another if each of them is; none is longer than the whole text. -/
theorem Listed.imp {α β : Type} {part : Bytes → α → Prop} {part' : Bytes → β → Prop} {f : α → β} {inside : Bytes}
    {as : List α} (h : Listed part inside as)
    (weaker : ∀ text, ∀ a ∈ as, text.length ≤ inside.length → part text a → part' text (f a)) :
    Listed part' inside (as.map f) := by
  rcases h with ⟨rfl, blank⟩ | ⟨texts, some, rfl, parts⟩
  · exact .inl ⟨rfl, blank⟩
  · have fits : ∀ bs ∈ texts, bs.length ≤ ([0x2C].intercalate texts).length := fun _ => length_le_intercalate
    refine .inr ⟨texts, some, rfl, ?_⟩
    rw [List.forall₂_map_right_iff]
    clear some
    generalize [0x2C].intercalate texts = inside at weaker fits
    induction parts with
    | nil => exact .nil
    | cons first _ ih =>
      obtain ⟨text, ⟨front, back, before, after, rfl⟩, part⟩ := first
      have short : text.length ≤ inside.length := by
        have := fits _ List.mem_cons_self
        simp only [List.length_append] at this
        omega
      exact .cons ⟨text, ⟨front, back, before, after, rfl⟩, weaker text _ List.mem_cons_self short part⟩
        (ih (fun text a among => weaker text a (List.mem_cons_of_mem _ among))
          fun bs among => fits bs (List.mem_cons_of_mem _ among))

/-- The texts of given parts, with nothing but commas between them. -/
theorem listed_intercalate {α β : Type} {part : Bytes → β → Prop} {text : α → Bytes} {value : α → β} {as : List α}
    (parts : ∀ a ∈ as, part (text a) (value a)) : Listed part ([0x2C].intercalate (as.map text)) (as.map value) := by
  cases as with
  | nil => exact .inl ⟨rfl, nofun⟩
  | cons a as =>
    have some : (a :: as).map text ≠ [] := List.cons_ne_nil _ _
    refine .inr ⟨_, some, rfl, ?_⟩
    rw [List.forall₂_map_left_iff, List.forall₂_map_right_iff, List.forall₂_same]
    exact fun b among => ⟨text b, spaced_self _, parts b among⟩

section Parts

variable {α : Type} {element : Scan α} {close : UInt8}

/-- Parts are read one by one until the bracket is closed. -/
theorem separated_joined (closing : close = 0x5D ∨ close = 0x7D) {first : Bytes} {a : α} {texts : List Bytes}
    {as : List α} (parts : List.Forall₂ (fun bs a => ∃ text, Spaced text bs ∧ Reads element text a) (first :: texts)
      (a :: as)) {fuel : Nat} (enough : texts.length < fuel) (done : List α) (rest : Bytes) :
    separated close element fuel done (first ++ ((texts.flatMap fun next => 0x2C :: next) ++ close :: rest)) =
      some (done.reverse ++ a :: as, rest) := by
  have notComma : close ≠ 0x2C := by rcases closing with rfl | rfl <;> decide
  have bare : isSpace close = false := by rcases closing with rfl | rfl <;> rfl
  have ends (more : Bytes) : Delimited (close :: more) :=
    .inr ⟨close, more, rfl, .inr (closing.imp_right .inl)⟩
  induction texts generalizing first a as fuel done with
  | nil =>
    obtain ⟨⟨text, ⟨front, back, before, after, rfl⟩, reads⟩, none⟩ := List.forall₂_cons.1 parts
    cases none
    obtain ⟨fuel, rfl⟩ := Nat.exists_eq_succ_of_ne_zero (Nat.ne_zero_of_lt enough)
    have start : StartsBare (text ++ (back ++ close :: rest)) := reads.bare.append _
    have read := reads.read (back ++ close :: rest) (delimited_of_allSpace after (ends rest))
    have stop : skipSpace (back ++ close :: rest) = close :: rest := skipSpace_append after ⟨close, rest, rfl, bare⟩
    rw [List.flatMap_nil, List.nil_append, List.append_assoc, List.append_assoc, separated,
      skipSpace_append before start, read]
    simp [stop, notComma]
  | cons next texts ih =>
    obtain ⟨⟨text, ⟨front, back, before, after, rfl⟩, reads⟩, others⟩ := List.forall₂_cons.1 parts
    cases others with
    | cons second others =>
      obtain ⟨fuel, rfl⟩ := Nat.exists_eq_succ_of_ne_zero (Nat.ne_zero_of_lt enough)
      have comma (more : Bytes) : Delimited (0x2C :: more) := .inr ⟨0x2C, more, rfl, .inl rfl⟩
      have start (more : Bytes) : StartsBare (text ++ (back ++ 0x2C :: more)) := reads.bare.append _
      have read (more : Bytes) := reads.read (back ++ 0x2C :: more) (delimited_of_allSpace after (comma more))
      have stop (more : Bytes) : skipSpace (back ++ 0x2C :: more) = 0x2C :: more :=
        skipSpace_append after ⟨0x2C, more, rfl, rfl⟩
      rw [List.flatMap_cons, List.append_assoc, List.append_assoc, List.cons_append, List.cons_append, separated,
        skipSpace_append before (start _), read]
      simp only [Option.bind_eq_bind, Option.bind_some, stop, if_true]
      rw [List.append_assoc, ih (.cons second others) (by simpa using enough)]
      simp

/-- As many parts as there are commas before them at most fit into a text. -/
theorem length_le_flatMap (texts : List Bytes) :
    texts.length ≤ (texts.flatMap fun next => 0x2C :: next).length := by
  induction texts with
  | nil => exact Nat.le_refl _
  | cons next texts ih =>
    rw [List.flatMap_cons, List.length_append, List.length_cons, List.length_cons]
    omega

/-- What stands between two brackets is read by what reads its parts, if no part begins with the second one. -/
theorem enclosed_listed (closing : close = 0x5D ∨ close = 0x7D) (noPart : ∀ rest, element (close :: rest) = none)
    {inside : Bytes} {as : List α} (listed : Listed (Reads element) inside as) (rest : Bytes) :
    enclosed close element (inside ++ close :: rest) = some (as, rest) := by
  rcases listed with ⟨rfl, blank⟩ | ⟨texts, some, rfl, parts⟩
  · have bare : isSpace close = false := by rcases closing with rfl | rfl <;> rfl
    rw [enclosed, skipSpace_append blank ⟨close, rest, rfl, bare⟩]
    simp
  cases parts with
  | nil => exact absurd rfl some
  | @cons first a texts as begins others =>
    have text : [0x2C].intercalate (first :: texts) ++ close :: rest =
        first ++ ((texts.flatMap fun next => 0x2C :: next) ++ close :: rest) := by
      rw [intercalate_cons, List.append_assoc]
      rfl
    have enough : texts.length <
        (first ++ ((texts.flatMap fun next => 0x2C :: next) ++ close :: rest)).length + 1 := by
      have := length_le_flatMap texts
      simp only [List.length_append]
      omega
    have members := separated_joined closing (.cons begins others) enough [] rest
    obtain ⟨b, more, opens, differs⟩ : ∃ b more, skipSpace
        (first ++ ((texts.flatMap fun next => 0x2C :: next) ++ close :: rest)) = b :: more ∧ b ≠ close := by
      obtain ⟨text, ⟨front, back, before, after, rfl⟩, reads⟩ := begins
      rw [List.append_assoc, List.append_assoc, skipSpace_append before (reads.bare.append _)]
      have read := reads.read [] (.inl rfl)
      obtain ⟨b, more, rfl, -⟩ := reads.bare
      refine ⟨b, _, rfl, ?_⟩
      rintro rfl
      rw [List.append_nil, noPart] at read
      cases read
    rw [text, enclosed, opens]
    simpa [differs] using members

section Inversion

variable {part : Bytes → α → Prop} (elements : Cuts element part)
include elements

/-- What is read part by part is a text of parts with commas between them. -/
theorem joined_of_separated {fuel : Nat} {done : List α} {bs : Bytes} {as : List α} {rest : Bytes}
    (read : separated close element fuel done bs = some (as, rest)) :
    ∃ texts more, texts ≠ [] ∧ as = done.reverse ++ more ∧ bs = [0x2C].intercalate texts ++ close :: rest ∧
      List.Forall₂ (fun bs a => ∃ text, Spaced text bs ∧ part text a) texts more := by
  induction fuel generalizing done bs with
  | zero => cases read
  | succ fuel ih =>
    rw [separated] at read
    obtain ⟨⟨a, after⟩, first, read⟩ := Option.bind_eq_some_iff.1 read
    obtain ⟨front, before, same⟩ := exists_skipSpace bs
    obtain ⟨text, cut, isPart⟩ := elements _ _ _ first
    obtain ⟨back, behind, same'⟩ := exists_skipSpace after
    dsimp only at read
    split at read
    case h_2 => cases read
    case h_1 b next stop =>
      rw [stop] at same'
      rw [cut, same'] at same
      have spaced : Spaced text (front ++ (text ++ back)) := ⟨front, back, before, behind, rfl⟩
      split at read
      case isTrue comma =>
        obtain ⟨texts, more, some, rfl, rfl, parts⟩ := ih read
        refine ⟨(front ++ (text ++ back)) :: texts, a :: more, List.cons_ne_nil _ _, by simp, ?_,
          .cons ⟨text, spaced, isPart⟩ parts⟩
        obtain ⟨second, texts, rfl⟩ := List.exists_cons_of_ne_nil some
        rw [same, comma, List.intercalate_cons_cons]
        simp
      case isFalse =>
        split at read
        case isFalse => cases read
        case isTrue closes =>
          cases read
          refine ⟨[front ++ (text ++ back)], [a], List.cons_ne_nil _ _, by simp, ?_,
            .cons ⟨text, spaced, isPart⟩ .nil⟩
          rw [same, closes]
          simp

/-- **What is read between two brackets is a text of parts.** -/
theorem listed_of_enclosed {bs : Bytes} {as : List α} {rest : Bytes}
    (read : enclosed close element bs = some (as, rest)) :
    ∃ inside, bs = inside ++ close :: rest ∧ Listed part inside as := by
  obtain ⟨front, before, same⟩ := exists_skipSpace bs
  rw [enclosed] at read
  split at read
  case h_2 => cases read
  case h_1 b next opens =>
    split at read
    case isTrue closes =>
      cases read
      rw [opens, closes] at same
      exact ⟨front, same, .inl ⟨rfl, before⟩⟩
    case isFalse =>
      obtain ⟨texts, more, some, rfl, same, parts⟩ := joined_of_separated elements read
      exact ⟨_, same, .inr ⟨texts, some, rfl, parts⟩⟩

end Inversion

end Parts

/-! ## Members -/

/-- A reader that looks at nothing beyond what it reads. -/
def Closed {α : Type} (scan : Scan α) : Prop := Cuts scan fun text a => ∀ more, scan (text ++ more) = some (a, more)

/-- A reader of names: it begins at no white space and looks at nothing beyond what it reads. -/
structure IsNaming {κ : Type} (name : Scan κ) : Prop where
  bare : ∀ {bs k rest}, name bs = some (k, rest) → StartsBare bs
  closed : Closed name

/-- The text of a member: its name, a colon and its value, with white space between them. -/
def IsMember {κ α : Type} (name : Scan κ) (part : Bytes → α → Prop) (text : Bytes) (m : κ × α) : Prop :=
  ∃ token before after item, name token = some (m.1, []) ∧ AllSpace before ∧ AllSpace after ∧ part item m.2 ∧
    text = token ++ (before ++ 0x3A :: (after ++ item))

section Members

variable {κ α : Type} {name : Scan κ} {item : Scan α} (names : IsNaming name)
include names

/-- The text of a member is read as its name and its value. -/
theorem IsMember.reads {text : Bytes} {m : κ × α} (h : IsMember name (Reads item) text m) :
    Reads (member name item) text m := by
  obtain ⟨token, before, after, inner, named, blank, blank', value, rfl⟩ := h
  obtain ⟨text, same, closed⟩ := names.closed _ _ _ named
  rw [List.append_nil] at same
  subst same
  refine ⟨(names.bare named).append _, ?_⟩
  intro rest ends
  have colon : skipSpace (before ++ (0x3A :: (after ++ (inner ++ rest)))) = 0x3A :: (after ++ (inner ++ rest)) :=
    skipSpace_append blank ⟨0x3A, _, rfl, rfl⟩
  have start : skipSpace (after ++ (inner ++ rest)) = inner ++ rest := skipSpace_append blank' (value.bare.append rest)
  simp only [List.append_assoc, List.cons_append, member, closed, Option.bind_eq_bind, Option.bind_some, colon,
    start, value.read rest ends, Option.pure_def]

/-- What is read as a member is the text of one. -/
theorem cuts_member {part : Bytes → α → Prop} (items : Cuts item part) :
    Cuts (member name item) (IsMember name part) := by
  intro bs m rest read
  rw [member] at read
  obtain ⟨⟨k, tail⟩, named, follows⟩ := Option.bind_eq_some_iff.1 read
  obtain ⟨token, rfl, closed⟩ := names.closed _ _ _ named
  obtain ⟨before, blank, same⟩ := exists_skipSpace tail
  dsimp only at follows
  split at follows
  case h_2 => cases follows
  case h_1 next colon =>
    obtain ⟨⟨v, last⟩, value, result⟩ := Option.bind_eq_some_iff.1 follows
    cases result
    obtain ⟨after, blank', same'⟩ := exists_skipSpace next
    obtain ⟨inner, cut, isPart⟩ := items _ _ _ value
    have whole : name token = some (k, []) := by simpa using closed []
    refine ⟨token ++ (before ++ 0x3A :: (after ++ inner)), ?_, token, before, after, inner, whole, blank, blank',
      isPart, rfl⟩
    rw [same, colon, same', cut]
    simp

end Members

end CertWatch.Json
