import Mathlib.Data.List.TakeWhile
import CertWatch.Text.Blank

/-!
# Trimming

White space around a text is dropped, and nothing is dropped of a text that has none.
-/

namespace CertWatch.Text
set_option autoImplicit false

theorem dropWhile_isBlank_of_bare {cs : List Char} (bare : ∀ c ∈ cs.head?, isBlank c = false) :
    cs.dropWhile isBlank = cs := by
  cases cs with
  | nil => rfl
  | cons c cs => simp [bare c rfl]

/-- White space around a text goes, if the text neither begins nor ends with any. -/
theorem trim_around {front back cs : List Char} (before : ∀ c ∈ front, isBlank c = true)
    (after : ∀ c ∈ back, isBlank c = true) (first : ∀ c ∈ cs.head?, isBlank c = false)
    (last : ∀ c ∈ cs.getLast?, isBlank c = false) :
    trim (String.ofList (front ++ cs ++ back)) = String.ofList cs := by
  have fore : trimStart (front ++ cs ++ back) = (cs ++ back).dropWhile isBlank := by
    rw [trimStart, List.append_assoc, List.dropWhile_append_of_pos before]
  have rear : trimEnd (cs ++ back) = cs := by
    rw [trimEnd, List.reverse_append, List.dropWhile_append_of_pos (by simpa using after),
      dropWhile_isBlank_of_bare (by simpa using last), List.reverse_reverse]
  rw [trim, String.toList_ofList, fore]
  cases cs with
  | nil =>
    rw [List.nil_append, List.dropWhile_eq_nil_iff.2 after]
    rfl
  | cons c cs =>
    have stays : (c :: cs ++ back).dropWhile isBlank = c :: cs ++ back :=
      dropWhile_isBlank_of_bare (by simpa using first)
    rw [stays, rear]

/-- White space around a text without any goes. -/
theorem trim_surrounded {front back cs : List Char} (before : ∀ c ∈ front, isBlank c = true)
    (after : ∀ c ∈ back, isBlank c = true) (bare : ∀ c ∈ cs, isBlank c = false) :
    trim (String.ofList (front ++ cs ++ back)) = String.ofList cs :=
  trim_around before after (fun c here => bare c (List.mem_of_mem_head? here))
    fun c here => bare c (List.mem_of_mem_getLast? here)

/-- A text without white space is not trimmed. -/
theorem trim_of_not_blank {s : String} (bare : ∀ c ∈ s.toList, isBlank c = false) : trim s = s := by
  simpa using trim_surrounded (List.forall_mem_nil _) (List.forall_mem_nil _) bare

end CertWatch.Text
