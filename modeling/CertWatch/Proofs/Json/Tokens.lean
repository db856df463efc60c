import CertWatch.Proofs.Json.Layout
import CertWatch.Proofs.Json.Quoted

/-!
# Where tokens end

A string ends with its quote, and reading it or passing over it looks at nothing behind that. A numeral ends where
none of the characters follows that could be part of it, so it is cut off at the same place before white space, a
comma or a closing bracket.
-/

namespace CertWatch.Json
set_option autoImplicit false

/-! ## Strings -/

section Closed

variable {α β : Type}

theorem closed_pure (a : α) : Closed fun bs => some (a, bs) := fun bs _ _ read => by
  cases read
  exact ⟨[], rfl, fun _ => rfl⟩

theorem closed_none : Closed fun _ => (none : Option (α × Bytes)) := nofun

theorem Closed.bind {scan : Scan α} {next : α → Scan β} (first : Closed scan) (second : ∀ a, Closed (next a)) :
    Closed fun bs => (scan bs).bind fun p => next p.1 p.2 := by
  intro bs b rest read
  obtain ⟨⟨a, tail⟩, one, two⟩ := Option.bind_eq_some_iff.1 read
  obtain ⟨text, rfl, again⟩ := first bs a tail one
  obtain ⟨text', rfl, again'⟩ := second a tail b rest two
  refine ⟨text ++ text', (List.append_assoc _ _ _).symm, ?_⟩
  intro more
  simp only [List.append_assoc, again, Option.bind_some, again']

theorem Closed.ite {c : Prop} [Decidable c] {scan scan' : Scan α} (h : Closed scan) (h' : Closed scan') :
    Closed fun bs => if c then scan bs else scan' bs := by
  by_cases holds : c
  · simpa only [if_pos holds] using h
  · simpa only [if_neg holds] using h'

end Closed

theorem closed_hexQuad : Closed hexQuad := by
  intro bs n rest read
  unfold hexQuad at read
  split at read
  case h_2 => cases read
  case h_1 a b c d tail =>
    simp only [Option.bind_eq_bind, Option.bind_eq_some_iff, Option.pure_def, Option.some.injEq, Prod.mk.injEq] at read
    obtain ⟨v, hv, v', hv', v'', hv'', v₃, hv₃, rfl, rfl⟩ := read
    refine ⟨[a, b, c, d], rfl, ?_⟩
    intro more
    simp [hexQuad, *]

theorem closed_lowSurrogate : Closed lowSurrogate := by
  have low (n : Nat) : Closed fun bs => if 0xDC00 ≤ n ∧ n ≤ 0xDFFF then some (n - 0xDC00, bs) else none :=
    (closed_pure _).ite closed_none
  intro bs n rest read
  unfold lowSurrogate at read
  split at read
  case h_2 => cases read
  case h_1 tail =>
    obtain ⟨text, rfl, again⟩ := closed_hexQuad.bind low tail n rest read
    exact ⟨0x5C :: 0x75 :: text, rfl, again⟩

theorem closed_numberedEscape : Closed numberedEscape := by
  have pair (n : Nat) : Closed fun bs => (lowSurrogate bs).bind fun p =>
      some (String.utf8EncodeChar (Char.ofNat (0x10000 + (n - 0xD800) * 1024 + p.1)), p.2) :=
    closed_lowSurrogate.bind fun low =>
      closed_pure (String.utf8EncodeChar (Char.ofNat (0x10000 + (n - 0xD800) * 1024 + low)))
  have number (n : Nat) : Closed fun bs =>
      if 0xDC00 ≤ n ∧ n ≤ 0xDFFF then none
      else if 0xD800 ≤ n ∧ n ≤ 0xDBFF then (lowSurrogate bs).bind fun p =>
        some (String.utf8EncodeChar (Char.ofNat (0x10000 + (n - 0xD800) * 1024 + p.1)), p.2)
      else some (String.utf8EncodeChar (Char.ofNat n), bs) :=
    closed_none.ite ((pair n).ite (closed_pure _))
  exact closed_hexQuad.bind number

theorem closed_escape : Closed escape := by
  intro bs out rest read
  unfold escape at read
  split at read
  case h_1 tail =>
    obtain ⟨text, rfl, again⟩ := closed_numberedEscape tail out rest read
    exact ⟨0x75 :: text, rfl, again⟩
  case h_2 b tail notNumber =>
    obtain ⟨c, short, same⟩ := Option.map_eq_some_iff.1 read
    cases same
    refine ⟨[b], rfl, ?_⟩
    intro more
    rw [List.singleton_append, escape, short]
    · rfl
    · exact notNumber
  case h_3 => cases read

theorem closed_escapeExtent : Closed escapeExtent := by
  intro bs out rest read
  unfold escapeExtent at read
  split at read
  case h_1 tail =>
    obtain ⟨⟨n, after⟩, quad, same⟩ := Option.map_eq_some_iff.1 read
    cases same
    obtain ⟨text, rfl, again⟩ := closed_hexQuad tail n rest quad
    refine ⟨0x75 :: text, rfl, ?_⟩
    intro more
    rw [List.cons_append, escapeExtent, again]
    rfl
  case h_2 b tail notNumber =>
    obtain ⟨c, short, same⟩ := Option.map_eq_some_iff.1 read
    cases same
    refine ⟨[b], rfl, ?_⟩
    intro more
    rw [List.singleton_append, escapeExtent, short]
    · rfl
    · exact notNumber
  case h_3 => cases read

/-- The inside of a string ends with its quote; each of its bytes is worth one unit of fuel. -/
theorem exists_of_quotedBody {esc : Scan Bytes} (closed : Closed esc) {fuel : Nat} {done bs out rest : Bytes}
    (read : quotedBody esc fuel done bs = some (out, rest)) :
    ∃ text, bs = text ++ rest ∧
      ∀ fuel more, text.length ≤ fuel → quotedBody esc fuel done (text ++ more) = some (out, more) := by
  induction fuel generalizing done bs with
  | zero => cases read
  | succ fuel ih =>
    cases bs with
    | nil => cases read
    | cons b tail =>
      rw [quotedBody] at read
      have spend {text : Bytes} {fuel : Nat} (enough : (b :: text).length ≤ fuel) :
          ∃ less, fuel = less + 1 ∧ text.length ≤ less := by
        rw [List.length_cons] at enough
        exact ⟨fuel - 1, by omega, by omega⟩
      split at read
      case isTrue quote =>
        cases read
        refine ⟨[b], rfl, ?_⟩
        intro fuel more enough
        obtain ⟨less, rfl, -⟩ := spend enough
        simp [quotedBody, quote]
      case isFalse notQuote =>
        split at read
        case isTrue backslash =>
          split at read
          case h_2 => cases read
          case h_1 cs after escaped =>
            obtain ⟨first, rfl, again⟩ := closed tail cs after escaped
            obtain ⟨text, rfl, body⟩ := ih read
            refine ⟨b :: (first ++ text), by simp, ?_⟩
            intro fuel more enough
            obtain ⟨less, rfl, fits⟩ := spend enough
            rw [List.length_append] at fits
            rw [List.cons_append, List.append_assoc, quotedBody, if_neg notQuote, if_pos backslash, again]
            exact body less more (by omega)
        case isFalse notBackslash =>
          split at read
          case isTrue => cases read
          case isFalse printable =>
            obtain ⟨text, rfl, body⟩ := ih read
            refine ⟨b :: text, rfl, ?_⟩
            intro fuel more enough
            obtain ⟨less, rfl, fits⟩ := spend enough
            rw [List.cons_append, quotedBody, if_neg notQuote, if_neg notBackslash, if_neg printable]
            exact body less more fits

theorem isNaming_quoted : IsNaming quoted where
  bare := by
    intro bs s rest read
    unfold quoted at read
    split at read
    case h_1 tail => exact ⟨0x22, tail, rfl, rfl⟩
    case h_2 => cases read
  closed := by
    intro bs s rest read
    unfold quoted at read
    split at read
    case h_2 => cases read
    case h_1 tail =>
      obtain ⟨⟨out, after⟩, body, decoded⟩ := Option.bind_eq_some_iff.1 read
      obtain ⟨s', known, same⟩ := Option.bind_eq_some_iff.1 decoded
      cases same
      obtain ⟨text, rfl, again⟩ := exists_of_quotedBody closed_escape body
      refine ⟨0x22 :: text, rfl, ?_⟩
      intro more
      have enough : text.length ≤ (text ++ more).length + 1 := by rw [List.length_append]; omega
      rw [List.cons_append, quoted, again _ more enough]
      simp [known]

theorem isNaming_quotedExtent : IsNaming quotedExtent where
  bare := by
    intro bs s rest read
    unfold quotedExtent at read
    split at read
    case h_1 tail => exact ⟨0x22, tail, rfl, rfl⟩
    case h_2 => cases read
  closed := by
    intro bs s rest read
    unfold quotedExtent at read
    split at read
    case h_2 => cases read
    case h_1 tail =>
      obtain ⟨⟨out, after⟩, body, same⟩ := Option.map_eq_some_iff.1 read
      cases same
      obtain ⟨text, rfl, again⟩ := exists_of_quotedBody closed_escapeExtent body
      refine ⟨0x22 :: text, rfl, ?_⟩
      intro more
      have enough : text.length ≤ (text ++ more).length + 1 := by rw [List.length_append]; omega
      rw [List.cons_append, quotedExtent, again _ more enough]
      rfl

/-! ## What is read can be passed over -/

theorem Closed.length_le {α : Type} {scan : Scan α} (closed : Closed scan) {bs rest : Bytes} {a : α}
    (read : scan bs = some (a, rest)) : rest.length ≤ bs.length := by
  obtain ⟨text, rfl, -⟩ := closed _ _ _ read
  rw [List.length_append]
  omega

/-- An escape that is read is passed over as one escape, or as two if it is a pair of surrogates. -/
theorem escapeExtent_of_escape {bs rest out : Bytes} (read : escape bs = some (out, rest)) :
    escapeExtent bs = some ([], rest) ∨
      ∃ mid, escapeExtent bs = some ([], 0x5C :: mid) ∧ escapeExtent mid = some ([], rest) := by
  unfold escape at read
  split at read
  case h_1 tail =>
    obtain ⟨⟨n, after⟩, quad, number⟩ := Option.bind_eq_some_iff.1 read
    have first : escapeExtent (0x75 :: tail) = some ([], after) := by rw [escapeExtent, quad]; rfl
    dsimp only at number
    split at number
    · cases number
    · split at number
      · obtain ⟨⟨low, last⟩, second, same⟩ := Option.bind_eq_some_iff.1 number
        cases same
        unfold lowSurrogate at second
        split at second
        case h_2 => cases second
        case h_1 mid =>
          obtain ⟨⟨m, behind⟩, quad', range⟩ := Option.bind_eq_some_iff.1 second
          dsimp only at range
          split at range
          · have same : behind = last := congrArg Prod.snd (Option.some.inj range)
            exact .inr ⟨0x75 :: mid, first, by rw [escapeExtent, quad', same]; rfl⟩
          · cases range
      · cases number
        exact .inl first
  case h_2 b tail notNumber =>
    obtain ⟨c, short, same⟩ := Option.map_eq_some_iff.1 read
    cases same
    refine .inl ?_
    rw [escapeExtent, short]
    · rfl
    · exact notNumber
  case h_3 => cases read

/-- The inside of a string that is read is passed over up to the same place. -/
theorem quotedBody_of_escape {fuel : Nat} {done bs out rest : Bytes}
    (read : quotedBody escape fuel done bs = some (out, rest)) {fuel' : Nat} (done' : Bytes)
    (enough : bs.length < fuel') :
    ∃ out', quotedBody escapeExtent fuel' done' bs = some (out', rest) := by
  induction fuel generalizing done bs fuel' done' with
  | zero => cases read
  | succ fuel ih =>
    cases bs with
    | nil => cases read
    | cons b tail =>
      obtain ⟨fuel', rfl⟩ := Nat.exists_eq_succ_of_ne_zero (Nat.ne_zero_of_lt enough)
      rw [List.length_cons] at enough
      rw [quotedBody] at read ⊢
      split at read
      case isTrue quote =>
        cases read
        exact ⟨_, if_pos quote⟩
      case isFalse notQuote =>
        rw [if_neg notQuote]
        split at read
        case isTrue backslash =>
          rw [if_pos backslash]
          split at read
          case h_2 => cases read
          case h_1 cs after escaped =>
            have shorter := closed_escape.length_le escaped
            rcases escapeExtent_of_escape escaped with passed | ⟨mid, first, second⟩
            · rw [passed]
              exact ih read _ (by omega)
            · have least := closed_escapeExtent.length_le first
              have least' := closed_escapeExtent.length_le second
              rw [List.length_cons] at least
              obtain ⟨less, rfl⟩ := Nat.exists_eq_succ_of_ne_zero (by omega : fuel' ≠ 0)
              simp only [first, quotedBody_escape second]
              exact ih read _ (by omega)
        case isFalse notBackslash =>
          rw [if_neg notBackslash]
          split at read
          case isTrue => cases read
          case isFalse printable =>
            rw [if_neg printable]
            exact ih read _ (by omega)

/-- A string that is read is passed over up to the same place. -/
theorem quotedExtent_of_quoted {bs rest : Bytes} {s : String} (read : quoted bs = some (s, rest)) :
    quotedExtent bs = some ((), rest) := by
  unfold quoted at read
  split at read
  case h_2 => cases read
  case h_1 tail =>
    obtain ⟨⟨out, after⟩, body, decoded⟩ := Option.bind_eq_some_iff.1 read
    obtain ⟨s', known, same⟩ := Option.bind_eq_some_iff.1 decoded
    cases same
    obtain ⟨out', passed⟩ := quotedBody_of_escape body [] (Nat.lt_succ_self _)
    rw [quotedExtent, passed]
    rfl

/-! ## Words -/

theorem closed_literal (word : Bytes) : Closed (literal word) := by
  intro bs u rest read
  unfold literal at read
  split at read
  case isFalse => cases read
  case isTrue front =>
    cases read
    obtain ⟨tail, rfl⟩ := List.isPrefixOf_iff_prefix.1 front
    refine ⟨word, by simp, ?_⟩
    intro more
    have again : word.isPrefixOf (word ++ more) = true := List.isPrefixOf_iff_prefix.2 (List.prefix_append word more)
    rw [literal, if_pos again, List.drop_left]

end CertWatch.Json
