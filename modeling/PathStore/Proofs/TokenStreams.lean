import PathStore.Proofs.TokenTexts
import PathStore.Proofs.WrittenStrings

/-!
# Tokens of a text that goes on

Whether a token ends where it does may depend on the character behind it: a
number goes on with every further digit.  All other tokens end by themselves,
so a text that is scanned without a fault and does not end in a number can be
continued at will, and its tokens stay in front of the tokens of what follows.
-/

namespace PathStore.Json

/-! ## Numbers -/

namespace Numeral

open Decimal (isDigit)

section

variable {keep : Char → Bool} {text : List Char}

theorem dropWhile_append_of_ne_nil (left : text.dropWhile keep ≠ []) (more : List Char) :
    (text ++ more).dropWhile keep = text.dropWhile keep ++ more := by
  rw [List.dropWhile_append, if_neg (by simpa using left)]

theorem takeWhile_append_of_dropWhile_ne_nil (left : text.dropWhile keep ≠ [])
    (more : List Char) : (text ++ more).takeWhile keep = text.takeWhile keep := by
  induction text with
  | nil => simp at left
  | cons c rest ih =>
      by_cases kept : keep c
      · rw [List.dropWhile_cons_of_pos kept] at left
        rw [List.cons_append, List.takeWhile_cons_of_pos kept, List.takeWhile_cons_of_pos kept,
          ih left]
      · rw [List.cons_append, List.takeWhile_cons_of_neg kept, List.takeWhile_cons_of_neg kept]

end

variable {start numeral : Numeral} {negative : Bool} {text rest : List Char}

theorem scan_suffix (scanned : scan text = .numeral numeral rest) : rest <:+ text := by
  obtain ⟨digits, -, rfl⟩ := scan_written scanned
  exact List.suffix_append digits rest

/-- The digits of an exponent end at the first character behind them. -/
theorem scanPower_append (scanned : scanPower start negative text = .numeral numeral rest)
    (ended : rest ≠ []) (more : List Char) :
    scanPower start negative (text ++ more) = .numeral numeral (rest ++ more) := by
  unfold scanPower at scanned
  split at scanned
  · simp [lacksDigit] at scanned
  · rename_i digits some_digit
    cases scanned
    rw [scanPower, takeWhile_append_of_dropWhile_ne_nil ended, dropWhile_append_of_ne_nil ended]
    split
    · contradiction
    · rfl

theorem scanExponent_append (scanned : scanExponent start text = .numeral numeral rest)
    (ended : rest ≠ []) (more : List Char) :
    scanExponent start (text ++ more) = .numeral numeral (rest ++ more) := by
  cases text with
  | nil =>
      cases scanned
      contradiction
  | cons mark tail =>
      simp only [scanExponent, List.cons_append] at scanned ⊢
      split_ifs at scanned ⊢ with isMark
      · cases tail with
        | nil => simp [scanPower, lacksDigit] at scanned
        | cons c tail =>
            rw [List.cons_append]
            split at scanned
            · rename_i same
              cases same
              exact scanPower_append scanned ended more
            · rename_i same
              cases same
              exact scanPower_append scanned ended more
            · split
              · simp_all
              · simp_all
              · exact scanPower_append scanned ended more
      · cases scanned
        rfl

theorem scanTail_append (scanned : scanTail start text = .numeral numeral rest)
    (ended : rest ≠ []) (more : List Char) :
    scanTail start (text ++ more) = .numeral numeral (rest ++ more) := by
  unfold scanTail at scanned
  split at scanned
  · rename_i tail
    split at scanned
    · simp [lacksDigit] at scanned
    · rename_i digits some_digit
      have left : tail.dropWhile isDigit ≠ [] := by
        intro none_left
        rw [none_left] at scanned
        cases scanned
        contradiction
      rw [List.cons_append, scanTail, takeWhile_append_of_dropWhile_ne_nil left,
        dropWhile_append_of_ne_nil left]
      split
      · contradiction
      · exact scanExponent_append scanned ended more
  · rename_i notPoint
    have goesOn := scanExponent_append scanned ended more
    unfold scanTail
    split
    · cases text with
      | nil => cases scanned; contradiction
      | cons c tail => simp_all
    · exact goesOn

theorem scanUnsigned_append (scanned : scanUnsigned negative text = .numeral numeral rest)
    (ended : rest ≠ []) (more : List Char) :
    scanUnsigned negative (text ++ more) = .numeral numeral (rest ++ more) := by
  unfold scanUnsigned at scanned
  split at scanned
  · split at scanned
    · rename_i next tail
      split_ifs at scanned with another
      rw [List.cons_append, List.cons_append, scanUnsigned, if_neg another]
      exact scanTail_append scanned ended more
    · cases scanned
      contradiction
  · rename_i notZero
    split at scanned
    · simp [lacksDigit] at scanned
    · rename_i digits some_digit
      have left : text.dropWhile isDigit ≠ [] := by
        intro none_left
        rw [none_left] at scanned
        cases scanned
        contradiction
      unfold scanUnsigned
      split
      · cases text with
        | nil => simp at left
        | cons c tail => simp_all
      · rw [takeWhile_append_of_dropWhile_ne_nil left, dropWhile_append_of_ne_nil left]
        split
        · contradiction
        · exact scanTail_append scanned ended more

/-- A number with something behind it ends there. -/
theorem scan_append (scanned : scan text = .numeral numeral rest) (ended : rest ≠ [])
    (more : List Char) : scan (text ++ more) = .numeral numeral (rest ++ more) := by
  unfold scan at scanned
  split at scanned
  · exact scanUnsigned_append scanned ended more
  · have goesOn := scanUnsigned_append scanned ended more
    unfold scan
    split
    · cases text with
      | nil => simp [scanUnsigned, lacksDigit] at scanned
      | cons c tail => simp_all
    · exact goesOn

end Numeral

/-! ## Strings -/

/-- A string ends at its closing quote. -/
theorem Text.scan_append {text rest : List Char} (closed : (scan text).rest = .ok rest)
    (more : List Char) : scan (text ++ more) = ⟨(scan text).pieces, .ok (rest ++ more)⟩ := by
  fun_induction scan text generalizing rest with
  | case1 | case4 | case5 | case7 | case8 | case9 => simp at closed
  | case2 tail =>
      cases closed
      rfl
  | case3 a b c d tail unit spelled ih =>
      simp only [List.cons_append, scan, spelled, ih closed, ScannedText.cons]
  | case6 c tail _ _ char spelled ih =>
      simp_all [scan, ScannedText.cons]
  | case10 c tail notQuote _ _ notEscape notEnd printed ih =>
      have notBackslash : c ≠ '\\' := by
        rintro rfl
        cases tail with
        | nil => exact notEnd rfl rfl
        | cons next tail => exact notEscape next tail rfl rfl
      rw [List.cons_append, scan_plain notQuote notBackslash printed, ih closed]
      rfl

theorem Text.scan_suffix {text rest : List Char} (closed : (scan text).rest = .ok rest) :
    rest <:+ text := by
  fun_induction scan text generalizing rest with
  | case1 | case4 | case5 | case7 | case8 | case9 => simp at closed
  | case2 tail =>
      cases closed
      exact List.suffix_cons _ _
  | case3 a b c d tail unit spelled ih =>
      exact (ih closed).trans (List.suffix_append ['\\', 'u', a, b, c, d] tail)
  | case6 c tail _ _ char spelled ih =>
      exact (ih closed).trans (List.suffix_append ['\\', c] tail)
  | case10 c tail _ _ _ _ _ _ ih => exact (ih closed).trans (List.suffix_cons _ _)

namespace Token

/-! ## Texts -/

/-- The token is a unit of JSON, and not the place where a text fails. -/
def IsWhole : Token → Prop
  | .brokenText _ _ | .brokenScalar _ _ => False
  | _ => True

/-- A word ends with its last letter. -/
theorem ofWord_append {token : Token} {letters text : List Char}
    (whole : (ofWord token letters text).1.IsWhole) (more : List Char) :
    ofWord token letters (text ++ more) =
      ((ofWord token letters text).1, (ofWord token letters text).2 ++ more) := by
  fun_induction ofWord token letters text with
  | case1 => rfl
  | case2 | case4 => exact whole.elim
  | case3 letters c rest ih => rw [List.cons_append, ofWord, if_pos rfl, ih whole]

/-- A token that is no number ends where it does, and a number does if
something stands behind it. -/
theorem first_append {c : Char} {text : List Char} (whole : (first c text).1.IsWhole)
    (ended : (first c text).1.IsNumber → (first c text).2 ≠ []) (more : List Char) :
    first c (text ++ more) = ((first c text).1, (first c text).2 ++ more) := by
  cases marked : mark? c with
  | some mark => simp only [first, marked]
  | none =>
      cases spelled : word? c with
      | some word =>
          simp only [first, marked, spelled] at whole ⊢
          exact ofWord_append whole more
      | none =>
          simp only [first, marked, spelled] at whole ended ⊢
          split_ifs at whole ended ⊢ with isQuote isNumeral
          · cases closed : (Text.scan text).rest with
            | error fault =>
                rw [ofText, closed] at whole
                exact whole.elim
            | ok rest => rw [Text.scan_append closed, ofText, ofText, closed]
          · cases scanned : Numeral.scan (c :: text) with
            | broken strict lax =>
                rw [scanned] at whole
                exact whole.elim
            | numeral numeral rest =>
                rw [scanned] at ended
                rw [← List.cons_append, Numeral.scan_append scanned (ended trivial)]
                rfl
          · exact whole.elim

/-- The tokens of a text that does not end in a number stay in front of the
tokens of what follows it. -/
theorem scan_append {text : List Char} (whole : ∀ token ∈ scan text, token.IsWhole)
    (ended : ∀ token ∈ (scan text).getLast?, ¬ token.IsNumber) (more : List Char) :
    scan (text ++ more) = scan text ++ scan more := by
  fun_induction scan text with
  | case1 => rfl
  | case2 c rest blank ih => rw [List.cons_append, scan, if_pos blank, ih whole ended]
  | case3 c rest notBlank ih =>
      rw [List.forall_mem_cons] at whole
      have somethingLeft : (first c rest).1.IsNumber → (first c rest).2 ≠ [] := by
        intro isNumber none_left
        rw [none_left, scan] at ended
        exact ended _ rfl isNumber
      rw [List.cons_append, scan, if_neg notBlank, first_append whole.1 somethingLeft,
        ih whole.2, List.cons_append]
      intro token last
      refine ended token ?_
      rw [List.getLast?_cons, last]
      rfl

example : scan ['1', '2'] ≠ scan ['1'] ++ scan ['2'] := by
  decide +kernel

/-- A text without tokens is blank. -/
theorem scan_eq_nil_iff {text : List Char} : scan text = [] ↔ ∀ c ∈ text, isBlank c := by
  induction text with
  | nil => simp [scan]
  | cons c rest ih =>
      rw [scan, List.forall_mem_cons]
      split_ifs with blank
      · simp [blank, ih]
      · simp [blank]

theorem ofWord_suffix (token : Token) (letters text : List Char) :
    (ofWord token letters text).2 <:+ text := by
  fun_induction ofWord token letters text with
  | case1 => exact List.suffix_rfl
  | case2 | case4 => exact List.nil_suffix
  | case3 letters c rest ih => exact ih.trans (List.suffix_cons _ _)

/-- What is left behind a token is the end of the text. -/
theorem first_suffix (c : Char) (text : List Char) : (first c text).2 <:+ text := by
  unfold first
  split
  · exact List.suffix_rfl
  · exact ofWord_suffix _ _ text
  · split_ifs with isQuote isNumeral
    · unfold ofText
      split
      · rename_i closed
        exact Text.scan_suffix closed
      · exact List.nil_suffix
    · cases scanned : Numeral.scan (c :: text) with
      | broken => exact List.nil_suffix
      | numeral numeral rest =>
          exact (List.suffix_cons_iff.1 (Numeral.scan_suffix scanned)).resolve_left (by
            rintro rfl
            exact absurd (Numeral.scan_length scanned) (Nat.lt_irrefl _))
    · exact List.nil_suffix

/-- The token is a closing bracket. -/
def IsClosing : Token → Prop
  | .closeList | .closeRecord => True
  | _ => False

theorem IsClosing.isWhole {token : Token} (closing : token.IsClosing) : token.IsWhole := by
  cases token <;> trivial

theorem IsClosing.not_isNumber {token : Token} (closing : token.IsClosing) :
    ¬ token.IsNumber := by
  cases token <;> simp_all [IsClosing, IsNumber]

theorem IsClosing.character? {token : Token} (closing : token.IsClosing) :
    token.character? = some ']' ∨ token.character? = some '\x7d' := by
  cases token <;> simp_all [IsClosing, Token.character?]

/-- Only a closing bracket makes a token that is one. -/
theorem first_isClosing {c : Char} {text : List Char} (closing : (first c text).1.IsClosing) :
    (c = ']' ∨ c = '\x7d') ∧ (first c text).2 = text := by
  obtain isMark | isMark := closing.character?
  · exact ⟨.inl (eq_of_first isMark).1, (eq_of_first isMark).2⟩
  · exact ⟨.inr (eq_of_first isMark).1, (eq_of_first isMark).2⟩

/-- A text whose last token is a closing bracket ends in that bracket and
blanks. -/
theorem exists_eq_append_of_scan {text : List Char} {before : List Token} {close : Token}
    (scanned : scan text = before ++ [close]) (closing : close.IsClosing) :
    ∃ body bracket blanks, text = body ++ bracket :: blanks ∧
      (bracket = ']' ∨ bracket = '\x7d') ∧ ∀ c ∈ blanks, isBlank c := by
  fun_induction scan text generalizing before with
  | case1 => simp at scanned
  | case2 c rest blank ih =>
      obtain ⟨body, bracket, blanks, rfl, isBracket, blank⟩ := ih scanned
      exact ⟨c :: body, bracket, blanks, rfl, isBracket, blank⟩
  | case3 c rest notBlank ih =>
      cases before with
      | nil =>
          obtain ⟨same, none_left⟩ := List.cons.inj scanned
          rw [← same] at closing
          obtain ⟨isBracket, left⟩ := first_isClosing closing
          rw [left, scan_eq_nil_iff] at none_left
          exact ⟨[], c, rest, rfl, isBracket, none_left⟩
      | cons token before =>
          obtain ⟨taken, split⟩ := first_suffix c rest
          obtain ⟨body, bracket, blanks, left, isBracket, blank⟩ := ih (List.cons.inj scanned).2
          refine ⟨c :: (taken ++ body), bracket, blanks, ?_, isBracket, blank⟩
          rw [← split, left, List.cons_append, List.append_assoc]

end Token

end PathStore.Json
