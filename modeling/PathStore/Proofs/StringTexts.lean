import PathStore.Proofs.SettingsText
import PathStore.Proofs.TokenTexts

/-!
# What was written where a string or a word is scanned

The converse of scanning a string of the grammar.  A string was written with the pieces
that are scanned, and its numeric escapes have 16 bits each, so if its surrogates come
in pairs, the characters that it is understood as are those that it stands for.  A word
was written with its letters.  Readers of strings, names and truth values therefore take
off nothing else.
-/

namespace PathStore.Json

/-! ## Pieces -/

namespace Text

variable {text inside rest chars : List Char} {pieces : List Piece}

theorem mem_shortEscapes_of_shortEscape? {letter c : Char}
    (spelled : shortEscape? letter = some c) : (letter, c) ∈ shortEscapes := by
  unfold shortEscape? at spelled
  split_ifs at spelled with isItself same same same same same
  · obtain rfl | rfl | rfl := isItself <;> cases spelled <;> decide
  all_goals
    subst same
    cases spelled
    decide

theorem exists_of_cons {scanned : ScannedText} {piece : Piece}
    (same : scanned.cons piece = ⟨pieces, .ok rest⟩) :
    ∃ more, pieces = piece :: more ∧ scanned = ⟨more, .ok rest⟩ := by
  obtain ⟨more, left⟩ := scanned
  cases same
  exact ⟨more, rfl, rfl⟩

/-- What is scanned up to a closing quote was written with the pieces that were scanned. -/
theorem scan_written (scanned : scan text = ⟨pieces, .ok rest⟩) :
    ∃ inside, Written inside pieces ∧ text = inside ++ '"' :: rest := by
  fun_induction scan text generalizing pieces with
  | case1 | case4 | case5 | case7 | case8 | case9 => cases scanned
  | case2 tail =>
      cases scanned
      exact ⟨[], .nil, rfl⟩
  | case3 a b c d tail unit spelled ih =>
      obtain ⟨more, rfl, left⟩ := exists_of_cons scanned
      obtain ⟨inside, written, rfl⟩ := ih left
      exact ⟨_, .numbered spelled written, rfl⟩
  | case6 letter tail _ _ c spelled ih =>
      obtain ⟨more, rfl, left⟩ := exists_of_cons scanned
      obtain ⟨inside, written, rfl⟩ := ih left
      exact ⟨_, .short (mem_shortEscapes_of_shortEscape? spelled) written, rfl⟩
  | case10 c tail notQuote _ _ notEscape notEnd printed ih =>
      obtain ⟨more, rfl, left⟩ := exists_of_cons scanned
      obtain ⟨inside, written, rfl⟩ := ih left
      have notBackslash : c ≠ '\\' := by
        rintro rfl
        cases inside with
        | nil => exact notEscape _ _ rfl rfl
        | cons next inside => exact notEscape _ _ rfl rfl
      exact ⟨_, .plain (by simpa using notQuote) notBackslash (Nat.not_lt.mp printed) written, rfl⟩

theorem unit?_lt {a b c d : Char} {unit : Nat} (spelled : unit? a b c d = some unit) :
    unit < 0x10000 := by
  simp only [unit?, Option.bind_eq_bind, Option.bind_eq_some_iff, Option.pure_def,
    Option.some.injEq] at spelled
  obtain ⟨a, -, b, -, c, -, d, -, rfl⟩ := spelled
  omega

/-- A numeric escape has 16 bits. -/
def FitsEscape : Piece → Prop
  | .char _ => True
  | .unit unit => unit < 0x10000

theorem Written.fitsEscape (written : Written inside pieces) :
    ∀ piece ∈ pieces, FitsEscape piece := by
  induction written with
  | nil => exact List.forall_mem_nil _
  | plain _ _ _ _ ih | short _ _ ih => exact List.forall_mem_cons.mpr ⟨trivial, ih⟩
  | numbered spelled _ ih => exact List.forall_mem_cons.mpr ⟨unit?_lt spelled, ih⟩

theorem toNat_ofNat {code : Nat} (valid : code.isValidChar) : (Char.ofNat code).toNat = code := by
  rw [Char.ofNat, dif_pos valid]
  rfl

/-- A unit that is no surrogate is a character of 16 bits. -/
theorem toNat_ofNat_of_not_surrogate {unit : Nat} (fits : unit < 0x10000)
    (notTrailing : ¬ isTrailing unit = true) (notLeading : ¬ isLeading unit = true) :
    (Char.ofNat unit).toNat = unit := by
  simp only [isTrailing, isLeading, Bool.and_eq_true, decide_eq_true_eq] at notTrailing notLeading
  refine toNat_ofNat ?_
  rw [Nat.isValidChar]
  omega

/-- Two units that are understood as a pair are the halves of a larger character. -/
theorem halves_pairedChar {leading trailing : Nat} (isLeading : isLeading leading = true)
    (isTrailing : isTrailing trailing = true) :
    0x10000 ≤ (pairedChar leading trailing).toNat ∧
      leading = 0xd800 + ((pairedChar leading trailing).toNat - 0x10000) / 0x400 ∧
      trailing = 0xdc00 + ((pairedChar leading trailing).toNat - 0x10000) % 0x400 := by
  simp only [Text.isLeading, Text.isTrailing, Bool.and_eq_true, decide_eq_true_eq] at *
  have code : (pairedChar leading trailing).toNat =
      (leading - 0xd800) * 0x400 + (trailing - 0xdc00) + 0x10000 :=
    toNat_ofNat (.inr ⟨by omega, by omega⟩)
  rw [code]
  omega

/-- The characters that pieces are understood as are those that they stand for. -/
theorem denotes_of_meaning? (fits : ∀ piece ∈ pieces, FitsEscape piece)
    (meant : meaning? pieces = some chars) : Denotes pieces chars := by
  fun_induction meaning? pieces generalizing chars with
  | case1 =>
      cases meant
      exact .nil
  | case2 c pieces ih =>
      obtain ⟨more, further, rfl⟩ := Option.map_eq_some_iff.mp meant
      exact .char (ih (List.forall_mem_cons.mp fits).2 further)
  | case4 leading notTrailing isLeading trailing pieces isTrailing ih =>
      obtain ⟨more, further, rfl⟩ := Option.map_eq_some_iff.mp meant
      obtain ⟨large, first, second⟩ := halves_pairedChar isLeading isTrailing
      have left := (List.forall_mem_cons.mp (List.forall_mem_cons.mp fits).2).2
      have pair := Denotes.pair large (ih left further)
      rwa [← first, ← second] at pair
  | case7 unit pieces notTrailing notLeading ih =>
      obtain ⟨more, further, rfl⟩ := Option.map_eq_some_iff.mp meant
      obtain ⟨small, left⟩ := List.forall_mem_cons.mp fits
      have code := toNat_ofNat_of_not_surrogate small notTrailing notLeading
      have denotes := Denotes.unit (code.trans_lt small) (ih left further)
      rwa [code] at denotes
  | case3 | case5 | case6 => cases meant

end Text

variable {text : List Char} {pieces : List Piece} {tokens : List Token}

theorem Literal.exists_denotes (literal : Literal text pieces)
    (meant : (Text.meaning? pieces).isSome = true) : ∃ chars, Text.Denotes pieces chars := by
  obtain ⟨inside, written, -⟩ := literal
  obtain ⟨chars, meant⟩ := Option.isSome_iff_exists.mp meant
  exact ⟨chars, Text.denotes_of_meaning? written.fitsEscape meant⟩

/-- A string that is understood says what it is understood as. -/
theorem Literal.says (literal : Literal text pieces) {value : String}
    (meant : Text.string? pieces = some value) : Says value text := by
  obtain ⟨chars, understood, rfl⟩ := Option.map_eq_some_iff.mp meant
  obtain ⟨inside, written, -⟩ := id literal
  refine ⟨pieces, literal, ?_⟩
  rw [String.toList_ofList]
  exact Text.denotes_of_meaning? written.fitsEscape understood

/-! ## Tokens -/

namespace Token

/-- The letters of a word. -/
def letters? : Token → Option (List Char)
  | .null => some ['n', 'u', 'l', 'l']
  | .bool true => some ['t', 'r', 'u', 'e']
  | .bool false => some ['f', 'a', 'l', 's', 'e']
  | _ => none

variable {c : Char} {rest left letters : List Char} {token : Token}

theorem letters?_of_mark? (isMark : mark? c = some token) : token.letters? = none := by
  rw [mark?] at isMark
  split_ifs at isMark
  all_goals
    cases isMark
    rfl

/-- A word is scanned as it is spelled. -/
theorem letters?_of_word? (isWord : word? c = some (token, letters)) :
    token.letters? = some (c :: letters) := by
  rw [word?] at isWord
  split_ifs at isWord with same same same
  all_goals
    cases isWord
    rw [same]
    rfl

/-- What is scanned as a word up to its end was written with its letters. -/
theorem eq_append_of_ofWord {text word : List Char} (isWord : token.letters? = some word)
    {other : Token} (scanned : ofWord other letters text = (token, left)) :
    token = other ∧ text = letters ++ left := by
  fun_induction ofWord other letters text with
  | case1 =>
      cases scanned
      exact ⟨rfl, rfl⟩
  | case2 | case4 =>
      cases scanned
      cases isWord
  | case3 letters c rest ih =>
      obtain ⟨same, rfl⟩ := ih scanned
      exact ⟨same, rfl⟩

/-- Only what is scanned as a string behind a quote makes one. -/
theorem scan_of_first_text (scanned : first c rest = (.text pieces, left)) :
    c = '"' ∧ Text.scan rest = ⟨pieces, .ok left⟩ := by
  unfold first at scanned
  split at scanned
  · rename_i isMark
    cases scanned
    cases character?_of_mark? isMark
  · rename_i token letters _ isWord
    have spelled := letters?_of_word? isWord
    obtain same | ⟨strict, lax, same⟩ := ofWord_fst token letters rest
    · rw [scanned] at same
      subst same
      cases spelled
    · rw [scanned] at same
      cases same
  · split_ifs at scanned with isQuote isNumber
    · refine ⟨isQuote, ?_⟩
      unfold ofText at scanned
      split at scanned
      · rename_i closed
        cases scanned
        rw [← closed]
      · cases scanned
    · unfold ofNumeral at scanned
      split at scanned <;> cases scanned
    · cases scanned

/-- Only its letters make a word. -/
theorem eq_append_of_first (isWord : token.letters? = some letters)
    (scanned : first c rest = (token, left)) : c :: rest = letters ++ left := by
  unfold first at scanned
  split at scanned
  · rename_i isMark
    cases scanned
    rw [letters?_of_mark? isMark] at isWord
    cases isWord
  · rename_i spelled
    obtain ⟨rfl, rfl⟩ := eq_append_of_ofWord isWord scanned
    rw [letters?_of_word? spelled] at isWord
    cases isWord
    rfl
  · split_ifs at scanned
    · unfold ofText at scanned
      split at scanned
      all_goals
        cases scanned
        cases isWord
    · unfold ofNumeral at scanned
      split at scanned
      all_goals
        cases scanned
        cases isWord
    · cases scanned
      cases isWord

end Token

/-! ## Blanks around what was written -/

theorem BeginsWith.imp {written other : List Char → Prop} (begins : BeginsWith written text tokens)
    (each : ∀ text, written text → other text) : BeginsWith other text tokens := by
  obtain ⟨front, rest, same, further, isWritten⟩ := begins
  exact ⟨front, rest, same, further, fun blanks blank => each _ (isWritten blanks blank)⟩

/-- Blanks in front of the first token and blanks behind it stand around the token. -/
theorem beginsWith_spaced {before core rest : List Char} (blank : Blank before)
    (further : Token.scan rest = tokens) :
    BeginsWith (Spaced core) (before ++ (core ++ rest)) tokens :=
  ⟨before ++ core, rest, by simp, further, fun behind blankBehind =>
    ⟨before, behind, blank, blankBehind, by simp⟩⟩

/-- A string was written with its pieces. -/
theorem Token.beginsWith_literal (scanned : scan text = .text pieces :: tokens) :
    BeginsWith (Literal · pieces) text tokens := by
  obtain ⟨before, c, rest, blank, rfl, isText, further⟩ := exists_of_scan_eq_cons scanned
  obtain ⟨rfl, inside⟩ := scan_of_first_text (Prod.ext isText rfl)
  obtain ⟨inside, written, same⟩ := Text.scan_written inside
  have begins : BeginsWith (Spaced ('"' :: (inside ++ ['"'])))
      (before ++ ('"' :: (inside ++ ['"']) ++ (first '"' rest).2)) tokens :=
    beginsWith_spaced blank further
  rw [List.cons_append, List.append_assoc, List.singleton_append, ← same] at begins
  exact begins.imp fun _ spaced => ⟨inside, written, spaced⟩

/-- A word was written with its letters. -/
theorem Token.beginsWith_word {token : Token} {letters : List Char}
    (isWord : token.letters? = some letters) (scanned : scan text = token :: tokens) :
    BeginsWith (Spaced letters) text tokens := by
  obtain ⟨before, c, rest, blank, rfl, isFirst, further⟩ := exists_of_scan_eq_cons scanned
  rw [eq_append_of_first isWord (Prod.ext isFirst rfl)]
  exact beginsWith_spaced blank further

/-! ## Readers -/

/-- What one token makes is read from it, and nothing else is taken. -/
theorem exists_of_readToken {α : Type} {value : Token → Except ReadError α} {result : α}
    {given : List Token} (done : (readToken value).run given = .ok (result, tokens)) :
    ∃ token, given = token :: tokens ∧ value token = .ok result := by
  simp only [StateT.run] at done
  unfold readToken at done
  split at done
  · cases done
  · split at done
    · cases done
      exact ⟨_, rfl, ‹_›⟩
    · cases done

theorem readString_takesOnly (expected : String) : (readString expected).TakesOnly Says := by
  intro text value tokens done
  obtain ⟨token, scanned, isValue⟩ := exists_of_readToken done
  split at isValue
  · split at isValue
    · cases isValue
      exact (Token.beginsWith_literal scanned).imp fun _ literal => literal.says ‹_›
    · cases isValue
  · cases isValue

/-- The name of a member is a string that has no surrogate alone. -/
theorem readKey_takesOnly : readKey.TakesOnly Says := by
  intro text name tokens done
  obtain ⟨token, scanned, isName⟩ := exists_of_readToken done
  split at isName
  · split at isName
    · cases isName
      exact (Token.beginsWith_literal scanned).imp fun _ literal => literal.says ‹_›
    · cases isName
  · cases isName
  · cases isName

theorem readBool_takesOnly (expected : String) :
    (readBool expected).TakesOnly fun value => Spaced (Settings.writeBool value) := by
  intro text value tokens done
  obtain ⟨token, scanned, isValue⟩ := exists_of_readToken done
  split at isValue
  · cases isValue
    cases value <;> exact Token.beginsWith_word rfl scanned
  · cases isValue

end PathStore.Json
