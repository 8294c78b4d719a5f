import PathStore.Json.Reader
import PathStore.Proofs.HexText

/-!
# Strings are read as they were written

A string is written character by character, and each character is scanned back
as one piece: as itself, behind a backslash, or as the unit that was escaped by
its number.  Whichever it is, the piece means the character, so a written string
makes one token that spells the string, whatever stands behind it.
-/

namespace PathStore.Json

namespace Text

/-- The piece stands for the character, in front of any others. -/
def Means (piece : Piece) (c : Char) : Prop :=
  ∀ pieces, meaning? (piece :: pieces) = (meaning? pieces).map (c :: ·)

theorem means_char (c : Char) : Means (.char c) c := by
  intro pieces
  rw [meaning?]

/-- The unit of a character of 16 bits stands for the character, since no character is
a surrogate. -/
theorem means_unit {c : Char} (small : c.toNat < 0x10000) : Means (.unit c.toNat) c := by
  intro pieces
  have valid : c.toNat < 0xd800 ∨ 0xdfff < c.toNat ∧ c.toNat < 0x110000 := c.valid
  have notTrailing : isTrailing c.toNat = false := by
    simp only [isTrailing, Bool.and_eq_false_iff, decide_eq_false_iff_not]
    omega
  have notLeading : isLeading c.toNat = false := by
    simp only [isLeading, Bool.and_eq_false_iff, decide_eq_false_iff_not]
    omega
  rw [meaning?.eq_def]
  simp [notTrailing, notLeading, Char.ofNat_toNat]

/-- The unit of a control character is read from the two digits of its byte. -/
theorem unit?_control {code : Nat} (control : code < 32) :
    unit? '0' '0' (Nibble.high (UInt8.ofNat code)).digit (Nibble.low (UInt8.ofNat code)).digit =
      some code := by
  revert code
  decide

/-- A character that needs no escape is scanned as itself. -/
theorem scan_plain {c : Char} (notQuote : c ≠ '"') (notBackslash : c ≠ '\\')
    (printed : ¬ c.toNat < 32) (rest : List Char) :
    scan (c :: rest) = (scan rest).cons (.char c) := by
  rw [scan, if_neg printed]
  all_goals simp_all

/-- A written character is scanned as one piece that stands for it. -/
theorem scan_quoteChar (c : Char) (rest : List Char) :
    ∃ piece, scan (quoteChar c ++ rest) = (scan rest).cons piece ∧ Means piece c := by
  rw [quoteChar]
  split_ifs with isMark isBackspace isFeed isNewline isReturn isTab isControl
  · obtain rfl | rfl := isMark <;> exact ⟨.char _, rfl, means_char _⟩
  · subst isBackspace
    exact ⟨.char _, rfl, means_char _⟩
  · subst isFeed
    exact ⟨.char _, rfl, means_char _⟩
  · subst isNewline
    exact ⟨.char _, rfl, means_char _⟩
  · subst isReturn
    exact ⟨.char _, rfl, means_char _⟩
  · subst isTab
    exact ⟨.char _, rfl, means_char _⟩
  · refine ⟨.unit c.toNat, ?_, means_unit (Nat.lt_trans isControl (by decide))⟩
    simp only [List.cons_append, List.nil_append, scan, unit?_control isControl]
  · refine ⟨.char c, ?_, means_char c⟩
    rw [not_or] at isMark
    exact scan_plain isMark.1 isMark.2 isControl rest

/-- A written string is scanned as pieces that mean it, up to its closing
quote. -/
theorem scan_flatMap_quoteChar (chars rest : List Char) :
    ∃ pieces, scan (chars.flatMap quoteChar ++ '"' :: rest) = ⟨pieces, .ok rest⟩ ∧
      meaning? pieces = some chars := by
  induction chars with
  | nil => exact ⟨[], rfl, rfl⟩
  | cons c chars ih =>
      obtain ⟨pieces, scanned, meant⟩ := ih
      obtain ⟨piece, first, means⟩ := scan_quoteChar c (chars.flatMap quoteChar ++ '"' :: rest)
      refine ⟨piece :: pieces, ?_, ?_⟩
      · rw [List.flatMap_cons, List.append_assoc, first, scanned]
        rfl
      · rw [means, meant]
        rfl

end Text

namespace Token

/-- The token is a string with these characters. -/
def Spells (token : Token) (value : String) : Prop :=
  ∃ pieces, token = .text pieces ∧ Text.string? pieces = some value

/-- A character that makes a token on its own is scanned as that token. -/
theorem scan_mark {c : Char} {token : Token} (isMark : mark? c = some token)
    (rest : List Char) : scan (c :: rest) = token :: scan rest := by
  have notBlank : isBlank c = false := by
    rw [mark?] at isMark
    split_ifs at isMark <;> simp_all [isBlank]
  rw [scan, notBlank, first, isMark]
  rfl

/-- A written string is scanned as one token that spells it. -/
theorem scan_quote (value : String) (rest : List Char) :
    ∃ token : Token, scan (Text.quote value ++ rest) = token :: scan rest ∧ token.Spells value := by
  obtain ⟨pieces, scanned, meant⟩ := Text.scan_flatMap_quoteChar value.toList rest
  refine ⟨.text pieces, ?_, pieces, rfl, ?_⟩
  · have quoted : first '"' (value.toList.flatMap Text.quoteChar ++ '"' :: rest) =
        (.text pieces, rest) := by
      change ofText _ = _
      rw [scanned, ofText]
    rw [Text.quote, List.cons_append, List.append_assoc, List.singleton_append, scan, quoted]
    rfl
  · rw [Text.string?, meant, Option.map_some, String.ofList_toList]

end Token

end PathStore.Json
