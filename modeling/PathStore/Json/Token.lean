import PathStore.Json.Numeral
import PathStore.Json.Text

/-!
# Tokens of a JSON text

A text is a list of tokens with blanks between them.  Scanning never fails:
where the text breaks off or holds something that is no token, the list ends
in a token that says what is wrong there, and the fault counts only if a
reader gets that far.  Such a token keeps two faults, one for a reader that
wants the value and one for a reader that passes over it.
-/

namespace PathStore.Json

/-- A unit of a JSON text. -/
inductive Token where
  | openList
  | closeList
  | openRecord
  | closeRecord
  | colon
  | comma
  | null
  | bool (value : Bool)
  | number (numeral : Numeral)
  | text (pieces : List Piece)
  /-- A string that breaks off. -/
  | brokenText (strict lax : Fault)
  /-- Anything else that breaks off or is no token. -/
  | brokenScalar (strict lax : Fault)
deriving DecidableEq, Repr

namespace Token

/-- The character is a blank of JSON. -/
def isBlank (c : Char) : Bool :=
  c = ' ' || c = '\t' || c = '\n' || c = '\r'

theorem isBlank_iff {c : Char} : isBlank c ↔ c = ' ' ∨ c = '\t' ∨ c = '\n' ∨ c = '\r' := by
  simp [isBlank, or_assoc]

/-- The token of a scanned string and what is left behind it. -/
def ofText (scanned : ScannedText) : Token × List Char :=
  match scanned.rest with
  | .ok rest => (.text scanned.pieces, rest)
  | .error fault => (.brokenText (Text.strictFault scanned.pieces fault) fault, [])

/-- The token of a scanned number and what is left behind it. -/
def ofNumeral : ScannedNumeral → Token × List Char
  | .numeral numeral rest => (.number numeral, rest)
  | .broken strict lax => (.brokenScalar strict lax, [])

/-- The token of a word whose remaining letters are `letters`. -/
def ofWord (token : Token) : List Char → List Char → Token × List Char
  | [], rest => (token, rest)
  | _ :: _, [] => (.brokenScalar .unexpectedEnd .unexpectedEnd, [])
  | letter :: letters, c :: rest =>
    if c = letter then ofWord token letters rest
    else (.brokenScalar .malformed .malformed, [])

/-- The token that a character makes on its own. -/
def mark? (c : Char) : Option Token :=
  if c = '[' then some .openList
  else if c = ']' then some .closeList
  else if c = '\x7b' then some .openRecord
  else if c = '\x7d' then some .closeRecord
  else if c = ':' then some .colon
  else if c = ',' then some .comma
  else none

/-- The token of the word that begins with a character, and the other letters
of the word. -/
def word? (c : Char) : Option (Token × List Char) :=
  if c = 'n' then some (.null, ['u', 'l', 'l'])
  else if c = 't' then some (.bool true, ['r', 'u', 'e'])
  else if c = 'f' then some (.bool false, ['a', 'l', 's', 'e'])
  else none

/-- The token that begins with a character that is no blank, and what is left
behind it.  Nothing is left behind a broken token. -/
def first (c : Char) (rest : List Char) : Token × List Char :=
  match mark? c, word? c with
  | some token, _ => (token, rest)
  | none, some (token, letters) => ofWord token letters rest
  | none, none =>
    if c = '"' then ofText (Text.scan rest)
    else if c = '-' ∨ Decimal.isDigit c then ofNumeral (Numeral.scan (c :: rest))
    else (.brokenScalar .malformed .malformed, [])

theorem length_ofText (text : List Char) :
    (ofText (Text.scan text)).2.length ≤ text.length := by
  unfold ofText
  split
  · exact Nat.le_of_lt (Text.scan_rest_length ‹_›)
  · exact Nat.zero_le _

theorem length_ofWord (token : Token) (letters text : List Char) :
    (ofWord token letters text).2.length ≤ text.length := by
  fun_induction ofWord token letters text with
  | case1 => exact Nat.le_refl _
  | case2 => exact Nat.zero_le _
  | case3 letters c rest ih => exact Nat.le_succ_of_le ih
  | case4 => exact Nat.zero_le _

theorem length_ofNumeral (c : Char) (text : List Char) :
    (ofNumeral (Numeral.scan (c :: text))).2.length ≤ text.length := by
  cases scanned : Numeral.scan (c :: text) with
  | numeral numeral rest => exact Nat.le_of_lt_succ (Numeral.scan_length scanned)
  | broken => exact Nat.zero_le _

theorem length_first (c : Char) (text : List Char) :
    (first c text).2.length ≤ text.length := by
  unfold first
  split
  · exact Nat.le_refl _
  · exact length_ofWord _ _ text
  · split
    · exact length_ofText text
    · split
      · exact length_ofNumeral c text
      · exact Nat.zero_le _

/-- The tokens of a text. -/
def scan : List Char → List Token
  | [] => []
  | c :: rest =>
    if isBlank c then scan rest
    else
      (first c rest).1 :: scan (first c rest).2
termination_by text => text.length
decreasing_by
  · simp
  · exact Nat.lt_succ_of_le (length_first c rest)

end Token

end PathStore.Json
