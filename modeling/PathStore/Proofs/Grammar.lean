import Mathlib.Data.List.Forall2
import Mathlib.Data.List.ReduceOption
import PathStore.Json.Reader

/-!
# The grammar of JSON

What a JSON text looks like, said without a reader.  Blanks may stand around every
value and every name.  The characters of a string may be escaped, in two ways or
three, and a character beyond 16 bits is escaped as a pair of surrogates; not every
string of the grammar stands for characters, since a surrogate may be alone.  A
number has no bound in the grammar, and brackets may be nested to any depth.

A reader may ask for more than the grammar: `Demands` says what of a value's strings
and numbers, and the depth of a value is kept beside it.
-/

namespace PathStore.Json

/-! ## Blanks and brackets -/

/-- Blanks and nothing else. -/
def Blank (text : List Char) : Prop :=
  ∀ c ∈ text, c = ' ' ∨ c = '\t' ∨ c = '\n' ∨ c = '\r'

/-- The text is the core with blanks around it. -/
def Spaced (core text : List Char) : Prop :=
  ∃ before behind, Blank before ∧ Blank behind ∧ text = before ++ (core ++ behind)

/-- What stands between the brackets of a list or a record: blanks if it is empty,
and otherwise its items with commas between them. -/
def Separated (items : List (List Char)) (inside : List Char) : Prop :=
  match items with
  | [] => Blank inside
  | first :: more => inside = List.intercalate [','] (first :: more)

/-- The text is the items in brackets. -/
def Enclosed (opening closing : Char) (items : List (List Char)) (text : List Char) : Prop :=
  ∃ inside, Separated items inside ∧ Spaced (opening :: (inside ++ [closing])) text

/-! ## Strings -/

namespace Text

/-- The letters that may stand behind a backslash, with the characters that they
stand for. -/
def shortEscapes : List (Char × Char) :=
  [('"', '"'), ('\\', '\\'), ('/', '/'), ('b', '\x08'), ('f', '\x0c'), ('n', '\n'), ('r', '\r'),
    ('t', '\t')]

/-- What stands between the quotes of a string, with the pieces that it is made of. -/
inductive Written : List Char → List Piece → Prop
  | nil : Written [] []
  | plain {c : Char} {text : List Char} {pieces : List Piece} :
      c ≠ '"' → c ≠ '\\' → 32 ≤ c.toNat → Written text pieces →
        Written (c :: text) (.char c :: pieces)
  | short {letter c : Char} {text : List Char} {pieces : List Piece} :
      (letter, c) ∈ shortEscapes → Written text pieces →
        Written ('\\' :: letter :: text) (.char c :: pieces)
  | numbered {a b c d : Char} {unit : Nat} {text : List Char} {pieces : List Piece} :
      unit? a b c d = some unit → Written text pieces →
        Written ('\\' :: 'u' :: a :: b :: c :: d :: text) (.unit unit :: pieces)

/-- The characters that pieces stand for.  A unit is that of a character of 16 bits,
or the first or second half of a larger one, as in UTF-16. -/
inductive Denotes : List Piece → List Char → Prop
  | nil : Denotes [] []
  | char {c : Char} {pieces : List Piece} {chars : List Char} :
      Denotes pieces chars → Denotes (.char c :: pieces) (c :: chars)
  | unit {c : Char} {pieces : List Piece} {chars : List Char} :
      c.toNat < 0x10000 → Denotes pieces chars →
        Denotes (.unit c.toNat :: pieces) (c :: chars)
  | pair {c : Char} {pieces : List Piece} {chars : List Char} :
      0x10000 ≤ c.toNat → Denotes pieces chars →
        Denotes (.unit (0xd800 + (c.toNat - 0x10000) / 0x400) ::
          .unit (0xdc00 + (c.toNat - 0x10000) % 0x400) :: pieces) (c :: chars)

end Text

/-- The text is a string of these pieces. -/
def Literal (text : List Char) (pieces : List Piece) : Prop :=
  ∃ inside, Text.Written inside pieces ∧ Spaced ('"' :: (inside ++ ['"'])) text

/-- The text is a string that stands for these characters, however it is spelled. -/
def Says (value : String) (text : List Char) : Prop :=
  ∃ pieces, Literal text pieces ∧ Text.Denotes pieces value.toList

/-! ## Numbers -/

namespace Numeral

/-- Decimal digits, at least one. -/
def Digits (text : List Char) : Prop :=
  text ≠ [] ∧ ∀ c ∈ text, Decimal.isDigit c = true

/-- The digits before the point.  Only zero itself begins with the digit zero. -/
def Whole (text : List Char) : Prop :=
  text = ['0'] ∨ Digits text ∧ text.head? ≠ some '0'

/-- The point and the digits behind it, if there are any. -/
inductive Fraction : List Char → List Char → Prop
  | absent : Fraction [] []
  | present {digits : List Char} : Digits digits → Fraction ('.' :: digits) digits

/-- The sign of an exponent. -/
inductive Sign : List Char → Bool → Prop
  | none : Sign [] false
  | plus : Sign ['+'] false
  | minus : Sign ['-'] true

/-- The exponent, if there is one. -/
inductive Exponent : List Char → Option (Bool × List Char) → Prop
  | absent : Exponent [] none
  | present {mark : Char} {sign digits : List Char} {negative : Bool} :
      mark = 'e' ∨ mark = 'E' → Sign sign negative → Digits digits →
        Exponent (mark :: (sign ++ digits)) (some (negative, digits))

/-- The characters of a number, with its parts. -/
inductive Written : List Char → Numeral → Prop
  | intro (negative : Bool) {whole point fraction power : List Char}
      {exponent : Option (Bool × List Char)} :
      Whole whole → Fraction point fraction → Exponent power exponent →
        Written ((if negative then ['-'] else []) ++ (whole ++ (point ++ power)))
          ⟨negative, whole, fraction, exponent⟩

end Numeral

/-! ## Values -/

/-- What is asked of the strings and the numbers of a value. -/
structure Demands where
  text : List Piece → Prop
  number : Numeral → Prop

namespace Demands

/-- Nothing beyond the grammar. -/
def grammar : Demands where
  text _ := True
  number _ := True

/-- Strings stand for characters, so no surrogate is alone, and numbers are not out of
range. -/
def meaning : Demands where
  text pieces := ∃ chars, Text.Denotes pieces chars
  number numeral := numeral.shape?.isSome = true

end Demands

/-- The words of JSON. -/
inductive Word : List Char → Prop
  | null : Word ['n', 'u', 'l', 'l']
  | true : Word ['t', 'r', 'u', 'e']
  | false : Word ['f', 'a', 'l', 's', 'e']

/-- The text is a value that meets the demands and has brackets inside of each other to
no more than the given depth. -/
inductive Value (demands : Demands) : Nat → List Char → Prop
  | word {depth : Nat} {word text : List Char} :
      Word word → Spaced word text → Value demands depth text
  | number {depth : Nat} {digits text : List Char} {numeral : Numeral} :
      Numeral.Written digits numeral → demands.number numeral → Spaced digits text →
        Value demands depth text
  | text {depth : Nat} {text : List Char} {pieces : List Piece} :
      Literal text pieces → demands.text pieces → Value demands depth text
  | list {depth : Nat} {items : List (List Char)} {text : List Char} :
      Enclosed '[' ']' items text → (∀ item ∈ items, Value demands depth item) →
        Value demands (depth + 1) text
  | record {depth : Nat} {members : List (List Char × List Char)} {text : List Char} :
      Enclosed '\x7b' '\x7d' (members.map fun member => member.1 ++ ':' :: member.2) text →
      (∀ member ∈ members, ∃ pieces, Literal member.1 pieces ∧ demands.text pieces) →
      (∀ member ∈ members, Value demands depth member.2) →
        Value demands (depth + 1) text

/-! ## Lists and records with known parts -/

/-- The text is a list whose items are those of `values`, in their order. -/
def ListOf {α : Type} (item : α → List Char → Prop) (values : List α) (text : List Char) : Prop :=
  ∃ items, List.Forall₂ item values items ∧ Enclosed '[' ']' items text

/-- A member of a record: its name, and the text of its value. -/
structure Member where
  name : List Piece
  value : List Char

namespace Member

/-- The member as it is written. -/
def Written (member : Member) (text : List Char) : Prop :=
  ∃ name, Literal name member.name ∧ text = name ++ ':' :: member.value

/-- The name of the member is this one, however it is spelled. -/
def IsNamed (member : Member) (name : String) : Prop :=
  Text.Denotes member.name name.toList

end Member

/-- The text is a record with these members, in their order. -/
def RecordOf (members : List Member) (text : List Char) : Prop :=
  ∃ items, List.Forall₂ Member.Written members items ∧ Enclosed '\x7b' '\x7d' items text

/-- The text is a record whose members give these parts, once each and in any order,
among members that give none. -/
def RecordGiving {α : Type} (gives : Member → Option α → Prop) (given : List α)
    (text : List Char) : Prop :=
  ∃ members entries, List.Forall₂ gives members entries ∧ entries.reduceOption.Perm given ∧
    RecordOf members text

end PathStore.Json
