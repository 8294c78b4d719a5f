import PathStore.Text.Unshown

/-!
# Quoted text

An error names a character or a string by quoting it.  The backslash, the
surrounding mark and the characters without a printed form are escaped, so a
quoted text is printable and shows exactly which characters it stands for.
-/

namespace PathStore.Text

/-- The escape of a character by its code point, in lower-case hexadecimal
without leading zeros. -/
def codePointEscape (c : Char) : List Char :=
  '\\' :: 'u' :: '\x7b' :: (Nat.toDigits 16 c.toNat ++ ['\x7d'])

/-- One character as it stands between a pair of `mark`s. -/
def escaped (mark c : Char) : List Char :=
  if c = '\x00' then ['\\', '0']
  else if c = '\t' then ['\\', 't']
  else if c = '\n' then ['\\', 'n']
  else if c = '\r' then ['\\', 'r']
  else if c = '\\' ∨ c = mark then ['\\', c]
  else if isUnshown c then codePointEscape c
  else [c]

/-- A character between single quotes. -/
def quotedChar (c : Char) : String :=
  String.ofList ('\'' :: (escaped '\'' c ++ ['\'']))

/-- A string between double quotes. -/
def quoted (s : String) : String :=
  String.ofList ('"' :: (s.toList.flatMap (escaped '"') ++ ['"']))

end PathStore.Text
