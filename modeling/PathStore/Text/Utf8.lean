import PathStore.Nibble

/-!
# Text as bytes

A text is stored as its bytes in UTF-8.  Lengths and positions are counted in
bytes where the bytes of a text are what is read.
-/

namespace PathStore.Text

/-- The bytes of a text in UTF-8. -/
def utf8 (s : List Char) : Bytes :=
  s.flatMap String.utf8EncodeChar

end PathStore.Text
