/-! # Lines

A file read as text has `\n` for every `\r\n` and `\r`. Cutting it into lines also cuts at the
vertical tab, the form feed, the separators U+001C to U+001E, U+0085, U+2028 and U+2029.
-/

namespace AssetRefs.Text

/-- One kind of line end in place of three. -/
def unifyNewlines : List Char → List Char
  | '\r' :: '\n' :: rest => '\n' :: unifyNewlines rest
  | '\r' :: rest => '\n' :: unifyNewlines rest
  | c :: rest => c :: unifyNewlines rest
  | [] => []

/-- A character that ends a line. -/
def isLineBreak (c : Char) : Bool :=
  let n := c.toNat
  (10 ≤ n && n ≤ 13) || (0x1C ≤ n && n ≤ 0x1E) || n == 0x85 || n == 0x2028 || n == 0x2029

/-- The lines of a text without their ends, given the characters of the line read so far in
reverse; a text that ends with a line break has no empty line after it. -/
def linesFrom : (current : List Char) → List Char → List (List Char)
  | [], [] => []
  | current, [] => [current.reverse]
  | current, '\r' :: '\n' :: rest => current.reverse :: linesFrom [] rest
  | current, c :: rest =>
    if isLineBreak c then current.reverse :: linesFrom [] rest else linesFrom (c :: current) rest

/-- The lines of a text without their ends. -/
def lines (text : List Char) : List (List Char) := linesFrom [] text

end AssetRefs.Text
