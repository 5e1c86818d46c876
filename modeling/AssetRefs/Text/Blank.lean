/-! # Blank characters

Blank space as the path grammar and the module file see it: Unicode white space together with the
four information separators.
-/

namespace AssetRefs.Text

/-- Space, line and paragraph breaks, and the separators U+001C to U+001F. -/
def isBlank (c : Char) : Bool :=
  let n := c.toNat
  (9 ≤ n && n ≤ 13) || (28 ≤ n && n ≤ 32) || n == 0x85 || n == 0xA0 || n == 0x1680 ||
    (0x2000 ≤ n && n ≤ 0x200A) || n == 0x2028 || n == 0x2029 || n == 0x202F || n == 0x205F ||
    n == 0x3000

/-- Drops blank characters at the front. -/
def trimLeft (chars : List Char) : List Char := chars.dropWhile isBlank

/-- Drops blank characters at the end. -/
def trimRight (chars : List Char) : List Char := (chars.reverse.dropWhile isBlank).reverse

/-- Drops blank characters at both ends. -/
def trim (chars : List Char) : List Char := trimRight (trimLeft chars)

/-- The pieces between occurrences of a separator; there is always at least one. -/
def pieces (separator : Char) : List Char → List (List Char)
  | [] => [[]]
  | c :: rest =>
    if c = separator then [] :: pieces separator rest
    else match pieces separator rest with
      | [] => [[c]]
      | piece :: more => (c :: piece) :: more

end AssetRefs.Text
