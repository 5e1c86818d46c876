/-! # Places in a YAML text

A cursor is a place in a text: what is left of the text, and where the place is. Line breaks are the
line feed, U+0085, U+2028 and U+2029; a text read from a file has no carriage returns.
-/

namespace AssetRefs.Yaml

/-- Why a text has no value. -/
inductive YamlError where
  /-- The text is not well-formed, or its nodes do not fit their tags. -/
  | malformed
  /-- A number, a date or a code point does not exist. -/
  | outOfRange
deriving DecidableEq, Repr

/-- Whether a character may occur in a text. -/
def isAllowed (c : Char) : Bool :=
  let n := c.toNat
  n == 9 || n == 10 || n == 13 || (0x20 ≤ n && n ≤ 0x7E) || n == 0x85 ||
    (0xA0 ≤ n && n ≤ 0xD7FF) || (0xE000 ≤ n && n ≤ 0xFFFD) || 0x10000 ≤ n

/-- A character that ends a line. -/
def isBreak (c : Char) : Bool :=
  let n := c.toNat
  n == 10 || n == 0x85 || n == 0x2028 || n == 0x2029

/-- Whether a line or the text ends here. -/
def endsLine : Option Char → Bool
  | none => true
  | some c => isBreak c

/-- Whether a word ends here, where tabs do not count as blank. -/
def endsWord : Option Char → Bool
  | none => true
  | some c => c == ' ' || isBreak c

/-- Whether a word ends here. -/
def endsToken : Option Char → Bool
  | none => true
  | some c => c == ' ' || c == '\t' || isBreak c

/-- An ASCII decimal digit. -/
def isDigit (c : Char) : Bool := '0' ≤ c && c ≤ '9'

/-- An ASCII hexadecimal digit. -/
def isHexDigit (c : Char) : Bool :=
  isDigit c || ('A' ≤ c && c ≤ 'F') || ('a' ≤ c && c ≤ 'f')

/-- A character of a name. -/
def isNameChar (c : Char) : Bool :=
  isDigit c || ('A' ≤ c && c ≤ 'Z') || ('a' ≤ c && c ≤ 'z') || c == '-' || c == '_'

/-- The value of a hexadecimal digit. -/
def hexValue (c : Char) : Nat :=
  if isDigit c then c.toNat - 48 else if 'a' ≤ c then c.toNat - 87 else c.toNat - 55

/-- The number that digits of a base spell. -/
def numeral (base : Nat) (digits : List Char) : Nat :=
  digits.foldl (fun n c => n * base + hexValue c) 0

/-- A place in a text. -/
structure Cursor where
  rest : List Char
  index : Nat := 0
  line : Nat := 0
  column : Nat := 0

namespace Cursor

/-- The character at the place, or after `n` others. -/
def peek (cursor : Cursor) (n : Nat := 0) : Option Char := cursor.rest[n]?

/-- Goes past one character. A byte order mark takes up no column. -/
def next (cursor : Cursor) : Cursor :=
  match cursor.rest with
  | [] => cursor
  | c :: rest =>
    if isBreak c then ⟨rest, cursor.index + 1, cursor.line + 1, 0⟩
    else if c.toNat = 0xFEFF then { cursor with rest, index := cursor.index + 1 }
    else { cursor with rest, index := cursor.index + 1, column := cursor.column + 1 }

/-- Goes past several characters. -/
def advance : Nat → Cursor → Cursor
  | 0, cursor => cursor
  | n + 1, cursor => advance n cursor.next

/-- The characters from the place on that are of some class. -/
def span (cursor : Cursor) (part : Char → Bool) : List Char := cursor.rest.takeWhile part

/-- Goes past the characters of some class. -/
def skip (cursor : Cursor) (part : Char → Bool) : Cursor :=
  advance (cursor.span part).length cursor

/-- Goes past spaces. -/
def skipSpaces (cursor : Cursor) : Cursor := cursor.skip (· == ' ')

/-- Goes to the end of the line. -/
def skipLine (cursor : Cursor) : Cursor := cursor.skip fun c => !isBreak c

/-- Goes past blanks and a comment. -/
def skipComment (cursor : Cursor) : Cursor :=
  let cursor := cursor.skipSpaces
  if cursor.peek = some '#' then cursor.skipLine else cursor

/-- Takes a line break; the separators U+2028 and U+2029 are kept, the others become line feeds. -/
def lineBreak? (cursor : Cursor) : Option (Char × Cursor) :=
  match cursor.rest with
  | [] => none
  | c :: _ =>
    if isBreak c then
      some (if c.toNat = 0x2028 || c.toNat = 0x2029 then c else '\n', cursor.next)
    else none

/-- Goes past a line break, if there is one. -/
def skipBreak (cursor : Cursor) : Cursor :=
  match cursor.lineBreak? with
  | some (_, cursor) => cursor
  | none => cursor

/-- Whether a line with a document marker starts here. -/
def atMarker (cursor : Cursor) (mark : Char) : Bool :=
  cursor.rest.take 3 == [mark, mark, mark] && endsToken (cursor.peek 3)

/-- Whether the line that starts here separates documents. -/
def atSeparator (cursor : Cursor) : Bool := cursor.atMarker '-' || cursor.atMarker '.'

end Cursor

end AssetRefs.Yaml
