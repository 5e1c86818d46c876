import AssetRefs.Text.Quoted

/-! # JSON

JSON values and their canonical text: two spaces per level, keys in code point order, ASCII only.
-/

namespace AssetRefs

/-- A JSON value; numbers are integers. -/
inductive Json where
  | null
  | bool (value : Bool)
  | number (value : Int)
  | string (text : String)
  | array (items : List Json)
  | object (members : List (String × Json))
deriving Inhabited, Repr

namespace Json

/-- A UTF-16 unit as an escape. -/
def unitEscape (unit : Nat) : List Char := ['\\', 'u'] ++ Text.hexDigits 4 unit

/-- One character of a string. -/
def escapeChar (c : Char) : List Char :=
  if c = '"' then ['\\', '"']
  else if c = '\\' then ['\\', '\\']
  else if c = '\n' then ['\\', 'n']
  else if c = '\r' then ['\\', 'r']
  else if c = '\t' then ['\\', 't']
  else if c.toNat = 12 then ['\\', 'f']
  else if c.toNat = 8 then ['\\', 'b']
  else if 32 ≤ c.toNat && c.toNat < 127 then [c]
  else if c.toNat < 0x10000 then unitEscape c.toNat
  else
    unitEscape (0xD800 + (c.toNat - 0x10000) / 0x400) ++
      unitEscape (0xDC00 + (c.toNat - 0x10000) % 0x400)

/-- A string in quotes. -/
def quote (text : String) : List Char := '"' :: text.toList.flatMap escapeChar ++ ['"']

/-- A line break and the indentation of a level. -/
def newline (level : Nat) : List Char := '\n' :: List.replicate (2 * level) ' '

/-- Puts a member into a list with increasing keys, after members with the same key. -/
def insertMember (member : String × Json) : List (String × Json) → List (String × Json)
  | [] => [member]
  | other :: rest =>
    if member.1 < other.1 then member :: other :: rest else other :: insertMember member rest

mutual

/-- The same value with the keys of all objects in code point order. -/
def canonical : Json → Json
  | array items => array (canonicalItems items)
  | object members => object (canonicalMembers members)
  | value => value

/-- The canonical forms of several values. -/
def canonicalItems : List Json → List Json
  | [] => []
  | item :: rest => item.canonical :: canonicalItems rest

/-- The canonical forms of members, in code point order of their keys. -/
def canonicalMembers : List (String × Json) → List (String × Json)
  | [] => []
  | (key, value) :: rest => insertMember (key, value.canonical) (canonicalMembers rest)

end

mutual

/-- The text of a value whose first line starts at a level, keys as they stand. -/
def write (level : Nat) : Json → List Char
  | null => "null".toList
  | bool true => "true".toList
  | bool false => "false".toList
  | number value => (toString value).toList
  | string text => quote text
  | array [] => ['[', ']']
  | array (item :: rest) =>
    '[' :: newline (level + 1) ++ item.write (level + 1) ++ writeItems (level + 1) rest ++
      newline level ++ [']']
  | object [] => [Char.ofNat 0x7B, Char.ofNat 0x7D]
  | object ((key, value) :: rest) =>
    Char.ofNat 0x7B :: newline (level + 1) ++ quote key ++ [':', ' '] ++ value.write (level + 1) ++
      writeMembers (level + 1) rest ++ newline level ++ [Char.ofNat 0x7D]

/-- The items after the first. -/
def writeItems (level : Nat) : List Json → List Char
  | [] => []
  | item :: rest => ',' :: newline level ++ item.write level ++ writeItems level rest

/-- The members after the first. -/
def writeMembers (level : Nat) : List (String × Json) → List Char
  | [] => []
  | (key, value) :: rest =>
    ',' :: newline level ++ quote key ++ [':', ' '] ++ value.write level ++ writeMembers level rest

end

/-- The canonical text of a value. -/
def render (value : Json) : String := String.ofList (value.canonical.write 0)

/-- Sets a member of an object: in place if the key is there, at the end otherwise. -/
def setMember (key : String) (value : Json) : List (String × Json) → List (String × Json)
  | [] => [(key, value)]
  | (other, old) :: rest =>
    if other = key then (key, value) :: rest else (other, old) :: setMember key value rest

end Json

end AssetRefs
