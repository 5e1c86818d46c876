import AssetRefs.AssetPath
import AssetRefs.Text.Utf8

/-! # Go string literals

The text that the source of a string literal denotes. A raw literal is taken as it is, without
carriage returns. In an interpreted literal `\x` and octal escapes denote single bytes, so it is
decoded to bytes first, and these are read as UTF-8.
-/

namespace AssetRefs.GoString

/-- Why the source of a literal denotes no text. -/
inductive Fault where
  | path (error : PathError)
  /-- `\x` without two hexadecimal digits after it. -/
  | hexDigitsMissing
deriving DecidableEq, Repr

/-- The value of a digit in a base up to sixteen. -/
def digit? (base : Nat) (c : Char) : Option Nat :=
  let value? :=
    if '0' ≤ c && c ≤ '9' then some (c.toNat - '0'.toNat)
    else if 'a' ≤ c && c ≤ 'f' then some (c.toNat - 'a'.toNat + 10)
    else if 'A' ≤ c && c ≤ 'F' then some (c.toNat - 'A'.toNat + 10)
    else none
  value?.filter (· < base)

/-- The value of the first `count` characters as digits, most significant first. -/
def numeral? (base : Nat) : (count value : Nat) → List Char → Option Nat
  | 0, value, _ => some value
  | _ + 1, _, [] => none
  | count + 1, value, c :: rest =>
    match digit? base c with
    | none => none
    | some d => numeral? base count (value * base + d) rest

/-- The byte that a one-letter escape denotes. -/
def simpleEscape? (c : Char) : Option UInt8 :=
  match c with
  | 'a' => some 0x07
  | 'b' => some 0x08
  | 'f' => some 0x0C
  | 'n' => some 0x0A
  | 'r' => some 0x0D
  | 't' => some 0x09
  | 'v' => some 0x0B
  | '\\' => some 0x5C
  | '"' => some 0x22
  | _ => none

/-- The bytes of a `\u` or `\U` escape with `count` digits. -/
def codePointEscape (raw : String) (count : Nat) (digits : List Char) :
    Except Fault (List UInt8 × Nat) :=
  match numeral? 16 count 0 digits with
  | none => .error (.path (.badEscape raw))
  | some code =>
    if code.isValidChar then .ok (Text.Utf8.encode [Char.ofNat code], count + 1)
    else .error (.path (.badEscape raw))

/-- The bytes of the escape that stands after a backslash, and the number of characters that
belong to it. A backslash at the very end stands for itself. -/
def escape (raw : String) : List Char → Except Fault (List UInt8 × Nat)
  | [] => .ok ([0x5C], 0)
  | c :: rest =>
    match simpleEscape? c with
    | some byte => .ok ([byte], 1)
    | none =>
      if c = 'x' then
        match numeral? 16 2 0 rest with
        | some byte => .ok ([UInt8.ofNat byte], 3)
        | none => .error .hexDigitsMissing
      else if c = 'u' then codePointEscape raw 4 rest
      else if c = 'U' then codePointEscape raw 8 rest
      else match numeral? 8 3 0 (c :: rest) with
        | some byte =>
          if byte < 256 then .ok ([UInt8.ofNat byte], 3) else .error (.path (.badEscape raw))
        | none => .error (.path (.badEscape raw))

/-- The bytes that the inside of an interpreted literal denotes after its first `skip`
characters. -/
def bytesFrom (raw : String) : (skip : Nat) → List Char → Except Fault (List UInt8)
  | _, [] => .ok []
  | skip + 1, _ :: rest => bytesFrom raw skip rest
  | 0, c :: rest =>
    if c = '\\' then
      match escape raw rest with
      | .error fault => .error fault
      | .ok (bytes, taken) => (bytesFrom raw taken rest).map (bytes ++ ·)
    else (bytesFrom raw 0 rest).map (Text.Utf8.encode [c] ++ ·)

/-- The inside of a literal that starts and ends with `mark`. -/
def between? (mark : Char) (chars : List Char) : Option (List Char) :=
  match chars with
  | first :: second :: rest =>
    if first = mark && (second :: rest).getLast? = some mark then some (second :: rest).dropLast
    else none
  | _ => none

/-- The character that a raw literal starts and ends with. -/
def rawMark : Char := Char.ofNat 0x60

/-- The text that the source of a literal denotes. -/
def unquote (raw : String) : Except Fault String :=
  match between? rawMark raw.toList with
  | some inside => .ok (String.ofList (inside.filter (· ≠ '\r')))
  | none =>
    match between? '"' raw.toList with
    | some inside =>
      (bytesFrom raw 0 inside).map fun bytes => String.ofList (Text.Utf8.decode bytes)
    | none => .error (.path (.notString raw))

end AssetRefs.GoString
