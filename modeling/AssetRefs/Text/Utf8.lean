/-! # UTF-8 with replacement

Bytes are read as UTF-8. What is not UTF-8 is cut into the longest prefixes of an encoded scalar
value, and each of them counts as one U+FFFD. A strict reader refuses such bytes instead.
-/

namespace AssetRefs.Text.Utf8

/-- The character that stands for bytes which encode nothing. -/
def replacement : Char := Char.ofNat 0xFFFD

/-- A byte that continues a sequence, between the bounds its place allows. -/
def continues (low high : UInt8) (byte : UInt8) : Bool := low ≤ byte && byte ≤ high

/-- Six payload bits of a continuation byte. -/
def payload (byte : UInt8) : Nat := byte.toNat % 64

/-- Reads a sequence of two bytes. -/
def head2 (lead : UInt8) : List UInt8 → Option Char × Nat
  | b :: _ =>
    if continues 0x80 0xBF b then (some (Char.ofNat (lead.toNat % 32 * 64 + payload b)), 1)
    else (none, 0)
  | [] => (none, 0)

/-- Reads a sequence of three bytes whose second byte is between `low` and `high`. -/
def head3 (low high lead : UInt8) : List UInt8 → Option Char × Nat
  | b :: c :: _ =>
    if continues low high b then
      if continues 0x80 0xBF c then
        (some (Char.ofNat ((lead.toNat % 16 * 64 + payload b) * 64 + payload c)), 2)
      else (none, 1)
    else (none, 0)
  | [b] => if continues low high b then (none, 1) else (none, 0)
  | [] => (none, 0)

/-- Reads a sequence of four bytes whose second byte is between `low` and `high`. -/
def head4 (low high lead : UInt8) : List UInt8 → Option Char × Nat
  | b :: c :: d :: _ =>
    if continues low high b then
      if continues 0x80 0xBF c then
        if continues 0x80 0xBF d then
          (some (Char.ofNat
            (((lead.toNat % 8 * 64 + payload b) * 64 + payload c) * 64 + payload d)), 3)
        else (none, 2)
      else (none, 1)
    else (none, 0)
  | [b, c] =>
    if continues low high b then if continues 0x80 0xBF c then (none, 2) else (none, 1)
    else (none, 0)
  | [b] => if continues low high b then (none, 1) else (none, 0)
  | [] => (none, 0)

/-- The scalar value that starts at `lead`, or `none` for a longest prefix of one, together with
the number of bytes after `lead` that belong to it. -/
def head (lead : UInt8) (rest : List UInt8) : Option Char × Nat :=
  if lead < 0x80 then (some (Char.ofNat lead.toNat), 0)
  else if lead < 0xC2 then (none, 0)
  else if lead < 0xE0 then head2 lead rest
  else if lead = 0xE0 then head3 0xA0 0xBF lead rest
  else if lead = 0xED then head3 0x80 0x9F lead rest
  else if lead < 0xF0 then head3 0x80 0xBF lead rest
  else if lead = 0xF0 then head4 0x90 0xBF lead rest
  else if lead < 0xF4 then head4 0x80 0xBF lead rest
  else if lead = 0xF4 then head4 0x80 0x8F lead rest
  else (none, 0)

/-- The characters after `skip` bytes; what is not UTF-8 is replaced. -/
def decodeFrom : Nat → List UInt8 → List Char
  | _, [] => []
  | skip + 1, _ :: rest => decodeFrom skip rest
  | 0, lead :: rest => (head lead rest).1.getD replacement :: decodeFrom (head lead rest).2 rest

/-- The characters of a byte sequence; what is not UTF-8 is replaced. -/
def decode (bytes : List UInt8) : List Char := decodeFrom 0 bytes

/-- The characters after `skip` bytes, if those bytes are UTF-8 throughout. -/
def decodeFrom? : Nat → List UInt8 → Option (List Char)
  | _, [] => some []
  | skip + 1, _ :: rest => decodeFrom? skip rest
  | 0, lead :: rest =>
    match (head lead rest).1 with
    | none => none
    | some char => (decodeFrom? (head lead rest).2 rest).map (char :: ·)

/-- The characters of a byte sequence that is UTF-8 throughout. -/
def decode? (bytes : List UInt8) : Option (List Char) := decodeFrom? 0 bytes

/-- The UTF-8 bytes of a character sequence. -/
def encode (chars : List Char) : List UInt8 := chars.flatMap String.utf8EncodeChar

end AssetRefs.Text.Utf8
