import AssetRefs.Text.Identifier
import AssetRefs.Text.Utf8

/-! # Go tokens

The tokens of a Go source, each with its extent and with the fact whether a line break stands
before it. Comments and blank space leave no tokens.
-/

namespace AssetRefs.Go

/-- What a token is. -/
inductive TokenKind where
  /-- A name. -/
  | word (text : String)
  /-- A keyword or a punctuation mark. -/
  | mark (text : String)
  /-- A literal of the given kind. -/
  | literal (kind : String)
  /-- The end of the source. -/
  | ending
deriving DecidableEq, Inhabited, Repr

/-- A place in the source. -/
structure Cursor where
  offset : Nat := 0
  row : Nat := 0
  column : Nat := 0
deriving DecidableEq, Inhabited, Repr

/-- A token, its extent, and whether there is a line break between it and the token before. -/
structure Token where
  kind : TokenKind
  place : Cursor
  stop : Nat
  afterBreak : Bool
deriving DecidableEq, Inhabited, Repr

/-- The words that are keywords. -/
def keywords : List String :=
  ["break", "case", "chan", "const", "continue", "default", "defer", "else", "fallthrough", "for",
    "func", "go", "goto", "if", "import", "interface", "map", "package", "range", "return",
    "select", "struct", "switch", "type", "var"]

/-- The punctuation marks, longer ones first. -/
def punctuation : List String :=
  ["&^=", "<<=", ">>=", "...", "&&", "||", "==", "!=", "<=", ">=", "<-", "++", "--", ":=", "+=",
    "-=", "*=", "/=", "%=", "&=", "|=", "^=", "<<", ">>", "&^", "+", "-", "*", "/", "%", "&", "|",
    "^", "<", ">", "=", "!", "(", ")", "[", "]", "\x7b", "\x7d", ",", ";", ".", ":", "~"]

namespace Token

/-! ## Classes of bytes -/

/-- Whether a byte is the given ASCII character. -/
def isByte (c : Char) (byte : UInt8) : Bool := byte.toNat == c.toNat

/-- A decimal digit. -/
def isDecimal (byte : UInt8) : Bool := 0x30 ≤ byte && byte ≤ 0x39

/-- An octal digit. -/
def isOctal (byte : UInt8) : Bool := 0x30 ≤ byte && byte ≤ 0x37

/-- A binary digit. -/
def isBinary (byte : UInt8) : Bool := byte == 0x30 || byte == 0x31

/-- A hexadecimal digit of either case. -/
def isHex (byte : UInt8) : Bool :=
  isDecimal byte || (0x41 ≤ byte && byte ≤ 0x46) || (0x61 ≤ byte && byte ≤ 0x66)

/-- White space in a Go source, as a character. -/
def isSpace (c : Char) : Bool :=
  let n := c.toNat
  (9 ≤ n && n ≤ 13) || n == 32 || n == 0x85 || n == 0xA0 || n == 0x1680 ||
    (0x2000 ≤ n && n ≤ 0x200A) || n == 0x2028 || n == 0x2029 || n == 0x202F || n == 0x205F ||
    n == 0x3000

/-! ## Numbers

A class of numbers is a function from the bytes at hand to the length of the number of that class
they start with, if they start with one. -/

/-- The number of bytes of digits in which single underscores may stand, after a digit. -/
def digitTail (digit : UInt8 → Bool) : List UInt8 → Nat
  | [] => 0
  | [b] => if digit b then 1 else 0
  | b :: c :: rest =>
    if digit b then 1 + digitTail digit (c :: rest)
    else if isByte '_' b && digit c then 2 + digitTail digit rest
    else 0

/-- Digits with single underscores between them. -/
def digits (digit : UInt8 → Bool) : List UInt8 → Option Nat
  | [] => none
  | b :: rest => if digit b then some (1 + digitTail digit rest) else none

/-- Any one of several bytes. -/
def oneOf (bytes : List Char) : List UInt8 → Option Nat
  | [] => none
  | b :: _ => if bytes.any (isByte · b) then some 1 else none

/-- One class after another. -/
def andThen (first second : List UInt8 → Option Nat) (bytes : List UInt8) : Option Nat :=
  match first bytes with
  | none => none
  | some n => (second (bytes.drop n)).map (n + ·)

/-- A class that may be absent. -/
def optional (part : List UInt8 → Option Nat) (bytes : List UInt8) : Option Nat :=
  some ((part bytes).getD 0)

/-- The longer of two classes. -/
def either (first second : List UInt8 → Option Nat) (bytes : List UInt8) : Option Nat :=
  match first bytes, second bytes with
  | some n, some m => some (max n m)
  | some n, none => some n
  | none, m => m

/-- Zero and a letter, then digits that may start with an underscore. -/
def based (letters : List Char) (digit : UInt8 → Bool) : List UInt8 → Option Nat :=
  andThen (oneOf ['0']) (andThen (oneOf letters) (andThen (optional (oneOf ['_'])) (digits digit)))

/-- A decimal number without a leading zero, or zero. -/
def decimal (bytes : List UInt8) : Option Nat :=
  match bytes with
  | b :: _ => if isByte '0' b then some 1 else digits isDecimal bytes
  | [] => none

/-- An octal number, with or without the letter. -/
def octal : List UInt8 → Option Nat :=
  andThen (oneOf ['0']) (andThen (optional (oneOf ['o', 'O']))
    (andThen (optional (oneOf ['_'])) (digits isOctal)))

/-- An integer. -/
def integer : List UInt8 → Option Nat :=
  either (based ['b', 'B'] isBinary) (either decimal (either octal (based ['x', 'X'] isHex)))

/-- An exponent after one of the letters. -/
def exponent (letters : List Char) : List UInt8 → Option Nat :=
  andThen (oneOf letters) (andThen (optional (oneOf ['+', '-'])) (digits isDecimal))

/-- A decimal number with a point or an exponent. -/
def decimalFloat : List UInt8 → Option Nat :=
  either
    (andThen (digits isDecimal) (andThen (oneOf ['.'])
      (andThen (optional (digits isDecimal)) (optional (exponent ['e', 'E'])))))
    (either (andThen (digits isDecimal) (exponent ['e', 'E']))
      (andThen (oneOf ['.']) (andThen (digits isDecimal) (optional (exponent ['e', 'E'])))))

/-- A hexadecimal number with an exponent. -/
def hexFloat : List UInt8 → Option Nat :=
  andThen (oneOf ['0']) (andThen (oneOf ['x', 'X']) (andThen
    (either (andThen (oneOf ['.']) (digits isHex))
      (andThen (optional (oneOf ['_'])) (andThen (digits isHex)
        (optional (andThen (oneOf ['.']) (optional (digits isHex)))))))
    (exponent ['p', 'P'])))

/-- A floating-point number. -/
def floating : List UInt8 → Option Nat := either decimalFloat hexFloat

/-- An imaginary number. -/
def imaginary : List UInt8 → Option Nat :=
  andThen (either (digits isDecimal) (either integer floating)) (oneOf ['i'])

/-- The longest number at hand with its kind. -/
def number (bytes : List UInt8) : Option (String × Nat) :=
  let longer (best : Option (String × Nat)) (entry : String × Option Nat) :=
    match best, entry.2 with
    | none, some n => some (entry.1, n)
    | some (kind, n), some m => if n < m then some (entry.1, m) else some (kind, n)
    | best, none => best
  [("int_literal", integer bytes), ("float_literal", floating bytes),
    ("imaginary_literal", imaginary bytes)].foldl longer none

/-! ## Words, strings and comments -/

/-- The number of bytes of name characters at hand, `skip` bytes of the current one left. -/
def wordTail : (skip : Nat) → List UInt8 → Nat
  | _, [] => 0
  | skip + 1, _ :: rest => 1 + wordTail skip rest
  | 0, lead :: rest =>
    match Text.Utf8.head lead rest with
    | (some c, extra) => if Text.isIdentifierPart c then 1 + wordTail extra rest else 0
    | (none, _) => 0

/-- Whether at least `count` hexadecimal digits are at hand. -/
def hexAhead (count : Nat) (bytes : List UInt8) : Bool :=
  (bytes.take count).length == count && (bytes.take count).all isHex

/-- Whether an escape may start with the bytes after a backslash. -/
def escapeAhead : List UInt8 → Bool
  | [] => false
  | b :: rest =>
    if b == 0 then false
    else if isByte 'x' b then hexAhead 2 rest
    else if isByte 'u' b then hexAhead 4 rest
    else if isByte 'U' b then hexAhead 8 rest
    else true

/-- The length of an interpreted string after its opening quote, `count` bytes of it read;
`escaped` tells that a backslash stands before the next byte. -/
def stringTail : (count : Nat) → (escaped : Bool) → List UInt8 → Option Nat
  | _, _, [] => none
  | count, true, _ :: rest => stringTail (count + 1) false rest
  | count, false, b :: rest =>
    if isByte '"' b then some (count + 1)
    else if b == 0 || isByte '\n' b then none
    else if isByte '\\' b then
      if escapeAhead rest then stringTail (count + 1) true rest else none
    else stringTail (count + 1) false rest

/-- The length of a text up to and including the byte `mark`, `count` bytes of it read. -/
def tailUpTo (mark : UInt8) : (count : Nat) → List UInt8 → Option Nat
  | _, [] => none
  | count, b :: rest =>
    if b == mark then some (count + 1) else if b == 0 then none else tailUpTo mark (count + 1) rest

/-- The length of a character literal after its opening quote. -/
def runeTail : List UInt8 → Option Nat
  | [] => none
  | b :: rest =>
    if b == 0 || isByte '\'' b then none
    else if isByte '\\' b then
      let escape? : Option Nat :=
        match rest with
        | [] => none
        | c :: more =>
          if isByte 'x' c then if hexAhead 2 more then some 3 else none
          else if isByte 'u' c then if hexAhead 4 more then some 5 else none
          else if isByte 'U' c then if hexAhead 8 more then some 9 else none
          else if ['a', 'b', 'f', 'n', 'r', 't', 'v', '\\', '\'', '"'].any (isByte · c) then some 1
          else if (rest.take 3).length == 3 && (rest.take 3).all isOctal then some 3
          else none
      match escape? with
      | none => none
      | some n => andThen (fun _ => some n) (oneOf ['\'']) rest |>.map (1 + ·)
    else
      let extra := (Text.Utf8.head b rest).2
      andThen (fun _ => some extra) (oneOf ['\'']) rest |>.map (1 + ·)

/-- The length of a comment to the end of the line, after its marks. -/
def lineTail (bytes : List UInt8) : Nat :=
  (bytes.takeWhile fun b => !(isByte '\n' b || b == 0)).length

/-- The length of a bracketed comment after its opening marks, `count` bytes of it read. -/
def blockTail : (count : Nat) → List UInt8 → Option Nat
  | _, [] => none
  | _, [_] => none
  | count, b :: c :: rest =>
    if isByte '*' b && isByte '/' c then some (count + 2)
    else if b == 0 then none
    else blockTail (count + 1) (c :: rest)

/-! ## The next lexeme -/

/-- What the bytes at hand start with; lengths are those of what follows the first byte. -/
inductive Lexeme where
  | space (extra : Nat)
  | comment (extra : Nat)
  | token (kind : TokenKind) (extra : Nat)
  | bad

/-- The punctuation mark at hand. -/
def punctuation? (bytes : List UInt8) : Option String :=
  let ahead := (bytes.take 3).map fun b => Char.ofNat b.toNat
  punctuation.find? fun mark => mark.toList.isPrefixOf ahead

/-- A name or keyword of the given text. -/
def wordKind (text : String) : TokenKind :=
  if keywords.contains text then .mark text else .word text

/-- The lexeme at hand. -/
def lexeme (lead : UInt8) (rest : List UInt8) : Lexeme :=
  let literal (kind : String) : Option Nat → Lexeme
    | some n => .token (.literal kind) n
    | none => .bad
  if lead < 0x80 then
    let c := Char.ofNat lead.toNat
    if isSpace c then .space 0
    else if Text.isIdentifierStart c then
      let extra := wordTail 0 rest
      .token (wordKind (String.ofList (Text.Utf8.decode (lead :: rest.take extra)))) extra
    else if c = '"' then literal "interpreted_string_literal" (stringTail 0 false rest)
    else if lead = 0x60 then literal "raw_string_literal" (tailUpTo 0x60 0 rest)
    else if c = '\'' then literal "rune_literal" (runeTail rest)
    else if c = '/' && (oneOf ['/'] rest).isSome then .comment (1 + lineTail (rest.drop 1))
    else if c = '/' && (oneOf ['*'] rest).isSome then
      match blockTail 0 (rest.drop 1) with
      | some n => .comment (1 + n)
      | none => .bad
    else
      match number (lead :: rest), punctuation? (lead :: rest) with
      | some (kind, n), _ => .token (.literal kind) (n - 1)
      | none, some mark => .token (.mark mark) (mark.length - 1)
      | none, none => .bad
  else
    match Text.Utf8.head lead rest with
    | (none, _) => .bad
    | (some c, extra) =>
      if isSpace c then .space extra
      else if Text.isIdentifierStart c then
        let length := wordTail extra rest
        .token (wordKind (String.ofList (Text.Utf8.decode (lead :: rest.take length)))) length
      else .bad

end Token

/-- The place after some bytes. -/
def Cursor.over (cursor : Cursor) (bytes : List UInt8) : Cursor :=
  bytes.foldl (fun cursor b =>
    if Token.isByte '\n' b then ⟨cursor.offset + 1, cursor.row + 1, 0⟩
    else ⟨cursor.offset + 1, cursor.row, cursor.column + 1⟩) cursor

/-- The tokens of a source, the last of which is the end, and where its first token or comment
starts. -/
structure TokenList where
  tokens : List Token
  start : Cursor

namespace TokenList

/-- Reads the tokens from some place on. The tokens read so far are given last first; `first` is
where the first token or comment starts, if there was one. -/
def scanFrom (cursor : Cursor) (afterBreak : Bool) (first : Option Cursor) (read : List Token)
    (bytes : List UInt8) : Option TokenList :=
  match bytes with
  | [] => some ⟨(⟨.ending, cursor, cursor.offset, afterBreak⟩ :: read).reverse, first.getD cursor⟩
  | lead :: rest =>
    match Token.lexeme lead rest with
    | .bad => none
    | .space extra =>
      scanFrom (cursor.over (lead :: rest.take extra)) (afterBreak || Token.isByte '\n' lead) first
        read (rest.drop extra)
    | .comment extra =>
      scanFrom (cursor.over (lead :: rest.take extra)) afterBreak (some (first.getD cursor)) read
        (rest.drop extra)
    | .token kind extra =>
      let after := cursor.over (lead :: rest.take extra)
      scanFrom after false (some (first.getD cursor))
        (⟨kind, cursor, after.offset, afterBreak⟩ :: read)
        (rest.drop extra)
termination_by bytes.length
decreasing_by all_goals simp only [List.length_drop, List.length_cons]; omega

/-- Reads the tokens of a source; a byte order mark at its start is skipped. -/
def scan (bytes : List UInt8) : Option TokenList :=
  match bytes with
  | 0xEF :: 0xBB :: 0xBF :: rest => scanFrom ⟨3, 0, 3⟩ false none [] rest
  | _ => scanFrom {} false none [] bytes

end TokenList

end AssetRefs.Go
