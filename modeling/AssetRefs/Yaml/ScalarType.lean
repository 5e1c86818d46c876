import AssetRefs.Yaml.Cursor

/-! # Types of plain scalars

The type that the text of a plain scalar shows: null, a boolean, a number, a date, one of two
special marks, or just text. Numbers may have underscores in them and may be written with colons, to
base sixty.
-/

namespace AssetRefs.Yaml

/-- The start of the standard tags. -/
def standard : String := "tag:yaml.org,2002:"

/-! ## Numbers -/

/-- The text without a sign. -/
def unsigned : List Char → List Char
  | '-' :: rest => rest
  | '+' :: rest => rest
  | text => text

/-- A digit or an underscore. -/
def isDigitOrGap (c : Char) : Bool := isDigit c || c == '_'

/-- A digit to base sixty: one or two decimal digits below sixty. -/
def isSixtieth : List Char → Bool
  | [c] => isDigit c
  | [b, c] => '0' ≤ b && b ≤ '5' && isDigit c
  | _ => false

/-- The pieces of a text between colons. -/
def colonPieces : List Char → List (List Char)
  | [] => [[]]
  | c :: rest =>
    if c = ':' then [] :: colonPieces rest
    else match colonPieces rest with
      | [] => [[c]]
      | piece :: more => (c :: piece) :: more

/-- Whether a text is a digit and then digits and underscores. -/
def isDigits : List Char → Bool
  | [] => false
  | c :: rest => isDigit c && rest.all isDigitOrGap

/-- Whether a text is a number with digits to base sixty after the first. -/
def isSexagesimal (lead : List Char → Bool) (text : List Char) : Bool :=
  match colonPieces text with
  | first :: second :: more => lead first && (second :: more).all isSixtieth
  | _ => false

/-- Whether a text is a decimal number that does not start with zero. -/
def isPositive : List Char → Bool
  | [] => false
  | c :: rest => '1' ≤ c && c ≤ '9' && rest.all isDigitOrGap

/-- Whether a text is an integer. -/
def isInteger (text : List Char) : Bool :=
  let body := unsigned text
  match body with
  | '0' :: 'b' :: c :: rest => (c :: rest).all fun c => c == '0' || c == '1' || c == '_'
  | '0' :: 'x' :: c :: rest => (c :: rest).all fun c => isHexDigit c || c == '_'
  | '0' :: rest => rest.all fun c => ('0' ≤ c && c ≤ '7') || c == '_'
  | body => isPositive body || isSexagesimal isPositive body

/-- Whether a text is empty or an exponent. -/
def isExponent : List Char → Bool
  | [] => true
  | e :: sign :: c :: rest =>
    (e == 'e' || e == 'E') && (sign == '-' || sign == '+') && (c :: rest).all isDigit
  | _ => false

/-- Whether a text is digits after a point, and perhaps an exponent. -/
def isFraction (text : List Char) : Bool := isExponent (text.dropWhile isDigitOrGap)

/-- Whether a text is a number with a point. -/
def isFloat (text : List Char) : Bool :=
  let body := unsigned text
  let lead := body.takeWhile (· != '.')
  let rest := (body.dropWhile (· != '.')).drop 1
  let pointed := body.contains '.'
  (pointed && isDigits lead && isFraction rest) ||
    (match text with
      | '.' :: c :: rest => isDigit c && isFraction rest
      | _ => false) ||
    (pointed && isSexagesimal isDigits lead && rest.all isDigitOrGap) ||
    [".inf", ".Inf", ".INF"].contains (String.ofList body) ||
    [".nan", ".NaN", ".NAN"].contains (String.ofList text)

/-! ## Dates -/

/-- The parts of a date with time; the offset is in minutes. -/
structure Moment where
  year : Nat
  month : Nat
  day : Nat
  hour : Nat := 0
  minute : Nat := 0
  second : Nat := 0
  offset : Nat := 0
deriving DecidableEq, Repr

/-- Reads a number of at least `least` and at most `most` digits. -/
def digits? (least most : Nat) (text : List Char) : Option (Nat × List Char) :=
  let digits := (text.take most).takeWhile isDigit
  if least ≤ digits.length then some (numeral 10 digits, text.drop digits.length) else none

/-- Reads a character. -/
def char? (c : Char) : List Char → Option (List Char)
  | [] => none
  | d :: rest => if d = c then some rest else none

/-- Reads the offset at the end of a date; nothing else may follow it. -/
def offset? (text : List Char) : Option Nat :=
  match text.dropWhile fun c => c == ' ' || c == '\t' with
  | [] => if text.isEmpty then some 0 else none
  | ['Z'] => some 0
  | sign :: rest =>
    if sign = '-' || sign = '+' then
      match digits? 1 2 rest with
      | some (hours, []) => some (hours * 60)
      | some (hours, ':' :: rest) =>
        match digits? 2 2 rest with
        | some (minutes, []) => some (hours * 60 + minutes)
        | _ => none
      | _ => none
    else none

/-- Reads the time of a date after the blank or letter before it. -/
def time? (text : List Char) : Option (Nat × Nat × Nat × Nat) := do
  let (hour, text) ← digits? 1 2 text
  let (minute, text) ← digits? 2 2 (← char? ':' text)
  let (second, text) ← digits? 2 2 (← char? ':' text)
  let text := match text with
    | '.' :: rest => rest.dropWhile isDigit
    | text => text
  return (hour, minute, second, ← offset? text)

/-- Reads a date: with all digits, or with a time. -/
def moment? (text : List Char) : Option Moment := do
  let (year, text) ← digits? 4 4 text
  let (month, afterMonth) ← digits? 1 2 (← char? '-' text)
  let (day, rest) ← digits? 1 2 (← char? '-' afterMonth)
  match rest with
  | [] => if text.length = 6 then return { year, month, day } else none
  | c :: rest =>
    let rest ← if c = 'T' || c = 't' then some rest
      else if c = ' ' || c = '\t' then some (rest.dropWhile fun c => c == ' ' || c == '\t')
      else none
    let (hour, minute, second, offset) ← time? rest
    return { year, month, day, hour, minute, second, offset }

/-- The number of days of a month. -/
def daysIn (year month : Nat) : Nat :=
  if month = 2 then
    if year % 4 = 0 && (year % 100 != 0 || year % 400 = 0) then 29 else 28
  else if [4, 6, 9, 11].contains month then 30
  else 31

/-- Whether a date exists. -/
def Moment.exists (moment : Moment) : Bool :=
  1 ≤ moment.year && 1 ≤ moment.month && moment.month ≤ 12 && 1 ≤ moment.day &&
    moment.day ≤ daysIn moment.year moment.month && moment.hour < 24 && moment.minute < 60 &&
    moment.second < 60 && moment.offset < 24 * 60

/-! ## Types -/

/-- The texts of what is true. -/
def truths : List String := ["yes", "Yes", "YES", "true", "True", "TRUE", "on", "On", "ON"]

/-- The texts of what is false. -/
def falsehoods : List String := ["no", "No", "NO", "false", "False", "FALSE", "off", "Off", "OFF"]

/-- The name of the type that a text shows. -/
def typeName (text : String) : String :=
  if truths.contains text || falsehoods.contains text then "bool"
  else if isFloat text.toList then "float"
  else if isInteger text.toList then "int"
  else if text = "<<" then "merge"
  else if ["", "~", "null", "Null", "NULL"].contains text then "null"
  else if (moment? text.toList).isSome then "timestamp"
  else if text = "=" then "value"
  else if ["!", "&", "*"].contains text then "yaml"
  else "str"

/-- The tag of a plain scalar. -/
def tagOf (text : String) : String := standard ++ typeName text

end AssetRefs.Yaml
