import AssetRefs.Text.Blank
import AssetRefs.Yaml.Node

/-! # YAML values

What a document means, as far as settings need it: texts, truth values, lists and mappings are kept,
and of everything else only whether it counts as empty.
-/

namespace AssetRefs.Yaml

/-- A value. -/
inductive Value where
  | null
  | bool (value : Bool)
  | text (value : String)
  /-- A number, a date, bytes or a set, which may be zero or empty. -/
  | other (isEmpty : Bool)
  | list (items : List Value)
  | mapping (entries : List (Value × Value))
deriving Inhabited, Repr

namespace Value

/-- Whether a value counts as nothing. -/
def isEmpty : Value → Bool
  | null => true
  | bool value => !value
  | text value => value.isEmpty
  | other isEmpty => isEmpty
  | list items => items.isEmpty
  | mapping entries => entries.isEmpty

/-- Whether a value can be a key. -/
def isKey : Value → Bool
  | list _ | mapping _ => false
  | _ => true

end Value

/-! ## Merged mappings -/

namespace Node

/-- The entries of a mapping. A collection around the node adds none. -/
def entries? : Node → Option (List (Node × Node))
  | mapping _ entries => some entries
  | cycle => some []
  | _ => none

/-- The entries of mappings that are merged into another one; of several, an earlier one takes
precedence, so it comes later. -/
def merging : Node → Except YamlError (List (Node × Node))
  | sequence _ items =>
    match items.mapM entries? with
    | some parts => .ok parts.reverse.flatten
    | none => .error .malformed
  | node =>
    match node.entries? with
    | some entries => .ok entries
    | none => .error .malformed

/-- Puts an entry, whose node has been merged, in front of merged and other entries. -/
def addEntry (key value : Node) (rest : List (Node × Node) × List (Node × Node)) :
    Except YamlError (List (Node × Node) × List (Node × Node)) :=
  match key with
  | scalar tag text =>
    if tag = standard ++ "merge" then
      (merging value).map fun entries => (entries ++ rest.1, rest.2)
    else if tag = standard ++ "value" then
      .ok (rest.1, (scalar (standard ++ "str") text, value) :: rest.2)
    else .ok (rest.1, (key, value) :: rest.2)
  | key => .ok (rest.1, (key, value) :: rest.2)

mutual

/-- Replaces merge keys by the entries of the mappings they stand for, which come first. -/
def merged : Node → Except YamlError Node
  | scalar tag text => .ok (scalar tag text)
  | sequence tag items => (mergedItems items).map (sequence tag)
  | mapping tag entries =>
    (mergedEntries entries).map fun (first, rest) => mapping tag (first ++ rest)
  | cycle => .ok cycle

/-- Merges several nodes. -/
def mergedItems : List Node → Except YamlError (List Node)
  | [] => .ok []
  | item :: rest =>
    match merged item, mergedItems rest with
    | .ok item, .ok rest => .ok (item :: rest)
    | .error error, _ => .error error
    | _, .error error => .error error

/-- The entries to be merged, and the other ones. -/
def mergedEntries :
    List (Node × Node) → Except YamlError (List (Node × Node) × List (Node × Node))
  | [] => .ok ([], [])
  | (key, value) :: rest =>
    match merged key, merged value, mergedEntries rest with
    | .ok key, .ok value, .ok rest => addEntry key value rest
    | .error error, _, _ => .error error
    | _, .error error, _ => .error error
    | _, _, .error error => .error error

end

end Node

/-! ## Scalars -/

/-- Whether the digits are digits of a base. -/
def areDigits (base : Nat) (digits : List Char) : Bool :=
  !digits.isEmpty && digits.all fun c => isHexDigit c && hexValue c < base

/-- The letter that marks numbers of a base. -/
def baseMark? : Nat → Option Char
  | 2 => some 'b'
  | 8 => some 'o'
  | 16 => some 'x'
  | _ => none

/-- The digits of a number without the mark of its base. -/
def unmarked (base : Nat) : List Char → List Char
  | '0' :: c :: rest => if baseMark? base = some c.toLower then rest else '0' :: c :: rest
  | digits => digits

/-- The integer that a text spells, perhaps with a sign. -/
def readInteger? (base : Nat) (text : List Char) : Option Int :=
  let digits := unmarked base (unsigned text)
  if areDigits base digits then
    let size : Int := numeral base digits
    some (if text.head? = some '-' then -size else size)
  else none

/-- The number that digits to base sixty spell, the first one first. -/
def sexagesimal (digits : List Int) : Int := digits.foldl (fun sum digit => sum * 60 + digit) 0

/-- The integer that a text without gaps spells after its sign. The base shows in its first
characters; there may be blank space around the digits. -/
def sizeOf? : List Char → Option Int
  | [] => none
  | '0' :: 'b' :: digits => readInteger? 2 (Text.trim digits)
  | '0' :: 'x' :: digits => readInteger? 16 (Text.trim digits)
  | '0' :: rest => if rest.isEmpty then some 0 else readInteger? 8 (Text.trim ('0' :: rest))
  | body => ((colonPieces body).mapM fun piece => readInteger? 10 (Text.trim piece)).map sexagesimal

/-- The value of an integer. -/
def integerValue (text : String) : Except YamlError Value :=
  match sizeOf? (unsigned (text.toList.filter (· != '_'))) with
  | some size => .ok (.other (size == 0))
  | none => .error .outOfRange

/-- Whether a decimal number is too small to differ from zero: it is at most half of the least
number that there is. -/
def isTiny (digits : Nat) (exponent : Int) : Bool :=
  digits == 0 || (exponent < 0 &&
    (400 + (toString digits).length < exponent.natAbs ||
      digits * Nat.pow 2 1075 ≤ Nat.pow 10 exponent.natAbs))

/-- Whether a text spells zero as a decimal number, perhaps with a sign, a point, an exponent and
blank space around it. There is no answer if it spells no number. -/
def readsZero? (text : List Char) : Option Bool :=
  let body := (unsigned (Text.trim text)).map Char.toLower
  let whole := body.takeWhile isDigit
  let rest := body.dropWhile isDigit
  let (fraction, rest) := match rest with
    | '.' :: rest => (rest.takeWhile isDigit, rest.dropWhile isDigit)
    | rest => ([], rest)
  let exponent : Option Int := match rest with
    | [] => some 0
    | 'e' :: rest => readInteger? 10 rest
    | _ => none
  if ["inf", "infinity", "nan"].contains (String.ofList body) then some false
  else if whole.isEmpty && fraction.isEmpty then none
  else exponent.map fun exponent => isTiny (numeral 10 (whole ++ fraction))
    (exponent - fraction.length)

/-- The value of a number with a point. -/
def floatValue (text : String) : Except YamlError Value :=
  let body := (unsigned (text.toList.filter (· != '_'))).map Char.toLower
  let zero := if [".inf", ".nan"].contains (String.ofList body) then some false
    else ((colonPieces body).mapM readsZero?).map fun pieces => pieces.all (· == true)
  match zero with
  | some zero => .ok (.other zero)
  | none => .error .outOfRange

/-- The number of bytes in a text to base 64, of which `count` digits and then `pads` padding marks
have been read. Characters that are no digits are skipped; the padding has to fit. -/
def base64Size : (count pads : Nat) → List Char → Option Nat
  | count, _, [] => if count % 4 = 0 then some (count * 3 / 4) else none
  | count, pads, c :: rest =>
    if c = '=' then
      if 2 ≤ count % 4 then
        if 4 ≤ count % 4 + (pads + 1) then some (count * 3 / 4)
        else base64Size count (pads + 1) rest
      else base64Size count pads rest
    else if isDigit c || ('A' ≤ c && c ≤ 'Z') || ('a' ≤ c && c ≤ 'z') || c == '+' || c == '/' then
      base64Size (count + 1) 0 rest
    else if c.toNat < 0x80 then base64Size count pads rest
    else none

/-- The value of a scalar with a tag. -/
def scalarValue (tag text : String) : Except YamlError Value :=
  if tag = standard ++ "str" then .ok (.text text)
  else if tag = standard ++ "null" then .ok .null
  else if tag = standard ++ "bool" then
    let lower := String.ofList (text.toList.map Char.toLower)
    if truths.contains lower then .ok (.bool true)
    else if falsehoods.contains lower then .ok (.bool false)
    else .error .outOfRange
  else if tag = standard ++ "int" then integerValue text
  else if tag = standard ++ "float" then floatValue text
  else if tag = standard ++ "timestamp" then
    match moment? text.toList with
    | some moment => if moment.exists then .ok (.other false) else .error .outOfRange
    | none => .error .outOfRange
  else if tag = standard ++ "binary" then
    match base64Size 0 0 text.toList with
    | some size => .ok (.other (size == 0))
    | none => .error .malformed
  else .error .malformed

/-! ## Documents -/

/-- The value of a list of pairs: every item is a mapping of one entry. -/
def pairsValue (items : List Value) : Except YamlError Value :=
  let isPair : Value → Bool
    | .mapping [_] => true
    | _ => false
  if items.all isPair then .ok (.list (items.map fun _ => .other false)) else .error .malformed

/-- The value of a sequence with a tag. -/
def sequenceValue (tag : String) (items : List Value) : Except YamlError Value :=
  if tag = standard ++ "seq" then .ok (.list items)
  else if tag = standard ++ "omap" || tag = standard ++ "pairs" then pairsValue items
  else .error .malformed

/-- The value of a mapping with a tag. -/
def mappingValue (tag : String) (entries : List (Value × Value)) : Except YamlError Value :=
  if !entries.all (·.1.isKey) then .error .malformed
  else if tag = standard ++ "map" then .ok (.mapping entries)
  else if tag = standard ++ "set" then .ok (.other entries.isEmpty)
  else .error .malformed

namespace Node

mutual

/-- The value of a node without merge keys. -/
def value : Node → Except YamlError Value
  | scalar tag text => scalarValue tag text
  | sequence tag items =>
    match values items with
    | .ok items => sequenceValue tag items
    | .error error => .error error
  | mapping tag entries =>
    match entryValues entries with
    | .ok entries => mappingValue tag entries
    | .error error => .error error
  | cycle => .ok (.list [.null])

/-- The values of several nodes. -/
def values : List Node → Except YamlError (List Value)
  | [] => .ok []
  | item :: rest =>
    match value item, values rest with
    | .ok item, .ok rest => .ok (item :: rest)
    | .error error, _ => .error error
    | _, .error error => .error error

/-- The values of entries. -/
def entryValues : List (Node × Node) → Except YamlError (List (Value × Value))
  | [] => .ok []
  | (key, item) :: rest =>
    match value key, value item, entryValues rest with
    | .ok key, .ok item, .ok rest => .ok ((key, item) :: rest)
    | .error error, _, _ => .error error
    | _, .error error, _ => .error error
    | _, _, .error error => .error error

end

end Node

/-- A reader of YAML texts. -/
abbrev Loader := List Char → Except YamlError Value

/-- The value of the only document in a text; nothing counts as null. -/
def load : Loader := fun text =>
  match composed text with
  | .error error => .error error
  | .ok none => .ok .null
  | .ok (some root) =>
    match root.merged with
    | .error error => .error error
    | .ok root => root.value

end AssetRefs.Yaml
