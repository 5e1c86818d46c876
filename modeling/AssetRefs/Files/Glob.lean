import AssetRefs.Files.Route

/-! # Wildcard patterns

In a pattern, `*` stands for any text, `?` for any character, and `[...]` for one of a set of
characters. A path matches a pattern as a whole, where `*` and `?` stand for slashes too, or its
last components match those of the pattern one by one.
-/

namespace AssetRefs

/-- A set of characters, given by ranges, or everything but those. -/
structure CharSet where
  negated : Bool
  ranges : List (Char × Char)
deriving DecidableEq, Repr

/-- Whether a character is in the set. -/
def CharSet.contains (set : CharSet) (c : Char) : Bool :=
  set.ranges.any (fun range => range.1 ≤ c && c ≤ range.2) != set.negated

/-- One item of a pattern. -/
inductive GlobItem where
  /-- Any text. -/
  | any
  /-- One character of a set. -/
  | one (set : CharSet)
deriving DecidableEq, Repr

namespace Glob

/-- The set of all characters. -/
def everything : CharSet := ⟨true, []⟩

/-- The set of one character. -/
def single (c : Char) : CharSet := ⟨false, [(c, c)]⟩

/-- The position of the first hyphen from a position on. -/
def hyphenFrom (start : Nat) (chars : List Char) : Option Nat :=
  ((chars.drop start).findIdx? (· == '-')).map (start + ·)

/-- Cuts the text of a set at the hyphens that make ranges: the first one from `start` on, and then
each first one that leaves two characters between it and the one before. A hyphen at the end makes
no range. -/
def chunks : (fuel start : Nat) → List Char → List (List Char)
  | 0, _, chars => [chars]
  | fuel + 1, start, chars =>
    match hyphenFrom start chars with
    | none => [chars]
    | some k =>
      match chunks fuel 2 (chars.drop (k + 1)) with
      | [[]] => [chars.take k ++ ['-']]
      | more => chars.take k :: more

/-- Drops the ranges whose ends are reversed, with both ends. -/
def dropReversed : List (List Char) → List (List Char)
  | [] => []
  | first :: rest =>
    match dropReversed rest with
    | [] => [first]
    | second :: more =>
      match first.getLast?, second.head? with
      | some low, some high =>
        if high < low then (first.dropLast ++ second.tail) :: more else first :: second :: more
      | _, _ => first :: second :: more

/-- The ranges of chunks: from the last character of one to the first of the next; all other
characters stand for themselves. -/
def rangesOf : List (List Char) → List (Char × Char)
  | [] => []
  | [last] => last.map fun c => (c, c)
  | first :: second :: more =>
    match first.getLast?, second with
    | some low, high :: others =>
      (first.dropLast.map fun c => (c, c)) ++ (low, high) :: rangesOf (others :: more)
    | _, _ => (first.map fun c => (c, c)) ++ rangesOf (second :: more)
termination_by chunks => chunks.length

/-- The set of the characters between brackets. -/
def setOf (chars : List Char) : CharSet :=
  let start := if chars.head? = some '!' then 2 else 1
  let parts := dropReversed (chunks chars.length start chars)
  match parts with
  | ('!' :: first) :: more => ⟨true, rangesOf (first :: more)⟩
  | parts => ⟨false, rangesOf parts⟩

/-- Cuts a text after an opening bracket at the closing one. A bracket right at the start, or after
a `!` there, is not the closing one. -/
def bracketed? (chars : List Char) : Option (List Char × List Char) :=
  let lead := if chars.head? = some '!' then 1 else 0
  let lead := if (chars.drop lead).head? = some ']' then lead + 1 else lead
  let inner := (chars.drop lead).takeWhile (· != ']')
  match (chars.drop lead).dropWhile (· != ']') with
  | [] => none
  | _ :: rest => some (chars.take lead ++ inner, rest)

/-- The items of a pattern; an opening bracket without a closing one stands for itself. `fuel` is
at least the length of the pattern. -/
def itemsOf : (fuel : Nat) → List Char → List GlobItem
  | 0, _ => []
  | _, [] => []
  | fuel + 1, c :: rest =>
    if c = '*' then .any :: itemsOf fuel rest
    else if c = '?' then .one everything :: itemsOf fuel rest
    else if c = '[' then
      match bracketed? rest with
      | some (inner, after) => .one (setOf inner) :: itemsOf fuel after
      | none => .one (single '[') :: itemsOf fuel rest
    else .one (single c) :: itemsOf fuel rest

/-- A text and all that is left of it, longest first. -/
def suffixes : List Char → List (List Char)
  | [] => [[]]
  | c :: rest => (c :: rest) :: suffixes rest

/-- What may be left of a text after an item, given what may be left before it, longest first. -/
def advance (left : List (List Char)) : GlobItem → List (List Char)
  | .any =>
    match left with
    | [] => []
    | longest :: _ => suffixes longest
  | .one set => left.filterMap fun
    | [] => none
    | c :: rest => if set.contains c then some rest else none

/-- Whether a text as a whole matches a pattern. -/
def matchesText (pattern text : String) : Bool :=
  ((itemsOf pattern.length pattern.toList).foldl advance [text.toList]).any List.isEmpty

/-- Whether the last components of a route match those of a pattern. There is no answer if the
pattern has no component. -/
def matchesEnd? (pattern path : Route) : Option Bool :=
  let wanted := pattern.steps
  let given := path.steps
  if wanted.isEmpty then none
  else if pattern.root != "" then
    some (pattern.root == path.root && wanted.length == given.length &&
      (wanted.zip given).tail.all fun (part, text) => matchesText part text)
  else
    some (wanted.length ≤ given.length &&
      (wanted.reverse.zip given.reverse).all fun (part, text) => matchesText part text)

/-- Whether a path matches one of several patterns, which are tried in order. There is no answer if
a pattern without components is tried and does not match the whole path. -/
def matchesAny? (path : String) : List String → Option Bool
  | [] => some false
  | pattern :: rest =>
    if matchesText pattern path then some true
    else match matchesEnd? (Route.ofString pattern) (Route.ofString path) with
      | none => none
      | some true => some true
      | some false => matchesAny? path rest

end Glob

end AssetRefs
