import AssetRefs.Text.Utf8
import AssetRefs.Yaml.Cursor

/-! # Scalars in a YAML text

The text of a scalar as it is written in the four styles: plain, quoted in two ways, and as a block.
Line breaks inside a scalar are folded to spaces, except in literal blocks. The loops take fuel; the
length of the text is enough.
-/

namespace AssetRefs.Yaml

/-! ## Quoted scalars -/

/-- The characters that an escape of one letter stands for. -/
def escapes : List (Char × Nat) :=
  [('0', 0), ('a', 7), ('b', 8), ('t', 9), ('\t', 9), ('n', 10), ('v', 11), ('f', 12), ('r', 13),
    ('e', 27), (' ', 32), ('"', 34), ('\\', 92), ('/', 47), ('N', 0x85), ('_', 0xA0),
    ('L', 0x2028), ('P', 0x2029)]

/-- The number of hexadecimal digits after an escape letter. -/
def escapeWidth? (c : Char) : Option Nat :=
  if c = 'x' then some 2 else if c = 'u' then some 4 else if c = 'U' then some 8 else none

/-- The line breaks of empty lines in a quoted scalar; a document marker must not come up. -/
def quotedBreaks : (fuel : Nat) → Cursor → Except YamlError (List Char × Cursor)
  | 0, _ => .error .malformed
  | fuel + 1, cursor =>
    if cursor.atSeparator then .error .malformed
    else
      let cursor := cursor.skip fun c => c == ' ' || c == '\t'
      match cursor.lineBreak? with
      | some (c, cursor) => (quotedBreaks fuel cursor).map fun (more, cursor) => (c :: more, cursor)
      | none => .ok ([], cursor)

/-- The blanks and line breaks between words in a quoted scalar. -/
def quotedSpaces (fuel : Nat) (cursor : Cursor) : Except YamlError (List Char × Cursor) :=
  let blanks := cursor.span fun c => c == ' ' || c == '\t'
  let cursor := cursor.advance blanks.length
  match cursor.lineBreak? with
  | some (c, cursor) =>
    (quotedBreaks fuel cursor).map fun (breaks, cursor) =>
      (if c != '\n' then c :: breaks else if breaks.isEmpty then [' '] else breaks, cursor)
  | none => if cursor.rest.isEmpty then .error .malformed else .ok (blanks, cursor)

/-- The character that an escape denotes, after the backslash. -/
def escaped (cursor : Cursor) (c : Char) : Except YamlError (List Char × Cursor) :=
  match escapes.find? (·.1 == c) with
  | some (_, code) => .ok ([Char.ofNat code], cursor.next)
  | none =>
    match escapeWidth? c with
    | none => .error .malformed
    | some width =>
      let cursor := cursor.next
      let digits := cursor.rest.take width
      if digits.length == width && digits.all isHexDigit then
        if numeral 16 digits < 0x110000 then
          .ok ([Char.ofNat (numeral 16 digits)], cursor.advance width)
        else .error .outOfRange
      else .error .malformed

/-- The rest of a quoted scalar up to and including its closing quote. -/
def quotedTail (double : Bool) : (fuel : Nat) → Cursor → Except YamlError (List Char × Cursor)
  | 0, _ => .error .malformed
  | fuel + 1, cursor =>
    let more (front : List Char) (cursor : Cursor) :=
      (quotedTail double fuel cursor).map fun (text, cursor) => (front ++ text, cursor)
    match cursor.peek with
    | none => .error .malformed
    | some c =>
      if c = (if double then '"' else '\'') then
        if !double && cursor.peek 1 = some '\'' then more ['\''] (cursor.advance 2)
        else .ok ([], cursor.next)
      else if c = ' ' || c = '\t' || isBreak c then
        match quotedSpaces (fuel + 1) cursor with
        | .ok (front, cursor) => more front cursor
        | .error error => .error error
      else if double && c = '\\' then
        let cursor := cursor.next
        match cursor.peek with
        | none => .error .malformed
        | some c =>
          if isBreak c then
            match quotedBreaks (fuel + 1) cursor.next with
            | .ok (front, cursor) => more front cursor
            | .error error => .error error
          else
            match escaped cursor c with
            | .ok (front, cursor) => more front cursor
            | .error error => .error error
      else more [c] cursor.next

/-! ## Plain scalars -/

/-- The characters that delimit plain scalars in flow collections. -/
def flowMarks : List Char := [',', '[', ']', Char.ofNat 0x7B, Char.ofNat 0x7D]

/-- The characters of a plain scalar up to a blank or a delimiter. -/
def plainWord (flow : Bool) : List Char → List Char
  | [] => []
  | c :: rest =>
    let colonEnds := endsToken rest.head? || (flow && rest.head?.any flowMarks.contains)
    if endsToken (some c) || (c = ':' && colonEnds) || (flow && (c = '?' || flowMarks.contains c))
    then []
    else c :: plainWord flow rest

/-- The line breaks of empty lines in a plain scalar, blanks dropped; nothing if a document marker
comes up. -/
def plainBreaks : (fuel : Nat) → Cursor → Option (List Char) × Cursor
  | 0, cursor => (some [], cursor)
  | fuel + 1, cursor =>
    match cursor.lineBreak? with
    | some (c, cursor) =>
      if cursor.atSeparator then (none, cursor)
      else
        let (breaks, cursor) := plainBreaks fuel cursor
        (breaks.map (c :: ·), cursor)
    | none =>
      if cursor.peek = some ' ' then plainBreaks fuel cursor.next else (some [], cursor)

/-- The blanks and line breaks after a word of a plain scalar, whether there was a line break, and
where the next word starts. There are no blanks if the scalar ends here. -/
def plainSpaces (fuel : Nat) (cursor : Cursor) : List Char × Bool × Cursor :=
  let blanks := cursor.span (· == ' ')
  let cursor := cursor.advance blanks.length
  match cursor.lineBreak? with
  | none => (blanks, false, cursor)
  | some (c, cursor) =>
    if cursor.atSeparator then ([], true, cursor)
    else
      match plainBreaks fuel cursor with
      | (none, cursor) => ([], true, cursor)
      | (some breaks, cursor) =>
        (if c != '\n' then c :: breaks else if breaks.isEmpty then [' '] else breaks, true, cursor)

/-- A plain scalar: its text, whether a line break was the last thing taken, and the place after
it. The blanks before the next word are given. -/
def plainTail (flow : Bool) (indent : Nat) :
    (fuel : Nat) → (blanks : List Char) → (broke : Bool) → Cursor → List Char × Bool × Cursor
  | 0, _, broke, cursor => ([], broke, cursor)
  | fuel + 1, blanks, broke, cursor =>
    let word := if cursor.peek = some '#' then [] else plainWord flow cursor.rest
    if word.isEmpty then ([], broke, cursor)
    else
      let (spaces, broke, after) := plainSpaces fuel (cursor.advance word.length)
      if spaces.isEmpty || after.peek = some '#' || (!flow && after.column < indent) then
        (blanks ++ word, broke, after)
      else
        let (text, broke, after) := plainTail flow indent fuel spaces broke after
        (blanks ++ word ++ text, broke, after)

/-! ## Block scalars -/

/-- What becomes of the line breaks at the end of a block scalar. -/
inductive Chomping where
  | strip | clip | keep
deriving DecidableEq, Repr

/-- The chomping that a character asks for. -/
def chomping? : Option Char → Option Chomping
  | some '+' => some .keep
  | some '-' => some .strip
  | _ => none

/-- The header of a block scalar: chomping, and the indentation if it is given. -/
def blockHeader (cursor : Cursor) : Except YamlError (Chomping × Option Nat × Cursor) :=
  let increment (cursor : Cursor) : Option Nat × Cursor :=
    match cursor.peek with
    | some c => if isDigit c then (some (hexValue c), cursor.next) else (none, cursor)
    | none => (none, cursor)
  let (chomping, width, cursor) :=
    match chomping? cursor.peek with
    | some chomping =>
      let (width, cursor) := increment cursor.next
      (chomping, width, cursor)
    | none =>
      let (width, cursor) := increment cursor
      match width, chomping? cursor.peek with
      | some _, some chomping => (chomping, width, cursor.next)
      | _, _ => (.clip, width, cursor)
  if width = some 0 || !endsWord cursor.peek then .error .malformed
  else
    let cursor := cursor.skipComment
    if endsLine cursor.peek then .ok (chomping, width, cursor.skipBreak) else .error .malformed

/-- The empty lines at the start of a block scalar and the largest column seen. -/
def blockStart : (fuel column : Nat) → Cursor → List Char × Nat × Cursor
  | 0, column, cursor => ([], column, cursor)
  | fuel + 1, column, cursor =>
    match cursor.lineBreak? with
    | some (c, cursor) =>
      let (breaks, column, cursor) := blockStart fuel column cursor
      (c :: breaks, column, cursor)
    | none =>
      if cursor.peek = some ' ' then
        blockStart fuel (max column cursor.next.column) cursor.next
      else ([], column, cursor)

/-- Goes past the spaces of an indentation. -/
def skipIndent (indent : Nat) (cursor : Cursor) : Cursor :=
  cursor.advance (min (indent - cursor.column) (cursor.span (· == ' ')).length)

/-- The empty lines inside a block scalar. -/
def blockBreaks (indent : Nat) : (fuel : Nat) → Cursor → List Char × Cursor
  | 0, cursor => ([], cursor)
  | fuel + 1, cursor =>
    let cursor := skipIndent indent cursor
    match cursor.lineBreak? with
    | some (c, cursor) =>
      let (breaks, cursor) := blockBreaks indent fuel cursor
      (c :: breaks, cursor)
    | none => ([], cursor)

/-- Whether a line that starts here may be folded. -/
def startsFolded (cursor : Cursor) : Bool :=
  !(cursor.peek = some ' ' || cursor.peek = some '\t')

/-- The lines of a block scalar. The empty lines before the next line are given; the result has the
last line break and the empty lines after it. -/
def blockLines (folded : Bool) (indent : Nat) :
    (fuel : Nat) → (breaks : List Char) → Cursor → List Char × List Char × List Char × Cursor
  | 0, breaks, cursor => ([], [], breaks, cursor)
  | fuel + 1, breaks, cursor =>
    if cursor.column = indent && !cursor.rest.isEmpty then
      let foldable := startsFolded cursor
      let line := cursor.span fun c => !isBreak c
      let cursor := cursor.advance line.length
      let (lineBreak, cursor) := match cursor.lineBreak? with
        | some (c, cursor) => ([c], cursor)
        | none => ([], cursor)
      let (after, cursor) := blockBreaks indent (fuel + 1) cursor
      if cursor.column = indent && !cursor.rest.isEmpty then
        let joint :=
          if folded && lineBreak = ['\n'] && foldable && startsFolded cursor then
            if after.isEmpty then [' '] else []
          else lineBreak
        let (text, last, tail, cursor) := blockLines folded indent fuel after cursor
        (breaks ++ line ++ joint ++ text, last, tail, cursor)
      else (breaks ++ line, lineBreak, after, cursor)
    else ([], [], breaks, cursor)

/-- A block scalar after its indicator. `least` is the smallest indentation it may have. -/
def blockScalar (folded : Bool) (least : Nat) (cursor : Cursor) :
    Except YamlError (List Char × Cursor) :=
  match blockHeader cursor with
  | .error error => .error error
  | .ok (chomping, width, cursor) =>
    let fuel := cursor.rest.length + 1
    let (breaks, indent, cursor) := match width with
      | none =>
        let (breaks, column, cursor) := blockStart fuel 0 cursor
        (breaks, max least column, cursor)
      | some width =>
        let indent := least + width - 1
        let (breaks, cursor) := blockBreaks indent fuel cursor
        (breaks, indent, cursor)
    let (text, last, tail, cursor) := blockLines folded indent fuel breaks cursor
    .ok (match chomping with
      | .strip => (text, cursor)
      | .clip => (text ++ last, cursor)
      | .keep => (text ++ last ++ tail, cursor))

/-! ## Tags -/

/-- A character of a tag. -/
def isTagChar (c : Char) : Bool :=
  isNameChar c || [';', '/', '?', ':', '@', '&', '=', '+', '$', ',', '.', '!', '~', '*', '\'', '(',
    ')', '[', ']'].contains c

/-- The bytes of percent escapes. -/
def percentBytes : List Char → List UInt8
  | '%' :: a :: b :: rest =>
    if isHexDigit a && isHexDigit b then
      UInt8.ofNat (hexValue a * 16 + hexValue b) :: percentBytes rest
    else []
  | _ => []

/-- The text of a tag, with percent escapes resolved. -/
def tagText : (fuel : Nat) → Cursor → Except YamlError (List Char × Cursor)
  | 0, cursor => .ok ([], cursor)
  | fuel + 1, cursor =>
    let plain := cursor.span isTagChar
    let cursor := cursor.advance plain.length
    if cursor.peek = some '%' then
      let bytes := percentBytes cursor.rest
      let cursor := cursor.advance (3 * bytes.length)
      match Text.Utf8.decode? bytes with
      | none => .error .malformed
      | some text =>
        if bytes.isEmpty || cursor.peek = some '%' then .error .malformed
        else (tagText fuel cursor).map fun (more, cursor) => (plain ++ text ++ more, cursor)
    else .ok (plain, cursor)

/-- The text of a tag, which is not empty. -/
def tagSuffix (cursor : Cursor) : Except YamlError (String × Cursor) :=
  if cursor.peek.any fun c => isTagChar c || c == '%' then
    (tagText (cursor.rest.length + 1) cursor).map fun (text, cursor) => (String.ofList text, cursor)
  else .error .malformed

/-- The handle of a tag: `!`, or a name between two such marks. -/
def tagHandle (cursor : Cursor) : Except YamlError (String × Cursor) :=
  if cursor.peek = some '!' then
    if cursor.peek 1 = some ' ' then .ok ("!", cursor.next)
    else
      let name := cursor.next.span isNameChar
      let after := cursor.advance (name.length + 1)
      if after.peek = some '!' then
        .ok (String.ofList ('!' :: name ++ ['!']), after.next)
      else .error .malformed
  else .error .malformed

/-- A tag: its handle, unless it is written in full, and its suffix. -/
def tag (cursor : Cursor) : Except YamlError (Option String × String × Cursor) :=
  let result : Except YamlError (Option String × String × Cursor) :=
    if cursor.peek 1 = some '<' then
      match tagSuffix (cursor.advance 2) with
      | .ok (suffix, cursor) =>
        if cursor.peek = some '>' then .ok (none, suffix, cursor.next) else .error .malformed
      | .error error => .error error
    else if endsToken (cursor.peek 1) then .ok (none, "!", cursor.next)
    else
      let word := cursor.next.span fun c => !endsWord (some c)
      let handle := if word.contains '!' then tagHandle cursor else .ok ("!", cursor.next)
      handle.bind fun (handle, cursor) =>
        (tagSuffix cursor).map fun (suffix, cursor) => (some handle, suffix, cursor)
  match result with
  | .ok (handle, suffix, cursor) =>
    if endsWord cursor.peek then .ok (handle, suffix, cursor) else .error .malformed
  | .error error => .error error

end AssetRefs.Yaml
