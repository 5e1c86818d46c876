import AssetRefs.Yaml.Scalar

/-! # YAML tokens

The tokens of a text. Indentation becomes tokens that open and close block collections. Whether a
node is a key shows only at the colon after it; the tokens for the key are then put in where the
node starts, so a place where a key may have started is kept until the line ends.
-/

namespace AssetRefs.Yaml

/-- A token. -/
inductive Token where
  /-- The directive that gives the version of the language. -/
  | version (major : Nat)
  /-- The directive that gives the meaning of a tag handle. -/
  | handle (name meaning : String)
  | otherDirective
  | documentStart
  | documentEnd
  | ending
  | blockSequenceStart
  | blockMappingStart
  | blockEnd
  | flowSequenceStart
  | flowSequenceEnd
  | flowMappingStart
  | flowMappingEnd
  | blockEntry
  | flowEntry
  | key
  | value
  | anchor (name : String)
  /-- A reference to an anchor. -/
  | reference (name : String)
  | tag (handle : Option String) (suffix : String)
  | scalar (text : String) (plain : Bool)
deriving DecidableEq, Repr

/-- A place where a key may have started. -/
structure PossibleKey where
  /-- The number of flow collections around it. -/
  level : Nat
  /-- The number of tokens before it. -/
  position : Nat
  /-- There has to be a key, because a block mapping has no other content. -/
  required : Bool
  index : Nat
  line : Nat
  column : Nat
deriving DecidableEq, Repr

/-- The state of reading tokens. -/
structure Lexer where
  cursor : Cursor
  tokens : List Token := []
  /-- The number of flow collections around the place. -/
  level : Nat := 0
  /-- The columns of the block collections around the place, innermost first. -/
  indents : List Nat := []
  /-- A key may start here. -/
  keyAllowed : Bool := true
  keys : List PossibleKey := []

namespace Lexer

/-! ## Parts of the state -/

/-- Adds a token. -/
def push (lexer : Lexer) (token : Token) : Lexer := { lexer with tokens := lexer.tokens ++ [token] }

/-- Puts a token in before others. -/
def putAt (lexer : Lexer) (position : Nat) (token : Token) : Lexer :=
  { lexer with tokens := lexer.tokens.take position ++ token :: lexer.tokens.drop position }

/-- Whether the place is inside a flow collection. -/
def inFlow (lexer : Lexer) : Bool := lexer.level != 0

/-- The least column of block content. -/
def contentColumn (lexer : Lexer) : Nat :=
  match lexer.indents with
  | [] => 0
  | column :: _ => column + 1

/-- Drops the possible keys that came too far behind: keys are on one line and not too long. -/
def dropStale (lexer : Lexer) : Except YamlError Lexer :=
  let isStale (key : PossibleKey) :=
    key.line != lexer.cursor.line || 1024 < lexer.cursor.index - key.index
  if lexer.keys.any fun key => isStale key && key.required then .error .malformed
  else .ok { lexer with keys := lexer.keys.filter fun key => !isStale key }

/-- Drops the possible key of the current flow collection. -/
def dropKey (lexer : Lexer) : Except YamlError Lexer :=
  if lexer.keys.any fun key => key.level == lexer.level && key.required then .error .malformed
  else .ok { lexer with keys := lexer.keys.filter fun key => key.level != lexer.level }

/-- Notes that a key may start here. -/
def noteKey (lexer : Lexer) : Except YamlError Lexer :=
  if lexer.keyAllowed then
    lexer.dropKey.map fun lexer =>
      let key : PossibleKey :=
        { level := lexer.level, position := lexer.tokens.length,
          required := !lexer.inFlow && lexer.indents.head? = some lexer.cursor.column,
          index := lexer.cursor.index, line := lexer.cursor.line, column := lexer.cursor.column }
      { lexer with keys := key :: lexer.keys }
  else .ok lexer

/-- The block collections that go on at a column, and how many end before it. -/
def unwoundTo (column : Nat) : List Nat → List Nat × Nat
  | [] => ([], 0)
  | indent :: rest =>
    if column < indent then
      let (left, ended) := unwoundTo column rest
      (left, ended + 1)
    else (indent :: rest, 0)

/-- Ends the block collections that do not reach the column. -/
def unwind (lexer : Lexer) (column : Nat) : Lexer :=
  if lexer.inFlow then lexer
  else
    let (indents, ended) := unwoundTo column lexer.indents
    { lexer with indents, tokens := lexer.tokens ++ List.replicate ended .blockEnd }

/-- Ends all block collections. -/
def unwindAll (lexer : Lexer) : Lexer :=
  if lexer.inFlow then lexer
  else
    { lexer with
      indents := []
      tokens := lexer.tokens ++ List.replicate lexer.indents.length .blockEnd }

/-- Whether a block collection at a column is inside the current one. -/
def opensAt (lexer : Lexer) (column : Nat) : Bool := lexer.indents.head?.all (· < column)

/-- Opens a block collection at a column, unless the current one is there; its token is put in at a
position. -/
def openBlock (lexer : Lexer) (column position : Nat) (token : Token) : Lexer :=
  if lexer.opensAt column then
    { lexer.putAt position token with indents := column :: lexer.indents }
  else lexer

/-- Goes past some characters and adds a token. -/
def take (lexer : Lexer) (n : Nat) (token : Token) : Lexer :=
  { lexer.push token with cursor := lexer.cursor.advance n }

/-- Takes a mark of one character, after which a key may start or not; the node before it was no
key. -/
def takeMark (lexer : Lexer) (keyAllowed : Bool) (token : Token) : Except YamlError Lexer :=
  lexer.dropKey.map fun lexer => { lexer.take 1 token with keyAllowed }

/-! ## Tokens -/

/-- Goes past blanks, comments and line breaks. -/
def skipBlanks : (fuel : Nat) → Lexer → Lexer
  | 0, lexer => lexer
  | fuel + 1, lexer =>
    let cursor := lexer.cursor.skipComment
    match cursor.lineBreak? with
    | some (_, cursor) =>
      skipBlanks fuel { lexer with cursor, keyAllowed := lexer.keyAllowed || !lexer.inFlow }
    | none => { lexer with cursor }

/-- The value of a directive after its name. -/
def directiveValue (name : String) (cursor : Cursor) : Except YamlError (Token × Cursor) :=
  if name = "YAML" then
    let cursor := cursor.skipSpaces
    let major := cursor.span isDigit
    let cursor := cursor.advance major.length
    let minor := cursor.next.span isDigit
    let after := cursor.advance (minor.length + 1)
    if !major.isEmpty && cursor.peek = some '.' && !minor.isEmpty && endsWord after.peek then
      .ok (.version (numeral 10 major), after)
    else .error .malformed
  else if name = "TAG" then
    (tagHandle cursor.skipSpaces).bind fun (handle, cursor) =>
      if cursor.peek = some ' ' then
        (tagSuffix cursor.skipSpaces).bind fun (meaning, cursor) =>
          if endsWord cursor.peek then .ok (.handle handle meaning, cursor)
          else .error .malformed
      else .error .malformed
  else .ok (.otherDirective, cursor.skipLine)

/-- A directive. -/
def directive (lexer : Lexer) : Except YamlError Lexer :=
  lexer.unwindAll.dropKey.bind fun lexer =>
    let name := lexer.cursor.next.span isNameChar
    let cursor := lexer.cursor.advance (name.length + 1)
    if name.isEmpty || !endsWord cursor.peek then .error .malformed
    else
      (directiveValue (String.ofList name) cursor).bind fun (token, cursor) =>
        let cursor := cursor.skipComment
        if endsLine cursor.peek then
          .ok { lexer.push token with cursor := cursor.skipBreak, keyAllowed := false }
        else .error .malformed

/-- A line that separates documents. -/
def documentMarker (lexer : Lexer) (token : Token) : Except YamlError Lexer :=
  lexer.unwindAll.dropKey.map fun lexer => { lexer.take 3 token with keyAllowed := false }

/-- The start of a flow collection. -/
def flowStart (lexer : Lexer) (token : Token) : Except YamlError Lexer :=
  lexer.noteKey.map fun lexer =>
    { lexer.take 1 token with level := lexer.level + 1, keyAllowed := true }

/-- The end of a flow collection. -/
def flowEnd (lexer : Lexer) (token : Token) : Except YamlError Lexer :=
  lexer.dropKey.map fun lexer =>
    { lexer.take 1 token with level := lexer.level - 1, keyAllowed := false }

/-- The mark of an entry of a block sequence. -/
def blockEntry (lexer : Lexer) : Except YamlError Lexer :=
  if !lexer.inFlow && !lexer.keyAllowed then .error .malformed
  else
    let lexer := if lexer.inFlow then lexer
      else lexer.openBlock lexer.cursor.column lexer.tokens.length .blockSequenceStart
    lexer.takeMark true .blockEntry

/-- The mark of a key that is not simple. -/
def keyMark (lexer : Lexer) : Except YamlError Lexer :=
  if !lexer.inFlow && !lexer.keyAllowed then .error .malformed
  else
    let lexer := if lexer.inFlow then lexer
      else lexer.openBlock lexer.cursor.column lexer.tokens.length .blockMappingStart
    lexer.takeMark (!lexer.inFlow) .key

/-- The mark of a value. If a key may have started, it did. -/
def valueMark (lexer : Lexer) : Except YamlError Lexer :=
  match lexer.keys.find? (·.level == lexer.level) with
  | some key =>
    let lexer := { lexer with keys := lexer.keys.filter fun other => other.level != lexer.level }
    let lexer := lexer.putAt key.position .key
    let lexer := if lexer.inFlow then lexer
      else lexer.openBlock key.column key.position .blockMappingStart
    .ok { lexer.take 1 .value with keyAllowed := false }
  | none =>
    if !lexer.inFlow && !lexer.keyAllowed then .error .malformed
    else
      let lexer := if lexer.inFlow then lexer
        else lexer.openBlock lexer.cursor.column lexer.tokens.length .blockMappingStart
      lexer.takeMark (!lexer.inFlow) .value

/-- An anchor, or a reference to one. -/
def anchorToken (lexer : Lexer) (token : String → Token) : Except YamlError Lexer :=
  lexer.noteKey.bind fun lexer =>
    let name := lexer.cursor.next.span isNameChar
    let cursor := lexer.cursor.advance (name.length + 1)
    let ends := endsToken cursor.peek ||
      cursor.peek.any fun c =>
        ['?', ':', ',', ']', Char.ofNat 0x7D, '%', '@', Char.ofNat 0x60].contains c
    if name.isEmpty || !ends then .error .malformed
    else .ok { lexer.push (token (String.ofList name)) with cursor, keyAllowed := false }

/-- A tag. -/
def tagToken (lexer : Lexer) : Except YamlError Lexer :=
  lexer.noteKey.bind fun lexer =>
    (tag lexer.cursor).map fun (handle, suffix, cursor) =>
      { lexer.push (.tag handle suffix) with cursor, keyAllowed := false }

/-- A block scalar. -/
def blockToken (lexer : Lexer) (folded : Bool) : Except YamlError Lexer :=
  lexer.dropKey.bind fun lexer =>
    (blockScalar folded (max lexer.contentColumn 1) lexer.cursor.next).map fun (text, cursor) =>
      { lexer.push (.scalar (String.ofList text) false) with cursor, keyAllowed := true }

/-- A quoted scalar. -/
def quotedToken (lexer : Lexer) (double : Bool) : Except YamlError Lexer :=
  lexer.noteKey.bind fun lexer =>
    (quotedTail double (lexer.cursor.rest.length + 1) lexer.cursor.next).map fun (text, cursor) =>
      { lexer.push (.scalar (String.ofList text) false) with cursor, keyAllowed := false }

/-- A plain scalar. -/
def plainToken (lexer : Lexer) : Except YamlError Lexer :=
  lexer.noteKey.map fun lexer =>
    let (text, broke, cursor) := plainTail lexer.inFlow lexer.contentColumn
      (lexer.cursor.rest.length + 1) [] false lexer.cursor
    { lexer.push (.scalar (String.ofList text) true) with cursor, keyAllowed := broke }

/-- The characters that a plain scalar does not start with, as a rule. -/
def indicators : List Char :=
  ['-', '?', ':', ',', '[', ']', Char.ofNat 0x7B, Char.ofNat 0x7D, '#', '&', '*', '!', '|', '>',
    '\'', '"', '%', '@', Char.ofNat 0x60]

/-- Whether a plain scalar starts here. -/
def startsPlain (lexer : Lexer) (c : Char) : Bool :=
  (!endsToken (some c) && !indicators.contains c) ||
    (!endsToken (lexer.cursor.peek 1) &&
      (c == '-' || (!lexer.inFlow && (c == '?' || c == ':'))))

/-- The token that starts with a character. -/
def tokenAt (lexer : Lexer) (c : Char) : Except YamlError Lexer :=
  let atStart := lexer.cursor.column == 0
  let blankNext := endsToken (lexer.cursor.peek 1)
  if c = '%' && atStart then lexer.directive
  else if atStart && lexer.cursor.atMarker '-' then lexer.documentMarker .documentStart
  else if atStart && lexer.cursor.atMarker '.' then lexer.documentMarker .documentEnd
  else if c = '[' then lexer.flowStart .flowSequenceStart
  else if c.toNat = 0x7B then lexer.flowStart .flowMappingStart
  else if c = ']' then lexer.flowEnd .flowSequenceEnd
  else if c.toNat = 0x7D then lexer.flowEnd .flowMappingEnd
  else if c = ',' then lexer.takeMark true .flowEntry
  else if c = '-' && blankNext then lexer.blockEntry
  else if c = '?' && (lexer.inFlow || blankNext) then lexer.keyMark
  else if c = ':' && (lexer.inFlow || blankNext) then lexer.valueMark
  else if c = '*' then lexer.anchorToken .reference
  else if c = '&' then lexer.anchorToken .anchor
  else if c = '!' then lexer.tagToken
  else if c = '|' && !lexer.inFlow then lexer.blockToken false
  else if c = '>' && !lexer.inFlow then lexer.blockToken true
  else if c = '\'' then lexer.quotedToken false
  else if c = '"' then lexer.quotedToken true
  else if lexer.startsPlain c then lexer.plainToken
  else .error .malformed

/-- Reads all tokens from the state on. Every token but the last takes a character. -/
def run : (fuel : Nat) → Lexer → Except YamlError (List Token)
  | 0, _ => .error .malformed
  | fuel + 1, lexer =>
    match (lexer.skipBlanks (lexer.cursor.rest.length + 1)).dropStale with
    | .error error => .error error
    | .ok lexer =>
      let lexer := lexer.unwind lexer.cursor.column
      match lexer.cursor.peek with
      | none => lexer.unwindAll.dropKey.map fun lexer => lexer.tokens ++ [.ending]
      | some c =>
        match lexer.tokenAt c with
        | .ok lexer => run fuel lexer
        | .error error => .error error

end Lexer

/-- The tokens of a text; a byte order mark at its start is skipped. -/
def tokens (text : List Char) : Except YamlError (List Token) :=
  if text.all isAllowed then
    let cursor : Cursor := ⟨text, 0, 0, 0⟩
    let cursor := if cursor.peek.any (·.toNat == 0xFEFF) then cursor.next else cursor
    Lexer.run (text.length + 2) { cursor }
  else .error .malformed

end AssetRefs.Yaml
