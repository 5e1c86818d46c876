import AssetRefs.Yaml.Token
import AssetRefs.Yaml.ScalarType

/-! # YAML nodes

The nodes of a document with their tags. A reference to an anchor is replaced by the node that it
refers to; a reference to a collection from inside is a node of its own, because its content is not
known yet.
-/

namespace AssetRefs.Yaml

/-- A node and its tag. -/
inductive Node where
  | scalar (tag : String) (text : String)
  | sequence (tag : String) (items : List Node)
  | mapping (tag : String) (entries : List (Node × Node))
  /-- A collection that contains the node. -/
  | cycle
deriving Inhabited, Repr

/-- The state of reading nodes. -/
structure Composer where
  tokens : List Token
  /-- The meanings of the tag handles. -/
  handles : List (String × String) := [("!", "!"), ("!!", standard)]
  /-- The nodes with anchors; those being read have none yet. -/
  anchors : List (String × Option Node) := []

/-- Reading that may fail. -/
abbrev Compose (α : Type) := StateT Composer (Except YamlError) α

namespace Compose

/-- Fails. -/
def malformed {α : Type} : Compose α := fun _ => .error .malformed

/-- Whether the next token is of some class. -/
def ahead (part : Token → Bool) : Compose Bool := fun composer =>
  .ok (composer.tokens.head?.any part, composer)

/-- Goes past a token. -/
def next : Compose Unit := fun composer =>
  .ok ((), { composer with tokens := composer.tokens.tail })

/-- Takes the given token, if it is next. -/
def accept (token : Token) : Compose Bool := do
  let found ← ahead (· == token)
  if found then next
  return found

/-- Takes the given token. -/
def expect (token : Token) : Compose Unit := do
  unless (← accept token) do malformed

/-- The anchor at hand, if there is one. -/
def anchor? : Compose (Option String) := fun composer =>
  match composer.tokens with
  | .anchor name :: tokens => .ok (some name, { composer with tokens })
  | _ => .ok (none, composer)

/-- The tag at hand in full, if there is one. -/
def tag? : Compose (Option String) := fun composer =>
  match composer.tokens with
  | .tag none suffix :: tokens => .ok (some suffix, { composer with tokens })
  | .tag (some handle) suffix :: tokens =>
    match composer.handles.find? (·.1 == handle) with
    | some (_, meaning) => .ok (some (meaning ++ suffix), { composer with tokens })
    | none => .error .malformed
  | _ => .ok (none, composer)

/-- The anchor and the tag of a node, in either order. -/
def properties : Compose (Option String × Option String) := do
  match ← anchor? with
  | some anchor => return (some anchor, ← tag?)
  | none =>
    let tag ← tag?
    return (← anchor?, tag)

/-- Notes an anchor before its node is read; an anchor is not used twice. -/
def openAnchor (anchor : Option String) : Compose Unit := fun composer =>
  match anchor with
  | none => .ok ((), composer)
  | some name =>
    if composer.anchors.any (·.1 == name) then .error .malformed
    else .ok ((), { composer with anchors := (name, none) :: composer.anchors })

/-- Notes the node of an anchor. -/
def closeAnchor (anchor : Option String) (node : Node) : Compose Node := fun composer =>
  match anchor with
  | none => .ok (node, composer)
  | some name =>
    let anchors := composer.anchors.map fun entry =>
      if entry.1 == name then (name, some node) else entry
    .ok (node, { composer with anchors })

/-- The node that a name refers to. -/
def referred (name : String) : Compose Node := fun composer =>
  match composer.anchors.find? (·.1 == name) with
  | none => .error .malformed
  | some (_, none) => .ok (.cycle, composer)
  | some (_, some node) => .ok (node, composer)

/-- A scalar without text. -/
def emptyNode : Node := .scalar (tagOf "") ""

/-- The tag of a collection. -/
def collectionTag (tag : Option String) (default : String) : String :=
  match tag with
  | none => standard ++ default
  | some tag => if tag = "!" then standard ++ default else tag

/-- The tag of a scalar. One that is plain or tagged `!` has the type that its text shows. -/
def scalarTag (tag : Option String) (plain : Bool) (text : String) : String :=
  match tag with
  | none => if plain then tagOf text else standard ++ "str"
  | some tag => if tag = "!" then tagOf text else tag

/-- Which nodes may stand at a place. -/
inductive Place where
  | flow
  | block
  /-- A block node, or a sequence that is not indented. -/
  | blockValue
deriving DecidableEq, Repr

/-- Whether a key, a value or the end of a block collection is next. -/
def endsBlockPart : Token → Bool
  | .key | .value | .blockEnd => true
  | _ => false

mutual

/-- A node. -/
def node : (fuel : Nat) → Place → Compose Node
  | 0, _ => malformed
  | fuel + 1, place => do
    match (← get).tokens with
    | .reference name :: _ =>
      next
      referred name
    | _ =>
      let (anchor, tag) ← properties
      openAnchor anchor
      match (← get).tokens with
      | .blockEntry :: _ =>
        if place = .blockValue then
          closeAnchor anchor (.sequence (collectionTag tag "seq") (← looseItems fuel))
        else bare anchor tag
      | .scalar text plain :: _ =>
        next
        closeAnchor anchor (.scalar (scalarTag tag plain text) text)
      | .flowSequenceStart :: _ =>
        next
        closeAnchor anchor (.sequence (collectionTag tag "seq") (← flowItems fuel true))
      | .flowMappingStart :: _ =>
        next
        closeAnchor anchor (.mapping (collectionTag tag "map") (← flowEntries fuel true))
      | .blockSequenceStart :: _ =>
        if place = .flow then bare anchor tag
        else
          next
          closeAnchor anchor (.sequence (collectionTag tag "seq") (← blockItems fuel))
      | .blockMappingStart :: _ =>
        if place = .flow then bare anchor tag
        else
          next
          closeAnchor anchor (.mapping (collectionTag tag "map") (← blockEntries fuel))
      | _ => bare anchor tag

/-- A node without content, which needs an anchor or a tag. -/
def bare (anchor tag : Option String) : Compose Node :=
  if anchor.isNone && tag.isNone then malformed
  else closeAnchor anchor (.scalar (scalarTag tag true "") "")

/-- A node, unless a token of some class is next. -/
def nodeUnless : (fuel : Nat) → (absent : Token → Bool) → Place → Compose Node
  | 0, _, _ => malformed
  | fuel + 1, absent, place => do
    if ← ahead absent then return emptyNode else node fuel place

/-- The items of a block sequence. -/
def blockItems : (fuel : Nat) → Compose (List Node)
  | 0 => malformed
  | fuel + 1 => do
    if ← accept .blockEntry then
      let item ← nodeUnless fuel (fun token => token == .blockEntry || token == .blockEnd) .block
      return item :: (← blockItems fuel)
    else
      expect .blockEnd
      return []

/-- The items of a sequence that is not indented. -/
def looseItems : (fuel : Nat) → Compose (List Node)
  | 0 => malformed
  | fuel + 1 => do
    if ← accept .blockEntry then
      let item ← nodeUnless fuel (fun token => token == .blockEntry || endsBlockPart token) .block
      return item :: (← looseItems fuel)
    else return []

/-- The entries of a block mapping. -/
def blockEntries : (fuel : Nat) → Compose (List (Node × Node))
  | 0 => malformed
  | fuel + 1 => do
    if ← accept .key then
      let key ← nodeUnless fuel endsBlockPart .blockValue
      let value ← if ← accept .value then nodeUnless fuel endsBlockPart .blockValue
        else pure emptyNode
      return (key, value) :: (← blockEntries fuel)
    else
      expect .blockEnd
      return []

/-- The items of a flow sequence; before each but the first there is a comma. -/
def flowItems : (fuel : Nat) → (first : Bool) → Compose (List Node)
  | 0, _ => malformed
  | fuel + 1, first => do
    if ← accept .flowSequenceEnd then return []
    else
      unless first do expect .flowEntry
      if ← accept .key then
        let entry ← flowEntry fuel .flowSequenceEnd
        return .mapping (standard ++ "map") [entry] :: (← flowItems fuel false)
      else if ← accept .flowSequenceEnd then return []
      else
        let item ← node fuel .flow
        return item :: (← flowItems fuel false)

/-- The entries of a flow mapping; before each but the first there is a comma. -/
def flowEntries : (fuel : Nat) → (first : Bool) → Compose (List (Node × Node))
  | 0, _ => malformed
  | fuel + 1, first => do
    if ← accept .flowMappingEnd then return []
    else
      unless first do expect .flowEntry
      if ← accept .key then
        let entry ← flowEntry fuel .flowMappingEnd
        return entry :: (← flowEntries fuel false)
      else if ← accept .flowMappingEnd then return []
      else
        let key ← node fuel .flow
        return (key, emptyNode) :: (← flowEntries fuel false)

/-- An entry of a flow collection after the mark of its key; `closing` ends the collection. -/
def flowEntry : (fuel : Nat) → (closing : Token) → Compose (Node × Node)
  | 0, _ => malformed
  | fuel + 1, closing => do
    let key ← nodeUnless fuel
      (fun token => token == .value || token == .flowEntry || token == closing) .flow
    if ← accept .value then
      let value ← nodeUnless fuel (fun token => token == .flowEntry || token == closing) .flow
      return (key, value)
    else return (key, emptyNode)

end

/-- Reads the directives of a document. -/
def directives : (fuel : Nat) → (versioned : Bool) → (handles : List (String × String)) →
    Compose (List (String × String))
  | 0, _, _ => malformed
  | fuel + 1, versioned, handles => do
    match (← get).tokens with
    | .version major :: _ =>
      next
      if versioned || major != 1 then malformed else directives fuel true handles
    | .handle name meaning :: _ =>
      next
      if handles.any (·.1 == name) then malformed
      else directives fuel versioned ((name, meaning) :: handles)
    | .otherDirective :: _ =>
      next
      directives fuel versioned handles
    | _ => return handles

/-- Whether a token comes before or after the content of a document. -/
def boundsDocument : Token → Bool
  | .version _ | .handle .. | .otherDirective | .documentStart | .documentEnd | .ending => true
  | _ => false

/-- Goes past the marks at the end of a document. -/
def documentEnds : (fuel : Nat) → Compose Unit
  | 0 => malformed
  | fuel + 1 => do if ← accept .documentEnd then documentEnds fuel

/-- The only document of a text, if there is one. -/
def document (fuel : Nat) : Compose (Option Node) := do
  let explicit ← ahead fun token => boundsDocument token && token != .documentEnd
  if ← ahead (· == .ending) then return none
  else
    let root ← if explicit then do
        let given ← directives fuel false []
        modify fun composer => { composer with handles := given ++ composer.handles }
        expect .documentStart
        nodeUnless fuel boundsDocument .block
      else node fuel .block
    documentEnds fuel
    expect .ending
    return some root

end Compose

/-- The node of the only document in a text, if there is one. -/
def composed (text : List Char) : Except YamlError (Option Node) :=
  match tokens text with
  | .error error => .error error
  | .ok tokens =>
    match (Compose.document (4 * tokens.length + 4)).run { tokens } with
    | .ok (root, _) => .ok root
    | .error error => .error error

end AssetRefs.Yaml
