import AssetRefs.Go.Token
import AssetRefs.Go.TypeReading

/-! # Productions of the Go grammar

A production is a list of items: tokens to take, nodes to open and close, and rules to expand. The
parser keeps the items that are still to be done on a stack of its own, so the depth of the source
does not matter to it.
-/

namespace AssetRefs.Go

/-- Where an expression or a type stands. -/
structure Context where
  /-- A line break ends it. -/
  breaks : Bool
  /-- A composite literal may start with the bare name of its type. -/
  literals : Bool
  /-- A type may stand in place of an expression. -/
  types : Bool
deriving DecidableEq, Repr

namespace Context

/-- A statement of its own, or the end of a declaration. -/
def statement : Context := ⟨true, true, false⟩

/-- The part of a statement before its block. -/
def header : Context := ⟨false, false, false⟩

/-- Between brackets of some kind. -/
def enclosed : Context := ⟨false, true, false⟩

/-- Between parentheses or square brackets that may hold a type. -/
def ambiguous : Context := ⟨false, true, true⟩

end Context

/-! ## Rules -/

/-- The rules for types. -/
inductive TypeRule where
  | whole (context : Context)
  /-- The arguments that may follow the name of a type. -/
  | arguments (context : Context)
  | argumentList
  | moreArguments
  /-- One or more types with `|` between them. -/
  | union (kind : String) (field : Option String) (context : Context)
  | moreUnion (context : Context)
  | fields
  | fieldEntry
  | moreFieldNames
  | moreFields
  | fieldTag
  | members
  | member
  | moreMembers
  | parameters (field : String)
  | parameterList
  | parameter
  | moreParameters
  /-- The result that may follow the parameters of a function. -/
  | result (context : Context)
  | typeParameters
  | typeParameter
  | moreTypeParameterNames
  | moreTypeParameters
deriving DecidableEq, Repr

/-- The rules for expressions. -/
inductive ExpressionRule where
  | whole (context : Context)
  /-- The operators above a level that may follow an operand. -/
  | operators (context : Context) (level : Nat)
  | unary (context : Context)
  | operand
  /-- What may follow the signature of a function in an expression. -/
  | afterSignature
  /-- Selections, calls, brackets and literals that may follow an operand. -/
  | suffixes (context : Context)
  | arguments
  | afterArgument
  | moreArguments
  /-- The arguments of a call that takes a type first. -/
  | typedArguments
  | moreTypedArguments
  | conversionEnd
  | brackets
  | afterBracketed
  | moreBracketed
  | sliceEnd
  | sliceCapacity
  | literalValue (field : Option String)
  | elements
  | element
  | elementValue
  | afterElement
  | moreElements
  | list (context : Context) (field : Option String)
  | moreListed (context : Context)
deriving DecidableEq, Repr

/-- The rules for statements. -/
inductive StatementRule where
  | whole
  | block (field : Option String)
  | blockBody
  /-- The statements of a case. -/
  | caseBody
  | moreStatements
  | nextStatement
  | labelled
  | jumpLabel
  | returned
  /-- What follows the first expression of a simple statement; a range clause only if `ranges`. -/
  | simple (context : Context) (ranges : Bool)
  | assigned (context : Context) (ranges : Bool)
  | conditional (field : Option String)
  | condition
  | alternative
  | alternativeBody
  | loop
  | afterLoopExpression
  | afterLoopStatement
  | loopClause
  | loopCondition
  | loopUpdate
  | switchHeader
  /-- What follows an expression in the header of a switch, which is the first one or not. -/
  | switchExpression (first : Bool)
  | switchNames (first : Bool)
  | switchDefinition (first : Bool)
  | switchValue
  | switchCases
  | typeSwitch
  | typeCases
  | typeCaseTypes
  | selectCases
  | communication
  | received
deriving DecidableEq, Repr

/-- The kinds of declarations made of specifications. -/
inductive DeclarationKind where
  | constants | variables | types | imports
deriving DecidableEq, Repr

/-- The rules for declarations. -/
inductive DeclarationRule where
  | file
  | functionTypeParameters
  | declaredTypeParameters
  | functionBody
  | declaration (kind : DeclarationKind)
  | specs (kind : DeclarationKind)
  | moreSpecs (kind : DeclarationKind)
  | spec (kind : DeclarationKind)
  | moreNames (breaks : Bool)
  | constantValue
  | variableValue
  | moreVariable
  | typeDefinition
  | importName
deriving DecidableEq, Repr

/-- A rule of the grammar. -/
inductive Rule where
  | type (rule : TypeRule)
  | expression (rule : ExpressionRule)
  | statement (rule : StatementRule)
  | declaration (rule : DeclarationRule)
deriving DecidableEq, Repr

/-! ## Items -/

/-- How the children of an open node become a node. -/
inductive Closing where
  /-- A node of the given kind. -/
  | node (kind : String) (field : Option String)
  /-- A unary operator; a pointer type if a type may stand here. -/
  | unary (context : Context)
  /-- A parenthesised expression or type. -/
  | parentheses
  /-- An operand with brackets: an index, a slice or a generic. -/
  | brackets
  /-- A callee with arguments: a call, or the conversion to a generic type. -/
  | call
  /-- A list of parameters. -/
  | parameters (field : String)

/-- A step of the parser. -/
inductive Item where
  /-- Takes the given keyword or punctuation mark. -/
  | mark (text : String)
  /-- Takes the next mark, whatever it is. -/
  | anyMark (field : Option String)
  /-- Takes a punctuation mark as a named node. -/
  | markAs (text : String) (kind : String) (field : Option String)
  /-- Takes a name as a node of the given kind. -/
  | name (kind : String) (field : Option String)
  | literal
  | stringLiteral (field : Option String)
  /-- Takes a line break, a semicolon or the end of the source. -/
  | terminator
  /-- Opens a node. -/
  | enter
  /-- Opens a node whose first child is the last node made. -/
  | wrap (field : Option String)
  | leave (closing : Closing)
  /-- Gives the children of the open node to the node around it. -/
  | dissolve
  /-- Sets the field of the last node made. -/
  | label (field : String)
  /-- Moves the children of the open node from one field to another. -/
  | moveField (source target : String)
  /-- Reads the last node made as a type. -/
  | retype
  | rule (rule : Rule)

namespace Item

/-- Closes a node of the given kind. -/
def close (kind : String) (field : Option String := none) : Item := .leave (.node kind field)

/-- An expression. -/
def expr (context : Context) : Item := .rule (.expression (.whole context))

/-- An expression of the given field. -/
def exprIn (context : Context) (field : String) : List Item := [expr context, label field]

/-- A type. -/
def type (context : Context) : Item := .rule (.type (.whole context))

/-- A type of the given field. -/
def typeIn (context : Context) (field : String) : List Item := [type context, label field]

/-- A rule for types. -/
def ty (rule : TypeRule) : Item := .rule (.type rule)

/-- A rule for expressions. -/
def ex (rule : ExpressionRule) : Item := .rule (.expression rule)

/-- A rule for statements. -/
def st (rule : StatementRule) : Item := .rule (.statement rule)

/-- A rule for declarations. -/
def decl (rule : DeclarationRule) : Item := .rule (.declaration rule)

/-- A node with the given items inside. -/
def node (kind : String) (field : Option String) (items : List Item) : List Item :=
  enter :: items ++ [close kind field]

end Item

/-! ## What lies ahead -/

/-- The kind of the token after `n` others. -/
def kindAt (ahead : List Token) (n : Nat) : TokenKind :=
  ((ahead[n]?).map Token.kind).getD .ending

/-- Whether a line break stands before the token after `n` others. -/
def breakAt (ahead : List Token) (n : Nat) : Bool := ((ahead[n]?).map Token.afterBreak).getD false

/-- The kind of the next token; a line break that ends the construct hides it. -/
def continuing (context : Context) (ahead : List Token) : TokenKind :=
  if context.breaks && breakAt ahead 0 then .ending else kindAt ahead 0

/-- Whether the token after `n` others is the given mark. -/
def markAt (ahead : List Token) (n : Nat) (text : String) : Bool := kindAt ahead n == .mark text

/-- Whether the token after `n` others is a name. -/
def nameAt (ahead : List Token) (n : Nat) : Bool :=
  match kindAt ahead n with
  | .word _ => true
  | _ => false

/-- The tokens after the bracketed group that starts here. -/
def afterGroup : (depth : Nat) → List Token → List Token
  | _, [] => []
  | depth, token :: rest =>
    match token.kind with
    | .mark text =>
      if ["(", "[", "\x7b"].contains text then afterGroup (depth + 1) rest
      else if [")", "]", "\x7d"].contains text then
        if depth ≤ 1 then rest else afterGroup (depth - 1) rest
      else if depth = 0 then token :: rest
      else afterGroup depth rest
    | _ => if depth = 0 then token :: rest else afterGroup depth rest

/-- The kinds of string literals. -/
def stringKinds : List String := ["interpreted_string_literal", "raw_string_literal"]

/-- Whether a token is a string literal. -/
def isStringLiteral : TokenKind → Bool
  | .literal kind => stringKinds.contains kind
  | _ => false

/-- Whether a type may start with a token, a parenthesis aside. -/
def startsPlainType : TokenKind → Bool
  | .word _ => true
  | .mark text =>
    ["*", "[", "struct", "interface", "map", "chan", "func", "<-", "~"].contains text
  | _ => false

/-- Whether an expression may start with a token. -/
def startsExpression : TokenKind → Bool
  | .word _ | .literal _ => true
  | .mark text =>
    ["(", "[", "struct", "interface", "map", "chan", "func", "+", "-", "!", "^", "*", "&",
      "<-"].contains text
  | .ending => false

end AssetRefs.Go
