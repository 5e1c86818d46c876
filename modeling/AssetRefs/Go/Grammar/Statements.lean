import AssetRefs.Go.Production

/-! # Grammar of statements

Statements end at a line break or a semicolon; the last one of a block needs neither.
-/

namespace AssetRefs.Go

open Item

/-- The operators of assignments. -/
def assignmentOperators : List String :=
  ["=", "+=", "-=", "*=", "/=", "%=", "&=", "|=", "^=", "<<=", ">>=", "&^="]

/-- The items of the cases between braces, given the rule for them. -/
def caseBlock (rule : StatementRule) : List Item := [mark "\x7b", st rule, mark "\x7d"]

/-- The items of a switch on expressions after its header. -/
def switchBlock : List Item := caseBlock .switchCases ++ [close "expression_switch_statement"]

/-- The items of the default case and the cases after it. -/
def defaultCase (rule : StatementRule) : List Item :=
  node "default_case" none [mark "default", mark ":", st .caseBody] ++ [st rule]

/-- The items of a list of expressions of which the first one has been read. -/
def listAfterFirst (context : Context) (field : String) : List Item :=
  [wrap none, ex (.moreListed context), close "expression_list" (some field)]

/-- Whether the list of statements ends here. -/
def endsStatements (ahead : List Token) : Bool :=
  kindAt ahead 0 == .ending || ["\x7d", "case", "default"].any (markAt ahead 0)

/-- Whether a type switch guard follows. -/
def guardAhead (ahead : List Token) : Bool :=
  markAt ahead 0 "." && markAt ahead 1 "(" && markAt ahead 2 "type"

/-- Whether an assignment or a definition follows a list of expressions. -/
def assignmentAhead : TokenKind → Bool
  | .mark text => text == ":=" || assignmentOperators.contains text
  | _ => false

/-- The items of a statement that starts with a given keyword or mark, if the mark decides. -/
def keywordItems : String → Option (List Item)
  | "const" => some [decl (.declaration .constants)]
  | "var" => some [decl (.declaration .variables)]
  | "type" => some [decl (.declaration .types)]
  | "return" => some (node "return_statement" none [mark "return", st .returned])
  | "go" => some (node "go_statement" none [mark "go", expr .statement])
  | "defer" => some (node "defer_statement" none [mark "defer", expr .statement])
  | "if" => some [st (.conditional none)]
  | "for" => some (node "for_statement" none [mark "for", st .loop])
  | "switch" => some [enter, mark "switch", st .switchHeader]
  | "select" => some (node "select_statement" none (mark "select" :: caseBlock .selectCases))
  | "fallthrough" => some (node "fallthrough_statement" none [mark "fallthrough"])
  | "break" => some (node "break_statement" none [mark "break", st .jumpLabel])
  | "continue" => some (node "continue_statement" none [mark "continue", st .jumpLabel])
  | "goto" => some (node "goto_statement" none [mark "goto", name "label_name" none])
  | "\x7b" => some [st (.block none)]
  | ";" => some (node "empty_statement" none [mark ";"])
  | _ => none

/-- The items of a simple statement that starts with an expression. -/
def simpleItems (context : Context) (ranges : Bool) : List Item :=
  [enter, expr context, st (.simple context ranges)]

/-- The items of a statement. -/
def statementItems (ahead : List Token) : List Item :=
  match kindAt ahead 0 with
  | .mark text => (keywordItems text).getD (simpleItems .statement false)
  | .word _ =>
    if markAt ahead 1 ":" && !breakAt ahead 1 then
      node "labeled_statement" none [name "label_name" (some "label"), mark ":", st .labelled]
    else simpleItems .statement false
  | _ => simpleItems .statement false

/-- The items after a list of expressions on the left of an assignment. -/
def assignedItems (context : Context) (ranges : Bool) (ahead : List Token) :
    Option (List Item) :=
  let next := continuing context ahead
  if ranges && (next == .mark ":=" || next == .mark "=") && markAt ahead 1 "range" then
    some ([anyMark none, mark "range"] ++ exprIn context "right" ++ [close "range_clause"])
  else if next == .mark ":=" then
    some [mark ":=", ex (.list context (some "right")), close "short_var_declaration"]
  else if assignmentAhead next then
    some [anyMark (some "operator"), ex (.list context (some "right")),
      close "assignment_statement"]
  else none

/-- The items after the first expression of a simple statement. -/
def afterExpressionItems (context : Context) (ranges : Bool) (ahead : List Token) : List Item :=
  let next := continuing context ahead
  if next == .mark "," || assignmentAhead next then
    listAfterFirst context "left" ++ [st (.assigned context ranges)]
  else if next == .mark "<-" then
    [label "channel", mark "<-"] ++ exprIn context "value" ++ [close "send_statement"]
  else if next == .mark "++" then [mark "++", close "inc_statement"]
  else if next == .mark "--" then [mark "--", close "dec_statement"]
  else [close "expression_statement"]

/-- The items after an expression in the header of a switch. -/
def switchItems (first : Bool) (ahead : List Token) : Option (List Item) :=
  if guardAhead ahead then some [dissolve, label "value", st .typeSwitch]
  else if markAt ahead 0 "\x7b" then some ([dissolve, label "value"] ++ switchBlock)
  else if markAt ahead 0 "," || markAt ahead 0 ":=" then
    some (listAfterFirst .header "left" ++ [st (.switchNames first)])
  else if first then
    some [st (.simple .header false), label "initializer", mark ";", st .switchValue]
  else none

/-- The items of a rule for statements; `last` is the last node made. -/
def StatementRule.items (ahead : List Token) (last : Option Concrete) :
    StatementRule → Option (List Item)
  | .whole => some (statementItems ahead)
  | .block field => some (node "block" field [mark "\x7b", st .blockBody, mark "\x7d"])
  | .blockBody =>
    if markAt ahead 0 "\x7d" then some []
    else some (node "statement_list" none [st .whole, st .moreStatements])
  | .caseBody =>
    if endsStatements ahead then some []
    else some (node "statement_list" none [st .whole, st .moreStatements])
  | .moreStatements =>
    if breakAt ahead 0 || markAt ahead 0 ";" then some [terminator, st .nextStatement]
    else some []
  | .nextStatement =>
    if endsStatements ahead then some [] else some [st .whole, st .moreStatements]
  | .labelled => if endsStatements ahead then some [] else some [st .whole]
  | .jumpLabel =>
    match continuing .statement ahead with
    | .word _ => some [name "label_name" none]
    | _ => some []
  | .returned =>
    if startsExpression (continuing .statement ahead) then some [ex (.list .statement none)]
    else some []
  | .simple context ranges => some (afterExpressionItems context ranges ahead)
  | .assigned context ranges => assignedItems context ranges ahead
  | .conditional field =>
    some (node "if_statement" field
      [mark "if", enter, expr .header, st .condition, st (.block (some "consequence")),
        st .alternative])
  | .condition =>
    if markAt ahead 0 "\x7b" then some [dissolve, label "condition"]
    else some ([st (.simple .header false), label "initializer", mark ";"] ++
      exprIn .header "condition")
  | .alternative =>
    if continuing .statement ahead == .mark "else" then some [mark "else", st .alternativeBody]
    else some []
  | .alternativeBody =>
    if markAt ahead 0 "if" then some [st (.conditional (some "alternative"))]
    else some [st (.block (some "alternative"))]
  | .loop =>
    let body := st (.block (some "body"))
    if markAt ahead 0 "\x7b" then some [body]
    else if markAt ahead 0 "range" then
      some (node "range_clause" none (mark "range" :: exprIn .header "right") ++ [body])
    else if markAt ahead 0 ";" then some [enter, st .loopClause, body]
    else some [enter, expr .header, st .afterLoopExpression, body]
  | .afterLoopExpression =>
    if markAt ahead 0 "\x7b" then some [dissolve]
    else some [st (.simple .header true), st .afterLoopStatement]
  | .afterLoopStatement =>
    if last.any (·.kind == "range_clause") then some []
    else some [wrap (some "initializer"), st .loopClause]
  | .loopClause =>
    some [mark ";", st .loopCondition, mark ";", st .loopUpdate, close "for_clause"]
  | .loopCondition =>
    if markAt ahead 0 ";" then some [] else some (exprIn .header "condition")
  | .loopUpdate =>
    if markAt ahead 0 "\x7b" then some []
    else some (simpleItems .header false ++ [label "update"])
  | .switchHeader =>
    if markAt ahead 0 "\x7b" then some switchBlock
    else some [enter, expr .header, st (.switchExpression true)]
  | .switchExpression first => switchItems first ahead
  | .switchNames first =>
    if markAt ahead 0 ":=" then some [mark ":=", expr .header, st (.switchDefinition first)]
    else if first then
      some [st (.assigned .header false), label "initializer", mark ";", st .switchValue]
    else none
  | .switchDefinition first =>
    if guardAhead ahead then
      some [moveField "left" "alias", label "value", dissolve, st .typeSwitch]
    else if first then
      some (listAfterFirst .header "right" ++
        [close "short_var_declaration" (some "initializer"), mark ";", st .switchValue])
    else none
  | .switchValue =>
    if markAt ahead 0 "\x7b" then some switchBlock
    else some [enter, expr .header, st (.switchExpression false)]
  | .switchCases =>
    if markAt ahead 0 "case" then
      some (node "expression_case" none
        [mark "case", ex (.list .enclosed (some "value")), mark ":", st .caseBody] ++
        [st .switchCases])
    else if markAt ahead 0 "default" then some (defaultCase .switchCases)
    else some []
  | .typeSwitch =>
    some ([mark ".", mark "(", mark "type", mark ")"] ++ caseBlock .typeCases ++
      [close "type_switch_statement"])
  | .typeCases =>
    if markAt ahead 0 "case" then
      some (node "type_case" none
        (mark "case" :: typeIn .enclosed "type" ++ [st .typeCaseTypes, mark ":", st .caseBody]) ++
        [st .typeCases])
    else if markAt ahead 0 "default" then some (defaultCase .typeCases)
    else some []
  | .typeCaseTypes =>
    if markAt ahead 0 "," then
      some (mark "," :: typeIn .enclosed "type" ++ [st .typeCaseTypes])
    else some []
  | .selectCases =>
    if markAt ahead 0 "case" then
      some (node "communication_case" none
        [mark "case", enter, expr .enclosed, st .communication, mark ":", st .caseBody] ++
        [st .selectCases])
    else if markAt ahead 0 "default" then some (defaultCase .selectCases)
    else some []
  | .communication =>
    if markAt ahead 0 "<-" then
      some ([label "channel", mark "<-"] ++ exprIn .enclosed "value" ++
        [close "send_statement" (some "communication")])
    else if [",", "=", ":="].any (markAt ahead 0) then
      some (listAfterFirst .enclosed "left" ++ [st .received])
    else some [label "right", close "receive_statement" (some "communication")]
  | .received =>
    if markAt ahead 0 "=" || markAt ahead 0 ":=" then
      some (anyMark none :: exprIn .enclosed "right" ++
        [close "receive_statement" (some "communication")])
    else none

end AssetRefs.Go
