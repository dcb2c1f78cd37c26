import NotebookCell.Script.Parser.Binary
import NotebookCell.Script.Parser.Function

/-!
# Primary expressions

Literals, objects, arrays, templates, and what begins with a parenthesis: an expression in
parentheses or the head of an arrow function.
-/

namespace NotebookCell.Script.Parser

def isArrow : Expr → Bool
  | .closed (.node label _ _) =>
    match label with
    | .arrowExpr => true
    | _ => false
  | _ => false

def leaf (span : Span) (form : Form) : Expr := .node span form []

def takeLiteral (value : Literal) : Parser Expr := do
  let start ← startPosition
  bump
  return leaf (← spanFrom start) (.literal value)

/-! ## Regular expressions and templates -/

/-- The first flag that stands twice. -/
def repeatedFlag? : List Char → Option Char
  | [] => none
  | c :: cs => if cs.contains c then some c else repeatedFlag? cs

/-- Takes the current token, a slash, and has a regular expression read from it on. -/
def takeSlash : Parser Unit := move (fun _ s => s.withSlashTaken) fun _ s => .slash s

def endRegex : Parser Unit := move (fun _ s => s.withoutRegex) fun _ s => .regexEnd s

/-- A regular expression; its slash is the current token. What follows a slash is read as a regular
expression until one is found. -/
def regexLiteral : Parser Expr := do
  let start ← startPosition
  takeSlash
  match ← currentToken with
  | some (.regex body flags) =>
    bump
    endRegex
    let known := flags.toList.filter "dgimsuvy".toList.contains
    if known.length < flags.length then note start .unknownRegexFlags
    if let some flag := repeatedFlag? known then note start (.repeatedRegexFlag flag)
    return leaf (← spanFrom start) (.literal (.regex body flags))
  | _ => failHere .expressionExpected

def templateText (tagged : Bool) : Parser String := do
  match ← required with
  | .template raw bad =>
    bump
    if let some f := bad then
      if !tagged then failWith f
    return raw
  | _ => failUnexpected "template token"

/-- The texts and the expressions of a template; its backtick is the current token. -/
def templateParts (expression : Parser Expr) (tagged : Bool) :
    Parser (List String × List Expr) := do
  bump
  let parts ← loop (([] : List String), ([] : List Expr)) fun (texts, es) => do
    let raw ← templateText tagged
    if ← sees "`" then return .done ((raw :: texts).reverse, es.reverse)
    expect "$\x7b"
    let e ← includingIn expression
    expect "\x7d"
    return .again (raw :: texts, e :: es)
  expect "`"
  return parts

/-! ## Lists of expressions -/

def expression (r : Rules) : Parser Expr := do
  let first ← r.assignment
  if !(← sees ",") then return first
  let others ← many do
    if ← eat "," then some <$> r.assignment else return none
  let last := others.getLast?.getD first
  return .node (first.span.to last.span) .sequence (first :: others)

/-- An element of a list, which may be spread. -/
def spreadable (r : Rules) : Parser Expr := do
  let start ← startPosition
  if ← eat "..." then
    let e ← includingIn r.assignment
    return .node ⟨start, e.span.stop⟩ .spread [e]
  includingIn r.assignment

def arguments (r : Rules) : Parser (List Expr) := do
  expect "("
  let es ← loop ([] : List Expr) fun found => do
    if (← atEnd) || (← sees ")") then return .done found.reverse
    if !found.isEmpty then
      expect ","
      if ← sees ")" then return .done found.reverse
    return .again ((← spreadable r) :: found)
  expect ")"
  return es

/-- Remembers the comma after the last item of the literal that starts here. -/
def recordComma (start : Nat) (position : Nat) : Parser Unit :=
  move (fun _ s => { s with trailingCommas := (start, position) :: s.trailingCommas })
    fun _ s => .trailingComma start position s

def arrayLiteral (r : Rules) : Parser Expr := do
  let start ← startPosition
  bump
  let elements ← loop ([] : List Expr) fun found => do
    if (← atEnd) || (← sees "]") then return .done found.reverse
    if ← eat "," then return .again (leaf (← previousSpan) .hole :: found)
    let e ← spreadable r
    if !(← sees "]") then
      expect ","
      if ← sees "]" then recordComma start (← previousSpan).start
    return .again (e :: found)
  expect "]"
  return .node (← spanFrom start) .array elements

/-! ## Objects -/

/-- A method; its function starts where the property does. -/
def methodProperty (r : Rules) (start : Nat) (key : PropertyName) (isAsync isGenerator : Bool) :
    Parser Property := do
  let fn ← asMethod (functionFrom r start isAsync isGenerator (parameters r))
  return .closed (.node .method fn.span [key.tree, fn])

/-- An accessor or an asynchronous method, after its first word. -/
def roleProperty (r : Rules) (start : Nat) (role : String) : Parser Property := do
  let isGenerator ← if role == "async" then eat "*" else pure false
  let key ← propertyName r
  let position := key.span.start
  if role == "async" then methodProperty r start key true isGenerator
  else if role == "get" then
    let (_, body) ← asMethod (functionRest r false false (getterParameters r position))
    return .closed (.node .getter (← spanFrom start) [key.tree, body])
  else
    let (ps, body) ← asMethod (functionRest r false false (setterParameters r position))
    return .closed (.node .setter (← spanFrom start)
      [key.tree, patternTree? (if ps.length = 1 then ps.head? else ps[1]?), body])

def objectProperty (r : Rules) : Parser Property := do
  let start ← startPosition
  if ← eat "..." then
    let e ← includingIn r.assignment
    return .spread ⟨start, e.span.stop⟩ e
  if ← eat "*" then
    let key ← propertyName r
    return ← methodProperty r start key false true
  let key ← propertyName r
  if ← eat ":" then
    let value ← includingIn r.assignment
    return .keyValue key.tree value
  if ← sees "(" then return ← methodProperty r start key false false
  match key with
  | .word id =>
    if ← eat "?" then note (← previousSpan).start .optionalProperty
    if ← eat "=" then
      let value ← includingIn r.assignment
      return .initialized (← spanFrom start) id value
    if ← seesAny [",", "\x7d"] then return .shorthand id
    if ["get", "set", "async"].contains id.name then return ← roleProperty r start id.name
    failUnexpected "... , *,  (, [, :, , ?, = or an identifier"
  | _ => failUnexpected "identifier"

def objectLiteral (r : Rules) : Parser Expr := do
  let start ← startPosition
  let (props, comma) ← braced (objectProperty r)
  if let some position := comma then recordComma start position
  return .object (← spanFrom start) props

/-! ## Arrow functions -/

/-- The body of an arrow function with its parameters read, and whether it is a block. -/
def arrowBody (r : Rules) (isAsync simple : Bool) : Parser (Tree × Bool) :=
  asBody isAsync false false do
    if ← sees "\x7b" then
      let b ← block r false
      checkDirective simple b
      return (b, true)
    return ((← r.assignment).tree, false)

def arrowFunction (start : Nat) (isAsync : Bool) (params : List Pattern) (body : Tree) :
    Parser Expr := do
  let span ← spanFrom start
  let arrow : Tree := .node (.arrow isAsync) span (patternTrees params ++ [body])
  return .closed (.node .arrowExpr span [arrow])

/-- The items between parentheses read as patterns; `comma` is that after the last one. -/
def asParameterPatterns (comma : Option Nat) : List Expr → Parser (List Pattern)
  | [] => return []
  | .node span .spread [e] :: es => do
    if es.isEmpty then
      if let .assign .. := e then note span.start .restWithDefault
      if let some position := comma then note position .commaAfterRest
      return [.rest span (← asPattern .binding e)]
    note span.start .restParameterNotLast
    asParameterPatterns comma es
  | e :: es => do
    let p ← asPattern .binding e
    return p :: (← asParameterPatterns comma es)

def asParameters (comma : Option Nat) (items : List Expr) : Parser (List Pattern) := do
  let params ← asParameterPatterns comma items
  if (← read).strict then params.forM checkStrictNames
  return params

/-- What an arrow in the middle of parentheses makes of the items before it. It belongs to a name
that comes first, and then all items are its parameters; else it is passed over. -/
def arrowBetween (r : Rules) (start : Nat) (items : List Expr) : Parser (List Expr) := do
  let namesFirst := match items with
    | .ident _ :: _ => true
    | .node _ .spread [.ident _] :: _ => true
    | _ => false
  if !namesFirst then return items
  let params ← asParameters none items
  let (body, _) ← arrowBody r false (params.all isName)
  return items ++ [← arrowFunction start false params body]

/-- The items between parentheses and the position of a comma after the last one. -/
def parenthesized (r : Rules) : Parser (List Expr × Option Nat) := do
  expect "("
  let items ← loop (([] : List Expr), (none : Option Nat)) fun (found, comma) => do
    if (← atEnd) || (← sees ")") then return .done (found, comma)
    let start ← startPosition
    setArrowStart (some start)
    let found := found ++ [← spreadable r]
    let found ← if ← eat "=>" then arrowBetween r start found else pure found
    if ← sees ")" then return .again (found, none)
    expect ","
    let position := (← previousSpan).start
    return .again (found, if ← sees ")" then some position else none)
  expect ")"
  return items

/-- `a = 1` is no property of an object that stands for itself. -/
def refuseInitialized : List Expr → Parser Unit
  | [] => return
  | .object _ props :: es => do
    for p in props do
      if let .initialized span _ _ := p then note span.start .initializedProperty
    refuseInitialized es
  | _ :: es => refuseInitialized es

def arrowAfterHead (r : Rules) (start : Nat) (canBeArrow isAsync : Bool) (items : List Expr)
    (comma : Option Nat) : Parser Expr := do
  if ← newlineBefore then failAt start .lineBreakBeforeArrow
  if !canBeArrow then failAt start .arrowNotAllowed
  expect "=>"
  let params ← asParameters comma items
  let (body, isBlock) ← arrowBody r isAsync (params.all isName)
  let arrow ← arrowFunction start isAsync params body
  -- a body in braces is no operand
  let operatorFollows := ((← current).bind (·.token.binaryOperator?)).isSome
  if !(isBlock && operatorFollows) then return arrow
  noteHere .semicolonRequired
  let e ← binaryTail r arrow
  if !(← seesSemicolon) then noteHere .semicolonRequired
  return e

/-- A spread has no place in parentheses of their own. -/
def refuseSpread : List Expr → Parser Unit
  | [] => return
  | .node _ .spread [e] :: _ => failAt e.span.start .spreadInParentheses
  | _ :: es => refuseSpread es

/-- What a parenthesis begins; after `async`, whose span is given, it may be a call. -/
def parenthesis (r : Rules) (canBeArrow : Bool)
    (asyncSpan : Option Span) : Parser Expr := do
  let start ← match asyncSpan with
    | some span => pure span.start
    | none => startPosition
  let (items, comma) ← includingIn (parenthesized r)
  if ← sees "=>" then
    return ← arrowAfterHead r start canBeArrow asyncSpan.isSome items comma
  refuseInitialized items
  match asyncSpan, items with
  | some span, _ =>
    return .node (← spanFrom start) (.call .plain) (.ident ⟨span, "async"⟩ :: items)
  | none, [] => failAt start .emptyParentheses
  | none, first :: others =>
    refuseSpread items
    match others.getLast? with
    | none => return .node (← spanFrom start) .paren [first]
    | some last =>
      return .node (← spanFrom start) .paren [.node (first.span.to last.span) .sequence items]

/-! ## Primary expressions -/

/-- An identifier, or an arrow function with a single parameter without parentheses. -/
def identifierOrArrow (r : Rules) (start : Nat) (canBeArrow : Bool) : Parser Expr := do
  let c ← read
  let id ← identifier (!c.inGenerator) (!c.inAsync)
  if canBeArrow && id.name == "async" && !(← newlineBefore) && (← seesIdentifier) then
    if c.inForHead && (← sees "of") then
      if !(← peeks "=>") then
        if !c.inForAwaitHead then note (← previousSpan).start .asyncOf
        return .ident id
    let param ← bindingIdentifier
    expect "=>"
    let (body, _) ← arrowBody r true true
    return ← arrowFunction start true [.ident param] body
  if canBeArrow && (← sees "=>") && !(← newlineBefore) then
    bump
    if isStrictReserved id.name then noteStrict id.span.start .bindsEvalOrArguments
    let (body, _) ← arrowBody r false true
    return ← arrowFunction start false [.ident id] body
  return .ident id

/-- What begins with the word `async`, if it is no identifier. -/
def asyncStart? (r : Rules) (start : Nat) (canBeArrow : Bool) :
    Parser (Option Expr) := do
  if !(← peeksOnLine) then return none
  if ← peeks "function" then
    bump
    let (name, fn) ← functionExpression r start true
    return some (.closed (.node .functionExpr fn.span [.ofIdent? name, fn]))
  if canBeArrow && (← peeks "(") then
    bump
    let span ← previousSpan
    return some (← parenthesis r canBeArrow (some span))
  return none

def templateLiteral (r : Rules) : Parser Expr := do
  let start ← startPosition
  let (texts, es) ← templateParts (expression r) false
  return .node (← spanFrom start) (.template texts) es

/-- `this`, or a literal that is spelled as a word. -/
def wordLiteral? : String → Option Form
  | "this" => some .this
  | "null" => some (.literal .null)
  | "true" => some (.literal (.boolean true))
  | "false" => some (.literal (.boolean false))
  | _ => none

def primaryWord (r : Rules) (name : String) (start : Nat)
    (canBeArrow : Bool) : Parser Expr := do
  if let some form := wordLiteral? name then
    bump
    return leaf (← spanFrom start) form
  if name == "async" then
    if let some e ← asyncStart? r start canBeArrow then return e
  if name == "function" then
    let (name, fn) ← functionExpression r start false
    return .closed (.node .functionExpr fn.span [.ofIdent? name, fn])
  if name == "class" then
    let (name, cls) ← classFrom r optionalClassName
    return .closed (.node .classExpr cls.span [.ofIdent? name, cls])
  if name == "let" || !(← read).reserves name then return ← identifierOrArrow r start canBeArrow
  failHere .expressionExpected

def primary (r : Rules) : Parser Expr := do
  let start ← startPosition
  let canBeArrow := (← state).arrowStart == some start
  match ← currentToken with
  | some (.word name true) => primaryWord r name start canBeArrow
  | some (.word _ false) => identifierOrArrow r start canBeArrow
  | some (.text _ raw) => takeLiteral (.text raw)
  | some (.number _ raw) => takeLiteral (.number raw)
  | some (.bigint _ raw) => takeLiteral (.bigint raw)
  | some (.punct "[") => arrayLiteral r
  | some (.punct "\x7b") => objectLiteral r
  | some (.punct "(") => parenthesis r canBeArrow none
  | some (.punct "`") => templateLiteral r
  | some (.punct "/") => regexLiteral
  | some (.punct "/=") => regexLiteral
  | some (.punct "#") =>
    bump
    let id ← identifierName
    return leaf (← spanFrom start) (.privateName id.name)
  | _ => failHere .expressionExpected

end NotebookCell.Script.Parser
