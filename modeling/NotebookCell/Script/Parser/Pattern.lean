import NotebookCell.Script.Parser.Rules

/-!
# Patterns

Binding patterns are read as they stand. The target of an assignment and the head of an arrow
function are read as expressions first, since only what follows tells them apart; `asPattern` turns
the expression into the pattern that its text spells.
-/

namespace NotebookCell.Script.Parser

/-! ## Binding patterns -/

/-- A pattern with an optional default, which `value` reads. -/
def patternWithDefault (r : Rules) (value : Parser Expr) : Parser Pattern := do
  let start ← startPosition
  let target ← r.binding
  if ← eat "=" then
    let value ← value
    return .withDefault (← spanFrom start) target value
  return target

def bindingElement (r : Rules) : Parser Pattern := patternWithDefault r (includingIn r.assignment)

def arrayBinding (r : Rules) : Parser Pattern := do
  let start ← startPosition
  bump
  let elements ← loop (([] : List Pattern), (none : Option Nat)) fun (found, rest) => do
    if (← atEnd) || (← sees "]") then return .done found.reverse
    if ← eat "," then return .again (.hole :: found, rest)
    if let some position := rest then note position .restNotLast
    let start ← startPosition
    if ← eat "..." then
      let target ← r.binding
      let element := Pattern.rest (← spanFrom start) target
      if !(← sees "]") then
        expect ","
        if ← sees "]" then note (← previousSpan).start .commaAfterRest
      return .again (element :: found, some start)
    let element ← bindingElement r
    if !(← sees "]") then expect ","
    return .again (element :: found, rest)
  expect "]"
  return .array (← spanFrom start) elements

def objectBindingProperty (r : Rules) : Parser PatternProperty := do
  let start ← startPosition
  if ← eat "..." then
    let target ← r.binding
    return .rest (← spanFrom start) target
  let key ← propertyName r
  if ← eat ":" then
    let value ← bindingElement r
    return .keyValue key.tree value
  match key with
  | .word id =>
    if ← eat "=" then
      let value ← includingIn r.assignment
      return .shorthand (← spanFrom start) id (some value)
    return .shorthand (← spanFrom start) id none
  | _ => failUnexpected "an identifier"

/-- A rest property binds a single name and comes last. -/
def checkRestProperties (trailingComma : Option Nat) : List PatternProperty → Parser Unit
  | [] => return
  | [.rest _ (.ident _)] => do
    if let some position := trailingComma then note position .commaAfterRest
  | [.rest span _] => failAt span.start .restNotIdentifier
  | .rest span _ :: props => do
    note span.start .restNotLast
    checkRestProperties trailingComma props
  | _ :: props => checkRestProperties trailingComma props

/-- The items between braces and the position of a comma after the last one. -/
def braced {α : Type} (item : Parser α) : Parser (List α × Option Nat) := do
  bump
  loop (([] : List α), (none : Option Nat)) fun (found, comma) => do
    if ← eat "\x7d" then return .done (found.reverse, comma)
    let a ← item
    if ← sees "\x7d" then return .again (a :: found, none)
    expect ","
    let position := (← previousSpan).start
    return .again (a :: found, if ← sees "\x7d" then some position else none)

def objectBinding (r : Rules) : Parser Pattern := do
  let start ← startPosition
  let (props, comma) ← braced (objectBindingProperty r)
  let span ← spanFrom start
  checkRestProperties comma props
  return .object span props

def bindingPattern (r : Rules) : Parser Pattern := do
  match ← required with
  | .word _ _ => return .ident (← bindingIdentifier)
  | .punct "[" => arrayBinding r
  | .punct "\x7b" => objectBinding r
  | _ => failUnexpected "yield, an identifier, [ or \x7b"

/-! ## Parameters -/

def isName : Pattern → Bool
  | .ident _ => true
  | _ => false

/-- What a rest parameter binds. A default is noted. -/
def restTarget (r : Rules) (start : Nat) : Parser Pattern := do
  let target ← r.binding
  if ← eat "=" then
    let value ← r.assignment
    note target.span.start .restWithDefault
    return .withDefault (← spanFrom start) target value
  return target

/-- Parameters up to the closing parenthesis; `bound` reads what a rest parameter binds that starts
at a position. -/
def parametersWith (r : Rules) (bound : (start : Nat) → Parser Pattern) : Parser (List Pattern) :=
  loop (([] : List Pattern), (none : Option Nat)) fun (found, rest) => do
    if (← atEnd) || (← sees ")") then return .done found.reverse
    if let some position := rest then note position .restParameterNotLast
    let start ← startPosition
    if ← eat "..." then
      let target ← bound start
      let param := Pattern.rest (← spanFrom start) target
      if !(← sees ")") then
        expect ","
        if ← sees ")" then note (← previousSpan).start .commaAfterRest
      return .again (param :: found, some start)
    let param ← patternWithDefault r r.assignment
    if !(← sees ")") then expect ","
    return .again (param :: found, rest)

def parameters (r : Rules) : Parser (List Pattern) := parametersWith r (restTarget r)

/-- Parameters of a constructor, where no rest parameter is read with a default. -/
def constructorParameters (r : Rules) : Parser (List Pattern) := parametersWith r fun _ => r.binding

mutual

/-- Strict code binds neither `eval` nor `arguments`. -/
def checkStrictNames : Pattern → Parser Unit
  | .ident id => do
    if isStrictReserved id.name then note id.span.start .bindsEvalOrArguments
  | .array _ elements => checkStrictNamesAll elements
  | .object _ props => checkStrictNamesProps props
  | .withDefault _ target _ => checkStrictNames target
  | .rest _ target => checkStrictNames target
  | _ => return

def checkStrictNamesAll : List Pattern → Parser Unit
  | [] => return
  | p :: ps => do
    checkStrictNames p
    checkStrictNamesAll ps

def checkStrictNamesProps : List PatternProperty → Parser Unit
  | [] => return
  | .keyValue _ value :: ps => do
    checkStrictNames value
    checkStrictNamesProps ps
  | .shorthand _ id _ :: ps => do
    if isStrictReserved id.name then note id.span.start .bindsEvalOrArguments
    checkStrictNamesProps ps
  | .rest _ target :: ps => do
    checkStrictNames target
    checkStrictNamesProps ps

end

/-! ## Expressions read as patterns -/

inductive PatternPlace where
  /-- the left of an assignment or the head of a loop -/
  | assignment
  /-- inside a pattern on the left of an assignment -/
  | assignmentElement
  /-- a parameter, or inside one -/
  | binding
  deriving DecidableEq

def PatternPlace.inner : PatternPlace → PatternPlace
  | .binding => .binding
  | _ => .assignmentElement

/-- Expressions that an element of an assignment pattern may be as far as the grammar goes. -/
def isTargetForm : Expr → Bool
  | .node _ form _ =>
    match form with
    | .member _ link | .privateMember _ link | .index link | .call link => link == .plain
    | .construct | .literal _ | .paren | .template _ => true
    | _ => false
  | .closed (.node label _ _) =>
    match label with
    | .functionExpr | .classExpr => true
    | _ => false
  | _ => false

/-- An expression that is no object, array or assignment, in the place of a pattern. -/
def asTarget (place : PatternPlace) (e : Expr) : Parser Pattern := do
  let simple := e.isSimpleTarget (← read).strict
  let start := e.span.start
  match place with
  | .assignment =>
    if !simple then note start .notSimpleTarget
    return .target e
  | .assignmentElement =>
    if isTargetForm e then
      if !simple then note start .cannotAssign
      return .target e
    note start .notAPattern
    return .invalid e.span
  | .binding =>
    note start .notAPattern
    return .invalid e.span

/-- The position of the comma after the last item of the literal that starts here. -/
def trailingComma? (start : Nat) : Parser (Option Nat) :=
  return (← state).trailingCommas.lookup start

def boundByRest (span : Span) : Expr → Parser Pattern
  | .ident id => return .ident id
  | _ => do
    note span.start .restNotIdentifier
    return .invalid span

mutual

def asPattern (place : PatternPlace) : Expr → Parser Pattern
  | .ident id => do
    if place ≠ .binding && (← read).strict && isStrictReserved id.name then
      note id.span.start (if place = .assignment then .notSimpleTarget else .cannotAssign)
    return .ident id
  | .object span props => do
    let comma ← trailingComma? span.start
    return .object span (← asPatternProperties place.inner comma props)
  | .node span .array elements => do
    let comma ← trailingComma? span.start
    return .array span (← asPatterns place.inner comma elements)
  | .node span .invalid _ => return .invalid span
  | .assign span operator target value =>
    if place = .assignment then asTarget place (.assign span operator target value)
    else if operator = "=" then return .withDefault span target value
    else do
      note span.start .notAPattern
      return .invalid span
  | .node span form operands => asTarget place (.node span form operands)
  | .closed t => asTarget place (.closed t)

/-- The elements of an array literal; `comma` is that after the last one. -/
def asPatterns (place : PatternPlace) (comma : Option Nat) : List Expr → Parser (List Pattern)
  | [] => return []
  | .node span .spread [e] :: es => do
    if es.isEmpty then
      if let .assign .. := e then note span.start .restWithDefault
      if let some position := comma then note position .commaAfterRest
      let target ← asPattern place e
      return [.rest span target]
    note span.start .restNotLast
    asPatterns place comma es
  | .node _ .hole _ :: es => return .hole :: (← asPatterns place comma es)
  | e :: es => do
    let p ← asPattern place e
    return p :: (← asPatterns place comma es)

def asPatternProperties (place : PatternPlace) (comma : Option Nat) :
    List Property → Parser (List PatternProperty)
  | [] => return []
  | .shorthand id :: ps =>
    return .shorthand id.span id none :: (← asPatternProperties place comma ps)
  | .keyValue key value :: ps => do
    let p ← asPattern place value
    return .keyValue key p :: (← asPatternProperties place comma ps)
  | .initialized span id value :: ps =>
    return .shorthand span id (some value) :: (← asPatternProperties place comma ps)
  | .closed t :: _ => failAt t.span.start .notAPattern
  | .spread span e :: ps => do
    if !ps.isEmpty then note span.start .restNotLast
    else if let some position := comma then note position .commaAfterRest
    let target ← if place = .binding then boundByRest span e else asPattern place e
    if let .withDefault .. := target then note span.start .restWithDefault
    return .rest span target :: (← asPatternProperties place comma ps)

end

end NotebookCell.Script.Parser
