import NotebookCell.Script.Parser.Primary

/-!
# Accesses and calls

What can stand on the left of an assignment, as far as the grammar goes: a primary expression with
the accesses, calls and templates that hang on it, and `new`.
-/

namespace NotebookCell.Script.Parser

/-! ## Subscripts -/

/-- How the last access or call hangs on what is before it. -/
def lastLink : Expr → Link
  | .node _ form _ =>
    match form with
    | .member _ link | .privateMember _ link | .index link | .call link => link
    | _ => .plain
  | _ => .plain

/-- The expression is a link of a chain that holds an optional one. -/
def isOptionalChain (e : Expr) : Bool := lastLink e != .plain

/-- The last link is itself optional. `new` takes no such callee, but one with the optional link
further in. -/
def endsOptional (e : Expr) : Bool := lastLink e == .optional

def linkAfter (e : Expr) (optional : Bool) : Link :=
  if optional then .optional else if isOptionalChain e then .chained else .plain

def isSuper : Expr → Bool
  | .node _ .superRef _ => true
  | _ => false

/-- A property of `super` is at home in methods, is no link of an optional chain and is not
private. -/
def checkSuper (noCall optional isHidden : Bool) (e : Expr) : Parser Unit := do
  if isSuper e then
    if !(← read).allowsSuper then failHere .superNotAllowed
    if optional then failHere (if noCall then .superCallNotAllowed else .superNotAllowed)
    if isHidden then failHere .superCallNotAllowed

/-- Nothing hangs on the expression any more. `super` is none by itself. -/
def endSubscripts (noCall : Bool) (e : Expr) : Parser Expr := do
  if isSuper e then failHere (if noCall then .superCallNotAllowed else .superNotAllowed)
  return e

def eatQuestion : Parser Bool := do
  if !(← sees "?") then return false
  if !(← peeks ".") then return false
  bump
  return true

/-- Takes a bracket or parenthesis that opens a link; the dot of an optional one comes before it. -/
def eatOpening (optional : Bool) (opening : String) : Parser Bool := do
  if !optional then return ← sees opening
  if !(← peeks opening) then return false
  bump
  return true

/-- One access, call or template after `e`. -/
def subscript (r : Rules) (noCall : Bool) (e : Expr) : Parser (Round Expr Expr) := do
  let start := e.span.start
  let optional ← eatQuestion
  let link := linkAfter e optional
  if ← eatOpening optional "[" then
    expect "["
    let key ← includingIn (expression r)
    expect "]"
    checkSuper noCall optional false e
    return .again (.node (← spanFrom start) (.index link) [e, key])
  if ← if noCall && !optional then pure false else eatOpening optional "(" then
    let es ← arguments r
    if optional && isSuper e then failHere .optionalSuperCall
    return .again (.node (← spanFrom start) (.call link) (e :: es))
  if ← eat "." then
    let isHidden ← sees "#"
    let id ← if isHidden then hiddenName else identifierName
    checkSuper noCall optional isHidden e
    let form := if isHidden then .privateMember id.name link else .member id.name link
    return .again (.node (← spanFrom start) form [e])
  if (← sees "`") && !isSuper e then
    let (texts, es) ← templateParts (expression r) true
    let span ← spanFrom start
    if isOptionalChain e then note start .optionalTemplate
    return .again (.node span (.taggedTemplate texts) (e :: es))
  return .done (← endSubscripts noCall e)

/-- All that hangs on `e`; calls may be left to the rule around. -/
def subscripts (r : Rules) (noCall : Bool) (e : Expr) : Parser Expr := loop e (subscript r noCall)

/-! ## New -/

/-- `new.target`, with `new` and the dot read. -/
def newTarget (r : Rules) (start : Nat) : Parser Expr := do
  if !(← eat "target") then failUnexpected "target"
  let c ← read
  if !(c.allowsNewTarget || c.inParameters || c.inClass) then note start .newTargetOutsideFunction
  subscripts r true (leaf (← spanFrom start) .newTarget)

/-! ## Import -/

/-- Properties of `import` itself belong to modules. -/
def checkImportMeta (start : Nat) : Parser Unit := do
  if !(← read).inModule then note start .importMetaInScript

/-- The call after `import` or `import.source`, which are read. A name may stand before the
arguments; the span then ends with the name. The name `meta` takes no arguments: it makes
`import.meta` of what is read. -/
def importCall (r : Rules) (start : Nat) (noCall : Bool) : Parser Expr := do
  let callee := leaf (← spanFrom start) .importRef
  if ← eat "." then
    if ← sees "#" then
      let _ ← hiddenName
      failUnexpected "meta"
    let id ← identifierName
    let span ← spanFrom start
    checkImportMeta start
    if id.name == "meta" then return leaf span .importMeta
    return .node span (.call .plain) (callee :: (← arguments r))
  if !(← sees "(") then failUnexpected "`.` or `(`"
  if noCall then failHere .importNotAllowed
  let es ← arguments r
  return .node (← spanFrom start) (.call .plain) (callee :: es)

/-- What begins with `import`; the word itself is read. -/
def importExpression (r : Rules) (start : Nat) (noCall : Bool) : Parser Expr := do
  if ← eat "." then
    let id ← identifierName
    if id.name == "meta" then
      checkImportMeta start
      return ← subscripts r noCall (leaf (← spanFrom start) .importMeta)
    if id.name != "source" then failUnexpected "meta"
  subscripts r noCall (← importCall r start noCall)

/-! ## Primary expressions with accesses, and new -/

/-- A primary expression with accesses, or `new` with its callee and optional arguments. -/
def newExpression (r : Rules) : Parser Expr := do
  let start ← startPosition
  if ← eat "new" then
    if ← eat "." then return ← newTarget r start
    let callee ← r.constructed
    if isArrow callee then return callee
    if endsOptional callee then failAt callee.span.start .optionalConstructor
    if ← sees "(" then
      let es ← arguments r
      return ← subscripts r true (.node (← spanFrom start) .construct (callee :: es))
    return .node (← spanFrom start) .construct [callee]
  if ← eat "super" then return ← subscripts r true (leaf (← spanFrom start) .superRef)
  if ← eat "import" then return ← importExpression r start true
  let e ← primary r
  if isArrow e then return e
  subscripts r true e

/-! ## Left-hand sides -/

def leftHand (r : Rules) : Parser Expr := do
  let start ← startPosition
  if ← eat "super" then return ← subscripts r false (leaf (← spanFrom start) .superRef)
  if ← eat "import" then return ← importExpression r start false
  let e ← newExpression r
  if isArrow e then return e
  if ← sees "(" then
    let es ← arguments r
    return ← subscripts r false (.node (← spanFrom start) (.call (linkAfter e false)) (e :: es))
  return e

end NotebookCell.Script.Parser
