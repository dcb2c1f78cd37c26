import NotebookCell.Script.Parser.LeftHand

/-!
# Unary operators, conditions and assignments
-/

namespace NotebookCell.Script.Parser

/-! ## Await and yield -/

/-- Nothing comes after an `await` that it could wait for. -/
def awaitsNothing : Parser Bool := do
  if ← seesAny [")", "]", ","] then return true
  seesSemicolon

/-- What an `await` at `start`, which is read, waits for. -/
def awaited (r : Rules) (start : Nat) : Parser Expr := do
  let c ← read
  if c.inFunction && !c.inAsync then note start .awaitInFunction
  if c.inParameters && !c.inFunction then note start .awaitInParameters
  let e ← r.unary
  return .node (← spanFrom start) .await [e]

/-- An `await` with nothing to wait for is a name outside of asynchronous code. -/
def awaitName? (start : Nat) : Parser (Option Expr) := do
  let word ← spanFrom start
  if ← sees "*" then failHere .awaitStar
  let missing ← awaitsNothing
  let c ← read
  if c.inAsync || !missing then return none
  if c.inModule then note start .awaitAsIdentifier
  return some (.ident ⟨word, "await"⟩)

def awaitExpression (r : Rules) : Parser Expr := do
  let start ← startPosition
  bump
  if let some e ← awaitName? start then return e
  let c ← read
  if c.topLevel && !c.inModule then note start .topLevelAwaitInScript
  awaited r start

/-- `await` before a `using` that declares nothing; the `await` at `start` is read. -/
def awaitedUsing (r : Rules) (start : Nat) : Parser Expr := do
  let e ← match ← awaitName? start with
    | some e => pure e
    | none => awaited r start
  includingIn (binaryTail r e)

def yieldExpression (r : Rules) : Parser Expr := do
  let start ← startPosition
  bump
  let c ← read
  if c.inParameters && !c.inFunction then failAt start .yieldInParameters
  let starts := ((← current).map (·.token.startsExpression)).getD false
  if (← seesSemicolon) || (!(← sees "*") && !starts) then
    return leaf (← spanFrom start) (.yield false)
  let delegate ← eat "*"
  let e ← r.assignment
  return .node (← spanFrom start) (.yield delegate) [e]

/-! ## Unary operators -/

/-- What `++` and `--` count up or down. -/
def checkCounted (e : Expr) : Parser Unit := do
  if !e.isSimpleTarget (← read).strict then note e.span.start .notSimpleTarget

def deletesName : Expr → Bool
  | .ident _ => true
  | _ => false

/-- The operand of a prefix operator; a missing one is noted. -/
def operand (r : Rules) : Parser Expr := do
  let position ← startPosition
  recovering r.unary fun f => do
    noteFaultToken
    return (f, leaf ⟨position, position⟩ .invalid)

def unaryOperators : List String := ["delete", "void", "typeof", "+", "-", "~", "!"]

def seenOf? (operators : List String) : Parser (Option String) :=
  return (← current).bind fun l => operators.find? l.token.spells

def unaryExpression (r : Rules) : Parser Expr := do
  let start ← startPosition
  if let some operator ← seenOf? ["++", "--"] then
    bump
    let e ← r.unary
    checkCounted e
    return .node ⟨start, e.span.stop⟩ (.update operator true) [e]
  if let some operator ← seenOf? unaryOperators then
    bump
    let e ← operand r
    if operator == "delete" && deletesName e then noteStrict e.span.start .deleteOfIdentifier
    return .node ⟨start, e.span.stop⟩ (.unary operator) [e]
  if ← sees "await" then return ← awaitExpression r
  let e ← leftHand r
  if isArrow e then return e
  if ← newlineBefore then return e
  if let some operator ← seenOf? ["++", "--"] then
    checkCounted e
    bump
    return .node (← spanFrom e.span.start) (.update operator false) [e]
  return e

/-! ## Conditions -/

/-- The first operand of a chain of operators. Where an operator stands instead, the missing
operand is noted. -/
def firstOperand (r : Rules) : Parser Expr :=
  recovering r.unary fun f => do
    let _ ← required
    if (← binaryOperator?).isNone then failWith f
    return (⟨(← knownSpan).start, .expressionExpected⟩, leaf ⟨f.position, f.position⟩ .invalid)

def binaryExpression (r : Rules) : Parser Expr := do
  let e ← firstOperand r
  if isArrow e then return e
  binaryTail r e

def conditionalExpression (r : Rules) : Parser Expr := do
  let start ← startPosition
  let test ← binaryExpression r
  if isArrow test then return test
  if !(← eat "?") then return test
  let yes ← includingIn r.assignment
  expect ":"
  let no ← r.assignment
  return .node ⟨start, no.span.stop⟩ .conditional [test, yes, no]

/-! ## Assignments -/

/-- Operators with operands never stand on the left of an assignment. -/
def isOperation : Expr → Bool
  | .node _ form _ =>
    match form with
    | .conditional | .binary _ | .unary _ | .update _ _ => true
    | _ => false
  | _ => false

/-- A pattern that `=` can assign to. -/
def isAssignable : Pattern → Bool
  | .ident _ | .object _ _ | .array _ _ | .invalid _ => true
  | .target e => e.isPlace
  | _ => false

/-- The left of an assignment by `operator`. -/
def assignmentTarget (operator : String) (e : Expr) : Parser Pattern := do
  if operator == "=" then
    let target ← asPattern .assignment e
    if !isAssignable target then failAt e.span.start .invalidTarget
    return target
  if !e.isSimpleTarget (← read).strict then note e.span.start .cannotAssign
  match e with
  | .ident id => return .ident id
  | e =>
    if !e.isPlace then failAt e.span.start .invalidTarget
    return .target e

/-- The current token, which has to be there, can be the start of an arrow function. -/
def seesArrowStart : Parser Bool := do
  match ← required with
  | .word name bare => return !bare || name == "yield" || !isKeyword name
  | token => return token.spells "("

def assignmentExpression (r : Rules) : Parser Expr := do
  if (← read).inGenerator then
    if ← sees "yield" then return ← yieldExpression r
  let opens ← seesArrowStart
  let start ← startPosition
  if opens then setArrowStart (some start)
  let e ← conditionalExpression r
  if isArrow e || isOperation e then return e
  match ← seenOf? assignmentOperators with
  | none => return e
  | some operator =>
    let target ← assignmentTarget operator e
    bump
    let value ← r.assignment
    return .assign ⟨start, value.span.stop⟩ operator target value

end NotebookCell.Script.Parser
