import NotebookCell.Script.Parser.Basic
import NotebookCell.Script.Expr

/-!
# Names, and the rules that refer to themselves

The grammar is recursive at six places. `Rules` holds the parsers of these places; every other
rule is a plain function of them, and the grammar ties the knot once.
-/

namespace NotebookCell.Script

structure Rules where
  assignment : Parser Expr
  unary : Parser Expr
  /-- the expression that a class extends -/
  heritage : Parser Expr
  /-- the callee of `new` -/
  constructed : Parser Expr
  binding : Parser Pattern
  /-- a statement, in a place where declarations may stand or may not -/
  statement : (declarations : Bool) → Parser Tree

namespace Parser

def identifierName : Parser Ident := do
  let start ← startPosition
  match ← required with
  | .word name _ =>
    bump
    return ⟨← spanFrom start, name⟩
  | _ => failHere .identifierExpected

/-- The word is reserved where strict code names an identifier, however it is spelled. -/
def isStrictWord (name : String) : Bool :=
  name == "yield" || name == "let" || name == "static" || strictWords.contains name

/-- The keyword at `position` in the place of an identifier. -/
def keywordAsIdentifier (position : Nat) (allowsYield allowsAwait : Bool) : String → Parser Unit
  | "let" => return
  | "await" => do
    let c ← read
    if c.inStaticBlock then failAt position .identifierExpected
    if c.inModule || c.inAsync then failAt position .awaitAsIdentifier
    if !allowsAwait then failAt position .identifierExpected
  | "yield" => if !allowsYield then failAt position .identifierExpected else return
  | name => if isKeyword name then failAt position .identifierExpected else return

/-- The word at `position` may stand in the place of an identifier. -/
def checkIdentifier (position : Nat) (name : String) (bare allowsYield allowsAwait : Bool) :
    Parser Unit := do
  if name == "enum" then note position (.reservedInStrict name)
  if isStrictWord name then noteStrict position (.reservedInStrict name)
  if bare then keywordAsIdentifier position allowsYield allowsAwait name
  if name == "arguments" && (← read).inField then note position .argumentsInField

def identifier (allowsYield allowsAwait : Bool) : Parser Ident := do
  let start ← startPosition
  match ← required with
  | .word name bare =>
    bump
    checkIdentifier (← previousSpan).start name bare allowsYield allowsAwait
    return ⟨← spanFrom start, name⟩
  | _ => failHere .identifierExpected

/-- Asynchronous code does not bind `await`, nor a generator `yield`, however they are spelled. -/
def checkBinding (id : Ident) : Parser Unit := do
  if isStrictReserved id.name then noteStrict id.span.start .bindsEvalOrArguments
  let c ← read
  let refused :=
    if id.name == "await" then c.inAsync || c.inStaticBlock
    else id.name == "yield" && c.inGenerator
  if refused then failAt id.span.start .identifierExpected

/-- An identifier that a declaration binds. -/
def bindingIdentifier : Parser Ident := do
  let id ← identifier true true
  checkBinding id
  return id

/-- `let` is no name for what `let`, `const` and `class` declare. -/
def refuseLet : Parser Unit := do
  if ← sees "let" then failUnexpected "let is reserved in const, let, class declaration"

/-- `#name` -/
def hiddenName : Parser Ident := do
  let start ← startPosition
  bump
  if (← previousSpan).stop < (← startPosition) then failAt start .spaceAfterHash
  let id ← identifierName
  return ⟨← spanFrom start, id.name⟩

/-! ## Property names -/

inductive PropertyName where
  | word (id : Ident)
  | text (span : Span) (value : String)
  | number (span : Span) (raw : String)
  | hidden (id : Ident)
  | computed (span : Span) (e : Expr)

def PropertyName.tree : PropertyName → Tree
  | .word id => .node (.key id.name) id.span []
  | .text span value => .node (.key value) span []
  | .number span raw => .node (.key raw) span []
  | .hidden id => .node (.key id.name) id.span []
  | .computed span e => .node .computedKey span [e.tree]

def PropertyName.span : PropertyName → Span
  | .word id => id.span
  | .text span _ => span
  | .number span _ => span
  | .hidden id => id.span
  | .computed span _ => span

def PropertyName.isConstructor : PropertyName → Bool
  | .word id => id.name == "constructor"
  | .text _ value => value == "constructor"
  | _ => false

def propertyName (r : Rules) : Parser PropertyName := do
  let start ← startPosition
  match ← required with
  | .text value _ =>
    bump
    return .text (← spanFrom start) value
  | .number _ raw =>
    bump
    return .number (← spanFrom start) raw
  | .bigint _ raw =>
    bump
    return .number (← spanFrom start) raw
  | .word _ _ => return .word (← identifierName)
  | .punct "[" =>
    bump
    let e ← includingIn r.assignment
    expect "]"
    return .computed (← spanFrom start) e
  | _ => failUnexpected "identifier, string literal, numeric literal or [ for the computed key"

end Parser

end NotebookCell.Script
