import NotebookCell.Script.Parser.Loop

/-!
# Statements

A statement is kept as its tree. What may stand only somewhere is noted, and reading goes on.
-/

namespace NotebookCell.Script.Parser

/-! ## Jumps -/

def jumpLabel : Parser (Option Ident) := do
  let c ← read
  let label ← if ← seesSemicolon then pure none
    else some <$> identifier (!c.inGenerator) (!c.inAsync)
  expectSemicolon
  return label

def isUnknown (c : Context) (label : Option Ident) : Bool :=
  label.any fun id => !c.labels.contains id.name

def breakStatement : Parser Tree := do
  let start ← startPosition
  bump
  let label ← jumpLabel
  let c ← read
  if isUnknown c label then note start .breakUnknownLabel
  else if !c.allowsBreak then note start .breakOutside
  return .node .break (← spanFrom start) [.ofIdent? label]

def continueStatement : Parser Tree := do
  let start ← startPosition
  bump
  let label ← jumpLabel
  let c ← read
  if !c.allowsContinue then note start .continueOutside
  else if isUnknown c label then note start .continueUnknownLabel
  return .node .continue (← spanFrom start) [.ofIdent? label]

def returnStatement (r : Rules) : Parser Tree := do
  let start ← startPosition
  bump
  let value ← if ← seesSemicolon then pure none else some <$> includingIn (expression r)
  expectSemicolon
  if !(← read).inFunction then note start .returnOutside
  return .node .ret (← spanFrom start) [exprTree? value]

def throwStatement (r : Rules) : Parser Tree := do
  let start ← startPosition
  bump
  if ← newlineBefore then failHere .lineBreakAfterThrow
  let value ← includingIn (expression r)
  expectSemicolon
  return .node .throwing (← spanFrom start) [value.tree]

/-! ## Branches -/

def ifStatement (r : Rules) : Parser Tree := do
  let start ← startPosition
  bump
  let test ← condition r
  let yes ← nested (r.statement false)
  if ← eat "else" then
    let no ← if ← sees "if" then r.statement false else nested (r.statement false)
    return .node .branch (← spanFrom start) [test.tree, yes, no]
  return .node .branch (← spanFrom start) [test.tree, yes]

/-- A clause of a `switch` statement, and whether it is the default one. -/
def switchCase (r : Rules) (hasDefault : Bool) : Parser (Tree × Bool) := do
  let start ← startPosition
  let isDefault ← sees "default"
  bump
  let test ← if isDefault then pure none else some <$> includingIn (expression r)
  if isDefault && hasDefault then failHere .repeatedDefault
  expect ":"
  let body ← many do
    if (← atEnd) || (← seesAny ["case", "default", "\x7d"]) then return none
    some <$> nested (r.statement true)
  return (.node .case (← spanFrom start) (exprTree? test :: body), isDefault)

def switchStatement (r : Rules) : Parser Tree := do
  let start ← startPosition
  bump
  let subject ← condition r
  expect "\x7b"
  let cases ← inContext (fun c => { c with allowsBreak := true }) <|
    loop (([] : List Tree), false) fun (found, hasDefault) => do
      if !(← seesAny ["case", "default"]) then return .done found.reverse
      let (clause, isDefault) ← switchCase r hasDefault
      return .again (clause :: found, hasDefault || isDefault)
  expect "\x7d"
  return .node .switch (← spanFrom start) (subject.tree :: cases)

/-! ## Exceptions -/

def handler? (r : Rules) : Parser (Option Tree) := do
  let start ← startPosition
  if !(← eat "catch") then return none
  let param ← if ← eat "(" then
      let p ← r.binding
      expect ")"
      pure (some p)
    else pure none
  let body ← block r false
  return some (.node .handler (← spanFrom start) [patternTree? param, body])

def finalizer? (r : Rules) : Parser (Option Tree) := do
  if ← eat "finally" then some <$> block r false else return none

def tryStatement (r : Rules) : Parser Tree := do
  let start ← startPosition
  bump
  let body ← block r false
  let afterBody ← startPosition
  let handler ← handler? r
  let finalizer ← finalizer? r
  if handler.isNone && finalizer.isNone then note afterBody .semicolonRequired
  return .node .tryCatch (← spanFrom start) [body, handler.getD .absent, finalizer.getD .absent]

/-- A clause of a `try` statement that stands alone. -/
def strayClause (r : Rules) : Parser Tree := do
  let start ← startPosition
  noteHere .semicolonRequired
  attempt (handler? r)
  attempt (finalizer? r)
  let span : Span := ⟨start, start⟩
  return .node .exprStmt span [(leaf span .invalid).tree]

/-! ## Labels and expressions -/

/-- A function under a label stands in sloppy code only, and is a plain one. -/
def labelledFunction (r : Rules) : Parser Tree := do
  let start ← startPosition
  let fn ← functionDeclaration r start false
  if (← read).strict then note start .labelledFunctionInStrict
  if let .node _ _ [_, .node (.function isAsync isGenerator) _ _] := fn then
    if isAsync || isGenerator then note start .labelledGenerator
  return fn

/-- The statement after a label and its colon. -/
def labelledStatement (r : Rules) (label : Ident) : Parser Tree := do
  let repeated := (← read).labels.filter (· == label.name)
  let body ← inContext (fun c => { c with
      allowsBreak := true, labels := label.name :: c.labels }) do
    if ← sees "function" then labelledFunction r else nested (r.statement false)
  repeated.forM fun name => note label.span.start (.repeatedLabel name)
  return .node .labeled (← spanFrom label.span.start) [.ofIdent label, body]

/-- The end of an expression statement; operators may have been cut off. -/
def endExpression (r : Rules) (e : Expr) : Parser Expr := do
  if ← eatSemicolon then return e
  if ((← current).bind (·.token.binaryOperator?)).isSome then
    noteHere .semicolonRequired
    return ← binaryTail r e
  failHere .semicolonOrEndExpected

def expressionStatement (r : Rules) : Parser Tree := do
  let start ← startPosition
  let e ← includingIn (expression r)
  if let .ident id := e then
    if ← eat ":" then return ← labelledStatement r id
  let e ← endExpression r e
  return .node .exprStmt (← spanFrom start) [e.tree]

/-! ## Statements -/

/-- `import` and `export` where no module item may stand: only an expression can begin so. -/
def importStatement (r : Rules) : Parser Tree := do
  let start ← startPosition
  if ← sees "import" then
    if (← peeks "(") || (← peeks ".") then
      let e ← expression r
      let _ ← eat ";"
      return .node .exprStmt (← spanFrom start) [e.tree]
  failHere .moduleSyntaxInScript

def withStatement (r : Rules) : Parser Tree := do
  let start ← startPosition
  noteStrict start .withInStrict
  bump
  let object ← condition r
  let body ← inContext (fun c => { c with inFunction := true }) (nested (r.statement false))
  return .node .withObject (← spanFrom start) [object.tree, body]

def keywordStatement? (r : Rules) (declarations : Bool) : String → Option (Parser Tree)
  | "break" => some breakStatement
  | "continue" => some continueStatement
  | "debugger" => some do
    let start ← startPosition
    bump
    expectSemicolon
    return .node .debugger (← spanFrom start) []
  | "do" => some (doLoop r)
  | "for" => some (forLoop r)
  | "function" => some do
    if !declarations then noteHere .declarationNotAllowed
    functionDeclaration r (← startPosition) false
  | "class" => some do
    if !declarations then noteHere .declarationNotAllowed
    classDeclaration r
  | "if" => some (ifStatement r)
  | "return" => some (returnStatement r)
  | "switch" => some (switchStatement r)
  | "throw" => some (throwStatement r)
  | "catch" => some (strayClause r)
  | "finally" => some (strayClause r)
  | "try" => some (tryStatement r)
  | "with" => some (withStatement r)
  | "while" => some (whileLoop r)
  | _ => none

/-- `async function` on one line. -/
def seesAsyncFunction : Parser Bool := do
  if !(← sees "async") then return false
  if !(← peeks "function") then return false
  peeksOnLine

/-- `await using`, and the declaration or the expression that it begins. -/
def awaitUsing (r : Rules) : Parser Tree := do
  let start ← startPosition
  bump
  let _ ← current
  if ← peeksUsed then return ← usingDeclaration r start
  let e ← awaitedUsing r start
  let _ ← eatSemicolon
  return .node .exprStmt (← spanFrom start) [e.tree]

/-- What begins with a word that is no keyword, or with no word at all. -/
def openStatement (r : Rules) (declarations : Bool) : Parser Tree := do
  if declarations then
    if ← sees "using" then
      if ← peeksUsed then return ← usingDeclaration r (← startPosition)
  if ← seesAsyncFunction then
    let start ← startPosition
    bump
    return ← functionDeclaration r start true
  expressionStatement r

/-- What begins with `await`. At the top level of a script it may not stand. -/
def awaitStatement (r : Rules) (declarations : Bool) : Parser Tree := do
  let c ← read
  if declarations || c.topLevel then
    if c.topLevel && !c.inModule then noteHere .topLevelAwaitInScript
    if ← peeks "using" then return ← awaitUsing r
  openStatement r declarations

/-- A statement. Declarations that are bound to a block may stand in statement lists only. -/
def statement (r : Rules) (declarations : Bool) : Parser Tree := do
  let start ← startPosition
  if ← seesAny ["import", "export"] then return ← importStatement r
  match ← required with
  | .punct "\x7b" => block r false
  | .punct ";" =>
    bump
    return .node .empty (← spanFrom start) []
  | .word "await" true => awaitStatement r declarations
  | .word name true =>
    if let some rule := keywordStatement? r declarations name then return ← rule
    match ← declarationKind? with
    | some kind =>
      if declarations || kind = .var then return (← variableDeclaration r kind false).tree
      openStatement r declarations
    | none => openStatement r declarations
  | _ => openStatement r declarations

end NotebookCell.Script.Parser
