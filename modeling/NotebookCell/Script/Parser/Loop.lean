import NotebookCell.Script.Parser.Declaration

/-!
# Loops
-/

namespace NotebookCell.Script.Parser

def condition (r : Rules) : Parser Expr := do
  expect "("
  let e ← includingIn (expression r)
  expect ")"
  return e

def loopBody (r : Rules) : Parser Tree :=
  inContext (fun c => { c with allowsBreak := true, allowsContinue := true })
    (nested (r.statement false))

def whileLoop (r : Rules) : Parser Tree := do
  let start ← startPosition
  bump
  let test ← condition r
  let body ← loopBody r
  return .node .whileDo (← spanFrom start) [test.tree, body]

/-- A semicolon may follow, and then belongs to the loop. -/
def doLoop (r : Rules) : Parser Tree := do
  let start ← startPosition
  bump
  let body ← loopBody r
  expect "while"
  let test ← condition r
  let _ ← eatSemicolon
  return .node .doWhile (← spanFrom start) [test.tree, body]

/-! ## For -/

/-- What stands between the parentheses of a `for` loop. -/
inductive ForHead where
  | steps (init test update : Tree)
  | keys (left subject : Tree)
  | values (left subject : Tree)

/-- The head after what it starts with. The semicolon behind the test may be missing. -/
def stepsHead (r : Rules) (init : Tree) : Parser ForHead := do
  let test ← if ← eat ";" then pure none
    else do
      let e ← includingIn (expression r)
      let _ ← eat ";"
      pure (some e)
  let update ← if ← sees ")" then pure none else some <$> includingIn (expression r)
  return .steps init (exprTree? test) (exprTree? update)

/-- The head from its `of` or `in` on. -/
def eachHead (r : Rules) (left : Tree) : Parser ForHead := do
  if ← eat "of" then
    let e ← includingIn r.assignment
    return .values left e.tree
  bump
  let e ← includingIn (expression r)
  return .keys left e.tree

def checkEachDecl (d : VarDecl) : Parser Unit := do
  match d.declarators with
  | [one] =>
    if one.init.isSome && ((← read).strict || (← sees "of")) then
      note one.target.span.start .initializerInEachHead
  | _ => (d.declarators.drop 1).forM fun d => note d.target.span.start .severalEachBindings

def forHead (r : Rules) : Parser ForHead := do
  if let some kind ← declarationKind? then
    let d ← variableDeclaration r kind true
    if ← seesAny ["of", "in"] then
      checkEachDecl d
      return ← eachHead r d.tree
    expect ";"
    return ← stepsHead r d.tree
  if ← eat ";" then return ← stepsHead r .absent
  let e ← inContext (fun c => { c with includeIn := false }) (expression r)
  if ← seesAny ["of", "in"] then
    let target ← asPattern .assignment e
    return ← eachHead r target.tree
  expect ";"
  stepsHead r e.tree

def forLoop (r : Rules) : Parser Tree := do
  let start ← startPosition
  bump
  let awaitStart ← startPosition
  let isAwait ← eat "await"
  expect "("
  let head ← inContext (fun c => { c with inForHead := true, inForAwaitHead := isAwait })
    (forHead r)
  expect ")"
  let body ← loopBody r
  let span ← spanFrom start
  match head with
  | .values left subject => return .node (.forOf isAwait) span [left, subject, body]
  | .keys left subject =>
    if isAwait then failAt awaitStart .awaitWithoutOf
    return .node .forIn span [left, subject, body]
  | .steps init test update =>
    if isAwait then failAt awaitStart .awaitWithoutOf
    return .node .loop span [init, test, update, body]

end NotebookCell.Script.Parser
