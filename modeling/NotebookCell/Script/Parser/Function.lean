import NotebookCell.Script.Parser.Pattern

/-!
# Blocks, functions and classes

A function or class is closed as soon as it is read: what is kept is its tree.
-/

namespace NotebookCell.Script.Parser

/-! ## Blocks -/

/-- The directive that makes code strict. -/
def isUseStrict (directive : String) : Bool :=
  directive == "'use strict'" || directive == "\"use strict\""

/-- The text of a statement that is nothing but a string. -/
def directive? : Tree → Option String
  | .node .exprStmt _ [.node (.expr (.literal (.text raw))) _ _] => some raw
  | _ => none

/-- The current token is the directive that makes code strict. -/
def seesUseStrict : Parser Bool := do
  match ← currentToken with
  | some (.text _ raw) => return isUseStrict raw
  | _ => return false

/-- A statement of a list follows. A list within braces that is not closed is noted. -/
def seesStatement (braces : Bool) : Parser Bool := do
  if !braces then return !(← atTextEnd)
  if ← atEnd then
    let got ← shownToken
    noteHere (.expected "\x7d" got)
    return false
  return !(← sees "\x7d")

/-- Statements up to the end or, within braces, up to the closing one, which is taken. Where
directives count, the first token decides whether all of them are strict. -/
def statements (r : Rules) (directives braces : Bool) : Parser (List Tree) := do
  let strict ← if directives then seesUseStrict else pure false
  let found ← inContext (fun c => { c with strict := c.strict || strict }) <| many do
    if ← seesStatement braces then some <$> r.statement true else return none
  if braces then
    if !(← atEnd) then bump
  return found

def block (r : Rules) (directives : Bool) : Parser Tree := do
  let start ← startPosition
  expect "\x7b"
  let body ← nested (statements r directives true)
  return .node .block (← spanFrom start) body

/-! ## Functions -/

/-- Where the directive stands that makes the body strict. -/
def useStrict? : List Tree → Option Nat
  | [] => none
  | s :: rest =>
    match directive? s with
    | some raw => if isUseStrict raw then some s.span.start else useStrict? rest
    | none => none

/-- Runs the parser of a function body, to which no label and no earlier arrow belongs. -/
def asBody {α : Type} (isAsync isGenerator ownThis : Bool) (p : Parser α) : Parser α := do
  let arrowStart := (← state).arrowStart
  setArrowStart none
  let a ← inContext (fun c => { c with
    inAsync := isAsync, inGenerator := isGenerator, inFunction := true,
    allowsNewTarget := c.allowsNewTarget || ownThis, allowsBreak := false, allowsContinue := false,
    labels := [] }) p
  setArrowStart arrowStart
  return a

/-- A body behind patterns or defaults has no directive that makes it strict. -/
def checkDirective (simple : Bool) (body : Tree) : Parser Unit := do
  if !simple then
    if let some position := useStrict? body.children then note position .useStrictWithPatterns

def functionBody (r : Rules) (isAsync isGenerator simple : Bool) : Parser Tree :=
  asBody isAsync isGenerator true do
    let b ← includingIn (block r true)
    checkDirective simple b
    return b

def functionRest (r : Rules) (isAsync isGenerator : Bool) (params : Parser (List Pattern)) :
    Parser (List Pattern × Tree) :=
  inContext (fun c => { c with inAsync := isAsync, inGenerator := isGenerator }) do
    expect "("
    let ps ← inContext (fun c => { c with inParameters := true, inFunction := false }) params
    expect ")"
    let body ← inContext (fun c => { c with inStaticBlock := false })
      (functionBody r isAsync isGenerator (ps.all isName))
    return (ps, body)

/-- A function with its text from `start` on. -/
def functionFrom (r : Rules) (start : Nat) (isAsync isGenerator : Bool)
    (params : Parser (List Pattern)) : Parser Tree := do
  let (ps, body) ← functionRest r isAsync isGenerator params
  return .node (.function isAsync isGenerator) (← spanFrom start)
    (patternTrees ps ++ [body])

def asMethod {α : Type} (p : Parser α) : Parser α :=
  inContext (fun c => { c with allowsSuper := true, inField := false }) p

/-- The function has a `this` of its own, and belongs to no object. -/
def asPlain {α : Type} (p : Parser α) : Parser α :=
  inContext (fun c => { c with allowsSuper := false, inField := false }) p

/-- A function from its keyword on; it starts at `start`, where an `async` may stand before. -/
def namedFunction (r : Rules) (start : Nat) (isAsync : Bool)
    (name : (isGenerator : Bool) → Parser (Option Ident)) : Parser (Option Ident × Tree) := do
  bump
  let isGenerator ← eat "*"
  let name ← name isGenerator
  let fn ← asPlain (functionFrom r start isAsync isGenerator (parameters r))
  return (name, fn)

/-- The name of a declared function is bound outside of it. -/
def functionDeclaration (r : Rules) (start : Nat) (isAsync : Bool) : Parser Tree := do
  let (name, fn) ← namedFunction r start isAsync fun _ => asPlain (some <$> bindingIdentifier)
  return .node .funDecl fn.span [.ofIdent? name, fn]

def optionalName : Parser (Option Ident) := do
  if ← seesIdentifier then some <$> bindingIdentifier else return none

/-- The name of a function expression is bound inside of it. -/
def functionExpression (r : Rules) (start : Nat) (isAsync : Bool) :
    Parser (Option Ident × Tree) :=
  namedFunction r start isAsync fun isGenerator =>
    inContext (fun c => { c with inAsync := isAsync, inGenerator := isGenerator }) optionalName

/-! ## Accessors -/

/-- A parameter named `this`, which only an escape can spell, does not count. -/
def isCounted : Pattern → Bool
  | .ident id => id.name != "this"
  | _ => true

/-- Parameters of a `get` accessor named at `position`. -/
def getterParameters (r : Rules) (position : Nat) : Parser (List Pattern) := do
  let ps ← parameters r
  if ps.any isCounted then note position .getterParameters
  return ps

/-- Parameters of a `set` accessor named at `position`. -/
def setterParameters (r : Rules) (position : Nat) : Parser (List Pattern) := do
  let ps ← parameters r
  if ps.countP isCounted ≠ 1 then note position .setterParameters
  if let .rest span _ :: _ := ps then note span.start .restInSetter
  return ps

/-! ## Classes -/

def memberName (r : Rules) : Parser PropertyName := do
  if ← sees "#" then
    let id ← hiddenName
    if id.name == "constructor" then note id.span.start .hiddenConstructor
    return .hidden id
  propertyName r

def methodMember (start : Nat) (isStatic : Bool) (key : PropertyName) (fn : Parser Tree) :
    Parser Tree := do
  let fn ← asMethod fn
  return .node (.memberMethod isStatic) (← spanFrom start) [key.tree, fn]

def constructorMember (r : Rules) (start : Nat) (key : PropertyName) : Parser Tree := do
  expect "("
  let ps ← constructorParameters r
  expect ")"
  let body ← functionBody r false false (ps.all isName)
  return .node .constructor (← spanFrom start) (key.tree :: (patternTrees ps ++ [body]))

def fieldMember (r : Rules) (start : Nat) (isStatic : Bool) (key : PropertyName) :
    Parser Tree := do
  if key.isConstructor then failAt key.span.start .constructorField
  inContext (fun c => { c with includeIn := true, inField := true }) do
    let value ← if ← eat "=" then some <$> r.assignment else pure none
    if !(← eatSemicolon) then noteHere .semicolonRequired
    return .node (.field isStatic) (← spanFrom start) [key.tree, exprTree? value]

/-- `static { … }` after its first word. -/
def staticBlock (r : Rules) : Parser Tree :=
  inContext (fun c => { c with inStaticBlock := true, inField := true }) do
    block r false

/-- What follows a member name shows a field; `orLineBreak` tells if a line break does. -/
def seesFieldEnd (orLineBreak : Bool) : Parser Bool := do
  if ← seesAny ["=", "\x7d", ";"] then return true
  if orLineBreak then seesSemicolon else return false

/-- An accessor named after the word `get` or `set`, which is read. -/
def accessorMember (r : Rules) (start : Nat) (isStatic : Bool) (role : Ident) : Parser Tree := do
  let position := role.span.start
  let key ← memberName r
  if key.isConstructor then note position .constructorAccessor
  let params := if role.name == "get" then getterParameters r position
    else setterParameters r position
  methodMember start isStatic key (functionFrom r start false false params)

/-- An asynchronous method after its `async`. -/
def asyncMember (r : Rules) (start : Nat) (isStatic : Bool) : Parser Tree := do
  let isGenerator ← eat "*"
  let key ← memberName r
  if key.isConstructor then failAt key.span.start .constructorAsync
  methodMember start isStatic key (functionFrom r start true isGenerator (parameters r))

/-- A member named `get` or `set` is an accessor, unless what follows shows a field of that name. -/
def accessorRole? (key : PropertyName) : Parser (Option Ident) := do
  let generatorBelow := (← newlineBefore) && (← sees "*")
  let fieldEnds ← seesFieldEnd false
  match key with
  | .word id =>
    let isRole := id.name == "get" || id.name == "set"
    return if isRole && !fieldEnds && !generatorBelow then some id else none
  | _ => return none

/-- A member at `start`; `static?` is the position of its `static`. -/
def memberRest (r : Rules) (start : Nat) (static? : Option Nat) : Parser Tree := do
  let isStatic := static?.isSome
  if ← eat "*" then
    let key ← memberName r
    if key.isConstructor then note start .constructorGenerator
    return ← methodMember start isStatic key (functionFrom r start false true (parameters r))
  let key ← memberName r
  if ← sees "(" then
    if key.isConstructor then
      let t ← constructorMember r start key
      if let some position := static? then note position .staticConstructor
      return t
    return ← methodMember start isStatic key (functionFrom r start false false (parameters r))
  let role ← accessorRole? key
  if role.isNone then
    if ← seesFieldEnd true then return ← fieldMember r start isStatic key
  if let .word ⟨_, "async"⟩ := key then
    if !(← newlineBefore) then return ← asyncMember r start isStatic
  match role with
  | some id => accessorMember r start isStatic id
  | none => failUnexpected "* for generator, private key, identifier or async"

/-- A member whose `static` is taken. -/
def staticMember (r : Rules) (start : Nat) : Parser Tree := do
  let key := PropertyName.word ⟨← spanFrom start, "static"⟩
  if ← sees "(" then
    return ← methodMember start false key (functionFrom r start false false (parameters r))
  if ← seesFieldEnd false then return ← fieldMember r start false key
  if ← sees "\x7b" then return ← staticBlock r
  if ← sees "static" then
    if ← peeks "\x7b" then
      note start .modifierNotAllowed
      bump
      return ← staticBlock r
  memberRest r start (some start)

def member (r : Rules) : Parser Tree := do
  let start ← startPosition
  if ← eat "static" then staticMember r start else memberRest r start none

def isConstructorMember (t : Tree) : Bool :=
  match t.label with
  | .constructor => true
  | _ => false

/-- Members up to the closing brace; a class has one constructor. -/
def members (r : Rules) : Parser (List Tree) :=
  loop ([] : List Tree) fun found => do
    if (← atEnd) || (← sees "\x7d") then return .done found.reverse
    if ← sees ";" then
      bump
      return .again (.node .empty (← previousSpan) [] :: found)
    let t ← inContext (fun c => { c with allowsSuper := true }) (member r)
    if isConstructorMember t && found.any isConstructorMember then
      note t.span.start .repeatedConstructor
    return .again (t :: found)

/-- A further `extends` is noted and passed over, if there is one. -/
def repeatedHeritage (r : Rules) : Parser Unit := do
  if ← eat "extends" then
    note (← previousSpan).start .repeatedExtends
    let _ ← r.heritage

/-- A class from its keyword on; all of it is strict. -/
def classFrom (r : Rules) (name : Parser (Option Ident)) : Parser (Option Ident × Tree) :=
  inContext (fun c => { c with strict := true, inClass := true }) do
    let start ← startPosition
    expect "class"
    let name ← name
    let heritage ← if ← eat "extends" then some <$> r.heritage else pure none
    -- two further clauses are passed over
    repeatedHeritage r
    repeatedHeritage r
    expect "\x7b"
    let ms ← members r
    if ← atEnd then
      let got ← shownToken
      noteHere (.expected "\x7d" got)
    else expect "\x7d"
    return (name, .node .classDef (← spanFrom start) (ms ++ [exprTree? heritage]))

def classDeclaration (r : Rules) : Parser Tree := do
  let (name, cls) ← classFrom r do
    refuseLet
    some <$> bindingIdentifier
  return .node .classDecl cls.span [.ofIdent? name, cls]

def optionalClassName : Parser (Option Ident) := do
  if ← seesIdentifier then
    refuseLet
    some <$> bindingIdentifier
  else return none

end NotebookCell.Script.Parser
