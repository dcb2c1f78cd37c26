import NotebookCell.Script.Module
import NotebookCell.Script.Parser.Statement

/-!
# Module items

Import and export declarations, which stand at the top level of a module only.
-/

namespace NotebookCell.Script.Parser

def moduleSpecifier : Parser Span := do
  match ← required with
  | .text _ _ =>
    bump
    previousSpan
  | _ => failUnexpected "a string literal"

def eatAttributesWord : Parser Bool := do
  if ← eat "assert" then return true
  eat "with"

/-- The object after `with`, or after `assert`, on the line of the specifier. -/
def attributes? (r : Rules) : Parser (Option Expr) := do
  if ← newlineBefore then return none
  if ← eatAttributesWord then some <$> objectLiteral r else return none

/-! ## Imports -/

def importedBinding : Parser Ident :=
  inContext (fun c => { c with inAsync := false, inGenerator := false }) bindingIdentifier

def exportName : Parser ExportName := do
  match ← currentToken with
  | some (.word _ _) => return .ident (← identifierName)
  | some (.text _ _) =>
    bump
    return .text (← previousSpan)
  | _ => failUnexpected "identifier or string"

/-- `a`, `a as b` or `"a" as b` -/
def importSpecifier : Parser ImportSpecifier := do
  let token ← currentToken
  let name ← exportName
  if ← eat "as" then return .named (some name) (← importedBinding)
  match name, token with
  | .ident id, _ => return .named none id
  | .text span, some (.text value _) => failAt span.start (.stringBinding value)
  | .text span, _ => failAt span.start (.stringBinding "")

def importSpecifiers : Parser (List ImportSpecifier) := do
  bump
  let found ← commaSeparated "\x7d" (fun _ => importSpecifier) fun _ => return
  expect "\x7d"
  return found

def importClause : Parser (List ImportSpecifier) := do
  if ← eat "*" then
    expect "as"
    return [.namespace (← importedBinding)]
  if ← sees "\x7b" then importSpecifiers else return []

/-- `source` or `defer` before what is bound is the phase in which the module is imported, unless it
is itself the name that is bound. Then it is returned, else the binding after the phase, if there is
one. -/
def afterPhase (phase : Ident) : Parser (Option Ident) := do
  if ← sees "," then return some phase
  if ← sees "from" then
    if ← peeks "from" then return some (← importedBinding) else return some phase
  if ← seesAny ["\x7b", "*"] then return none
  return some (← importedBinding)

/-- The binding that stands first, without braces. -/
def defaultBinding? : Parser (Option Ident) := do
  if !(← seesIdentifier) then return none
  let id ← importedBinding
  if id.name == "source" || id.name == "defer" then afterPhase id else return some id

/-- What an import binds, up to its `from`. -/
def importBindings : Parser (List ImportSpecifier) := do
  match ← defaultBinding? with
  | none => importClause
  | some id =>
    if ← sees "from" then return [.default id]
    expect ","
    return .default id :: (← importClause)

/-- The rest of an import declaration, from its specifier string on. -/
def importFrom (r : Rules) (start : Nat) (specifiers : List ImportSpecifier) (ending : Parser Unit) :
    Parser ModuleItem := do
  let source ← moduleSpecifier
  let attributes ← attributes? r
  ending
  return .importDecl ⟨← spanFrom start, specifiers, source, attributes⟩

def importDeclaration (r : Rules) : Parser ModuleItem := do
  let start ← startPosition
  bump
  if let some (.text _ _) ← currentToken then
    return ← importFrom r start [] do let _ ← eatSemicolon
  let specifiers ← importBindings
  expect "from"
  importFrom r start specifiers expectSemicolon

/-! ## Exports -/

/-- `a`, `a as b` or `"a" as b`: the name of what is exported and the complete tree. -/
structure ExportSpecifier where
  name : ExportName
  tree : Tree

def exportSpecifier : Parser ExportSpecifier := do
  let name ← exportName
  if ← eat "as" then
    let outer ← exportName
    return ⟨name, .node .importSpecifier (name.span.to outer.span) [name.tree, outer.tree]⟩
  return ⟨name, .node .importSpecifier name.span [name.tree]⟩

/-- What a module exports of its own is named by an identifier that no version of the language
reserves in all code. -/
def checkExported : ExportName → Parser Unit
  | .ident id => do
    if reservedWords.contains id.name || id.name == "package" then
      note id.span.start (.exportedReserved id.name)
  | .text span => note span.start .exportedString

/-- Names in braces, of this module or of the one after `from`. -/
def exportNames (r : Rules) : Parser (List Tree) := do
  expect "\x7b"
  let names ← commaSeparated "\x7d" (fun _ => exportSpecifier) fun _ => return
  expect "\x7d"
  if ← eat "from" then
    let source ← moduleSpecifier
    let attributes ← attributes? r
    expectSemicolon
    return names.map (·.tree) ++ [.node .importSource source [], attributesTree attributes]
  names.forM fun s => checkExported s.name
  let _ ← eatSemicolon
  return names.map (·.tree)

def exportAll (r : Rules) : Parser (List Tree) := do
  let name ← if ← eat "as" then some <$> exportName else pure none
  expect "from"
  let source ← moduleSpecifier
  let attributes ← attributes? r
  expectSemicolon
  return ((name.map ExportName.tree).toList ++
    [.node .importSource source [], attributesTree attributes])

/-- What follows `export default`. -/
def exportDefault (r : Rules) : Parser (List Tree) := do
  if ← sees "class" then
    let (name, cls) ← classFrom r optionalClassName
    return [.ofIdent? name, cls]
  let start ← startPosition
  let isAsync ← seesAsyncFunction
  if isAsync then bump
  if ← sees "function" then
    let (name, fn) ← namedFunction r start isAsync fun _ => optionalName
    return [.ofIdent? name, fn]
  let e ← includingIn r.assignment
  expectSemicolon
  return [e.tree]

/-- What an export declares or lists, after its keyword. -/
def exported (r : Rules) : Parser (List Tree) := do
  let _ ← required
  if ← eat "*" then return ← exportAll r
  if ← eat "default" then return ← exportDefault r
  if ← sees "class" then return [← classDeclaration r]
  let start ← startPosition
  let isAsync ← seesAsyncFunction
  if isAsync then bump
  if ← sees "function" then return [← functionDeclaration r start isAsync]
  match ← declarationKind? with
  | some kind => return [(← variableDeclaration r kind false).tree]
  | none => exportNames r

def exportDeclaration (r : Rules) : Parser ModuleItem := do
  let start ← startPosition
  bump
  let children ← exported r
  return .exportDecl (← spanFrom start) children

/-! ## Items -/

/-- An `import` that begins no expression. -/
def seesImportDeclaration : Parser Bool := do
  if !(← sees "import") then return false
  if ← peeks "(" then return false
  return !(← peeks ".")

def moduleItem (r : Rules) : Parser ModuleItem := do
  if ← sees "export" then return ← exportDeclaration r
  if ← seesImportDeclaration then return ← importDeclaration r
  return .stmt (← r.statement true)

end NotebookCell.Script.Parser
