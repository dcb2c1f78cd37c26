import NotebookCell.Script.Parser.Operator

/-!
# Variable declarations
-/

namespace NotebookCell.Script.Parser

/-- The declarator of a loop head needs no initializer before `in` and `of`. -/
def declarator (r : Rules) (kind : VarKind) (inHead : Bool) : Parser Declarator := do
  let start ← startPosition
  if kind ≠ .var then refuseLet
  let target ← r.binding
  if inHead && (← seesAny ["in", "of"]) then return ⟨← spanFrom start, target, none⟩
  if ← eat "=" then
    let value ← r.assignment
    return ⟨← spanFrom start, target, some value⟩
  if kind = .constant && !inHead then note start .constWithoutInit
  else if !isName target then failAt start .patternWithoutInit
  return ⟨← spanFrom start, target, none⟩

/-- Declarators with commas between them. `wordSpan` is that of the keyword. -/
def declarators (r : Rules) (kind : VarKind) (inHead : Bool) (wordSpan : Span) :
    Parser (List Declarator) :=
  loop ([] : List Declarator) fun found => do
    if (← sees ";") || (← atEnd) then
      let last ← previousSpan
      note (if last = wordSpan then last.stop else last.start) .trailingCommaInDeclaration
      return .done found.reverse
    let d ← declarator r kind inHead
    if ← eat "," then return .again (d :: found)
    return .done (d :: found).reverse

/-- Where a declaration has to end and does not, its line is skipped. -/
def skipLine (r : Rules) : Parser Unit := do
  noteHere .semicolonRequired
  attempt (expression r)
  loop () fun _ => do
    if ← eatSemicolon then return .done ()
    bump
    if let some ⟨.fault _, _, _⟩ ← current then return .done ()
    return .again ()

/-- A declaration from its keyword on; the head of a loop ends it otherwise than by a semicolon. -/
def variableDeclaration (r : Rules) (kind : VarKind) (inHead : Bool) : Parser VarDecl := do
  let start ← startPosition
  bump
  let wordSpan ← previousSpan
  let ds ← inContext (fun c => { c with includeIn := c.includeIn || kind ≠ .var || !inHead })
    (declarators r kind inHead wordSpan)
  if !inHead then
    if !(← eatSemicolon) then skipLine r
  return ⟨← spanFrom start, kind, ds⟩

/-- The token after a `let` shows that it declares something. -/
def peeksBinding : Parser Bool := do
  let token : Option Token := (← peek).map (·.token)
  match token with
  | some (.word name bare) =>
    return !bare || !isKeyword name || ["let", "yield", "await"].contains name
  | some (.punct p) => return p == "\x7b" || p == "["
  | _ => return false

def declarationKind? : Parser (Option VarKind) := do
  if ← sees "var" then return some .var
  if ← sees "const" then return some .constant
  if ← sees "let" then
    if ← peeksBinding then return some .block
  return none

/-! ## Using -/

/-- The token after a `using` is a name on its line. -/
def peeksUsed : Parser Bool := do
  if ← peeksOnLine then peeksIdentifier else return false

/-- A declaration with `using`, which is the current token and which cells do not have; `start` is
where it begins, at an `await` perhaps. -/
def usingDeclaration (r : Rules) (start : Nat) : Parser Tree := do
  bump
  let ds ← loop ([] : List Declarator) fun found => do
    if (← sees ";") || (← atEnd) then
      note (← previousSpan).start .trailingCommaInDeclaration
      return .done found.reverse
    let d ← declarator r .var false
    if ← eat "," then return .again (d :: found)
    return .done (d :: found).reverse
  note start .usingNotEnabled
  for d in ds do
    if !isName d.target then note start .usingPattern
    if d.init.isNone then note start .usingWithoutInit
  expectSemicolon
  return VarDecl.tree ⟨← spanFrom start, .constant, ds⟩

end NotebookCell.Script.Parser
