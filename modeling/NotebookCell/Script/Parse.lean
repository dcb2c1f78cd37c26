import NotebookCell.Script.Parser.Item

/-!
# Reading modules and scripts

`rules` ties the knot of the grammar: the rules of one level refer to those of the level below, and
the length of the text bounds how deep a text can nest. A text is accepted if no fault was thrown
and none was noted; a thrown fault is reported before the ones that were noted.
-/

namespace NotebookCell.Script

open Script.Parser

def Rules.bottom : Rules where
  assignment := do failWith ⟨← startPosition, .nestingTooDeep⟩
  unary := do failWith ⟨← startPosition, .nestingTooDeep⟩
  heritage := do failWith ⟨← startPosition, .nestingTooDeep⟩
  constructed := do failWith ⟨← startPosition, .nestingTooDeep⟩
  binding := do failWith ⟨← startPosition, .nestingTooDeep⟩
  statement _ := do failWith ⟨← startPosition, .nestingTooDeep⟩

def Rules.above (r : Rules) : Rules where
  assignment := assignmentExpression r
  unary := unaryExpression r
  heritage := leftHand r
  constructed := newExpression r
  binding := bindingPattern r
  statement := Parser.statement r

def rules : (depth : Nat) → Rules
  | 0 => .bottom
  | depth + 1 => (rules depth).above

/-! ## Texts -/

/-- A bound for the number of rounds and levels that a text can need. -/
def budget (text : String) : Nat := 3 * text.length + 8

def Context.start (inModule : Bool) (budget : Nat) : Context where
  inModule
  strict := inModule
  includeIn := false
  topLevel := true
  inFunction := false
  inAsync := false
  inGenerator := false
  inParameters := false
  inStaticBlock := false
  inField := false
  inClass := false
  allowsSuper := false
  allowsNewTarget := false
  allowsBreak := false
  allowsContinue := false
  inForHead := false
  inForAwaitHead := false
  labels := []
  budget

def State.start (text : String) : State where
  cursor := .start text
  current := none
  next := none
  previous := ⟨0, 0⟩
  faults := []
  arrowStart := none
  trailingCommas := []

def runOn {α : Type} (inModule : Bool) (text : String) (p : Parser α) : Except Fault α :=
  match (p (Context.start inModule (budget text)) (State.start text)).val with
  | .fault f _ => .error f
  | .result a s =>
    match s.faults.getLast? with
    | some f => .error f
    | none => .ok a

/-- A line after `#!` may come first. -/
def takeHashbang : Parser Unit := do
  if let some ⟨.hashbang, _, _⟩ ← current then bump

def moduleItems (r : Rules) : Parser (List ModuleItem) := do
  -- modules are strict anyway, but a null character is passed over here
  let _ ← current
  many do
    if ← atTextEnd then return none
    some <$> moduleItem r

/-- A module spans the text from its first token to its last. -/
def moduleText (r : Rules) : Parser Module := do
  let start ← startPosition
  takeHashbang
  let items ← moduleItems r
  return ⟨← spanFrom start, items⟩

def programText (r : Rules) : Parser Program := do
  let _ ← startPosition
  takeHashbang
  return ⟨← statements r true false⟩

def Module.ofText (text : String) : Except Fault Module :=
  runOn true text (moduleText (rules (budget text)))

def Program.ofText (text : String) : Except Fault Program :=
  runOn false text (programText (rules (budget text)))

end NotebookCell.Script
