import NotebookCell.Script.Parser.Rules

/-!
# Binary operators

Precedence climbing: `binaryTail` extends a left operand by all operators that bind tighter than a
bound.
-/

namespace NotebookCell.Script.Parser

/-- The binary operator that is the current token; `in` is one only where the context says so. -/
def binaryOperator? : Parser (Option String) := do
  match ← currentToken with
  | some (.word "in" true) => return if (← read).includeIn then some "in" else none
  | some (.word "instanceof" true) => return some "instanceof"
  | some token => return token.binaryOperator?
  | none => return none

def joinedBy? : Expr → Option String
  | .node _ (.binary operator) _ => some operator
  | _ => none

def isLogical (e : Expr) : Bool := joinedBy? e == some "&&" || joinedBy? e == some "||"

/-- Unary and `await` expressions are no base of a power. -/
def isPowerless : Expr → Bool
  | .node _ (.unary _) _ => true
  | .node _ .await _ => true
  | _ => false

/-- `??` does not mix with `&&` and `||` unless parentheses tell them apart. -/
def refuseMixed (operator : String) (left right : Expr) : Parser Unit := do
  if operator == "??" then
    if isLogical left then note left.span.start .mixedCoalescing
    if isLogical right then note right.span.start .mixedCoalescing
  else if (operator == "&&" || operator == "||") && joinedBy? left == some "??" then
    note left.span.start .mixedCoalescing

/-- Extends a left operand by the operators that bind tighter than `bound`. Each round takes an
operator, so `fuel` bounds them. -/
def binaryTailWithin (unary : Parser Expr) : (fuel : Nat) → Expr → (bound : Nat) → Parser Expr
  | 0, _, _ => do failWith ⟨← startPosition, .nestingTooDeep⟩
  | fuel + 1, left, bound => do
    match ← binaryOperator? with
    | none => return left
    | some operator =>
      let precedence := binaryPrecedence operator
      if precedence ≤ bound then return left
      bump
      if operator == "**" && isPowerless left then failHere .exponentOfUnary
      let first ← unary
      let right ← binaryTailWithin unary fuel first
        (if operator == "**" then precedence - 1 else precedence)
      refuseMixed operator left right
      let joined := .node (left.span.to right.span) (.binary operator) [left, right]
      binaryTailWithin unary fuel joined bound

def binaryTail (r : Rules) (left : Expr) : Parser Expr := do
  binaryTailWithin r.unary (← read).budget left 0

end NotebookCell.Script.Parser
