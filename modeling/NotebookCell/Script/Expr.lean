import NotebookCell.Script.Tree

/-!
# Expressions, patterns and variable declarations

Expressions as far as their shape decides what they may become: a pattern, an assignment target, a
call. Functions, arrow functions and classes are closed, and kept as the tree of their text; so are
statements, which never become anything else.
-/

namespace NotebookCell.Script

mutual

inductive Expr where
  | ident (id : Ident)
  | node (span : Span) (form : Form) (operands : List Expr)
  | object (span : Span) (props : List Property)
  | assign (span : Span) (operator : String) (target : Pattern) (value : Expr)
  /-- a function, an arrow function or a class -/
  | closed (t : Tree)

inductive Property where
  | shorthand (id : Ident)
  | keyValue (key : Tree) (value : Expr)
  /-- `a = 1`, which is at home in patterns -/
  | initialized (span : Span) (id : Ident) (value : Expr)
  | spread (span : Span) (e : Expr)
  /-- a method or an accessor -/
  | closed (t : Tree)

inductive Pattern where
  | ident (id : Ident)
  | object (span : Span) (props : List PatternProperty)
  | array (span : Span) (elements : List Pattern)
  | withDefault (span : Span) (target : Pattern) (value : Expr)
  | rest (span : Span) (target : Pattern)
  /-- what an expression denotes, as in `[a.b] = c` -/
  | target (e : Expr)
  /-- an empty place of an array pattern -/
  | hole
  /-- stands where recovery from an error left no pattern -/
  | invalid (span : Span)

inductive PatternProperty where
  | keyValue (key : Tree) (value : Pattern)
  /-- `{a}` or `{a = 1}` -/
  | shorthand (span : Span) (id : Ident) (default : Option Expr)
  | rest (span : Span) (target : Pattern)

end

/-! ## Spans -/

def Expr.span : Expr → Span
  | .ident id => id.span
  | .node span .. => span
  | .object span _ => span
  | .assign span .. => span
  | .closed t => t.span

def Property.span : Property → Span
  | .shorthand id => id.span
  | .keyValue key value => key.span.to value.span
  | .initialized span .. => span
  | .spread span _ => span
  | .closed t => t.span

def Pattern.span : Pattern → Span
  | .ident id => id.span
  | .object span _ => span
  | .array span _ => span
  | .withDefault span .. => span
  | .rest span _ => span
  | .target e => e.span
  | .hole => ⟨0, 0⟩
  | .invalid span => span

/-! ## The complete tree -/

mutual

def Expr.tree : Expr → Tree
  | .ident id => .node (.reference id.name) id.span []
  | .node span form operands => .node (.expr form) span (exprTrees operands)
  | .object span props => .node .object span (propertyTrees props)
  | .assign span operator target value =>
    .node (.assign operator) span [target.tree.asPlace, value.tree]
  | .closed t => t

def exprTrees : List Expr → List Tree
  | [] => []
  | e :: es => e.tree :: exprTrees es

def Property.tree : Property → Tree
  | .shorthand id => .ofIdent id
  | .keyValue key value => .node .keyValue (key.span.to value.span) [key, value.tree]
  | .initialized span id value => .node .initialized span [.ofIdent id, value.tree]
  | .spread span e => .node (.expr .spread) span [e.tree]
  | .closed t => t

def propertyTrees : List Property → List Tree
  | [] => []
  | p :: ps => p.tree :: propertyTrees ps

def Pattern.tree : Pattern → Tree
  | .ident id => .ofIdent id
  | .object span props => .node .objectPattern span (patternPropertyTrees props)
  | .array span elements => .node .arrayPattern span (patternTrees elements)
  | .withDefault span target value => .node .withDefault span [target.tree, value.tree]
  | .rest span target => .node .rest span [target.tree]
  | .target e => e.tree
  | .hole => .absent
  | .invalid span => .node .absent span []

def patternTrees : List Pattern → List Tree
  | [] => []
  | p :: ps => p.tree :: patternTrees ps

def PatternProperty.tree : PatternProperty → Tree
  | .keyValue key value => .node .keyValue (key.span.to value.span) [key, value.tree]
  | .shorthand span id none => .node .initialized span [.ofIdent id]
  | .shorthand span id (some value) => .node .initialized span [.ofIdent id, value.tree]
  | .rest span target => .node .rest span [target.tree]

def patternPropertyTrees : List PatternProperty → List Tree
  | [] => []
  | p :: ps => p.tree :: patternPropertyTrees ps

end

def exprTree? : Option Expr → Tree
  | some e => e.tree
  | none => .absent

def patternTree? : Option Pattern → Tree
  | some p => p.tree
  | none => .absent

/-! ## Variable declarations -/

structure Declarator where
  span : Span
  target : Pattern
  init : Option Expr

structure VarDecl where
  span : Span
  kind : VarKind
  declarators : List Declarator

def Declarator.tree (d : Declarator) : Tree :=
  .node .declarator d.span [d.target.tree, exprTree? d.init]

def VarDecl.tree (d : VarDecl) : Tree :=
  .node (.varDecl d.kind) d.span (d.declarators.map Declarator.tree)

/-! ## Assignment targets -/

/-- The names that strict code may not assign to. -/
def isStrictReserved (name : String) : Bool := name == "eval" || name == "arguments"

/-- A single reference that `++`, `--` and compound assignment may write to. -/
def Expr.isSimpleTarget (strict : Bool) : Expr → Bool
  | .ident id => !(strict && isStrictReserved id.name)
  | .node _ (.member _ .plain) _ => true
  | .node _ (.privateMember _ .plain) _ => true
  | .node _ (.index .plain) _ => true
  | .node _ .paren [e] => e.isSimpleTarget strict
  | _ => false

/-- Accesses and parenthesised expressions can stand on the left of an assignment. -/
def Expr.isPlace : Expr → Bool
  | .node _ form _ =>
    match form with
    | .member .. | .privateMember .. | .index _ | .paren => true
    | .call link => link != .plain
    | _ => false
  | _ => false

end NotebookCell.Script
