import NotebookCell.Script.Tree

/-!
# Walks with ancestors

A walk goes through a tree depth first and hands its visitor each tracked node together with the
chain of tracked nodes above it. Only nodes of a `TrackedKind` are tracked; the walk passes through
all others. The chain grows at a node that is descended into and shrinks behind its children.
-/

namespace NotebookCell

open Script

inductive TrackedKind where
  | module
  | block
  | ifStatement
  | forStatement
  | forIn
  | forOf
  | whileStatement
  | doWhile
  | labeled
  | switchCase
  | tryStatement
  | withStatement
  | expression
  | importDecl
  | functionDecl
  | classDecl
  /-- parameters and body of a function or method -/
  | function
  | arrow
  /-- heritage and body of a class -/
  | classDef
  /-- `get` and `set` of an object literal -/
  | accessor
  | varDecl
  | declarator
  | objectPattern
  | arrayPattern
  deriving DecidableEq, Repr

namespace TrackedKind

def name : TrackedKind → String
  | module => "Module"
  | block => "BlockStatement"
  | ifStatement => "IfStatement"
  | forStatement => "ForStatement"
  | forIn => "ForInStatement"
  | forOf => "ForOfStatement"
  | whileStatement => "WhileStatement"
  | doWhile => "DoWhileStatement"
  | labeled => "LabeledStatement"
  | switchCase => "SwitchCase"
  | tryStatement => "TryStatement"
  | withStatement => "WithStatement"
  | expression => "Expression"
  | importDecl => "ImportDeclaration"
  | functionDecl => "FunctionDeclaration"
  | classDecl => "ClassDeclaration"
  | function => "Function"
  | arrow => "ArrowFunction"
  | classDef => "Class"
  | accessor => "Accessor"
  | varDecl => "VariableDeclaration"
  | declarator => "VariableDeclarator"
  | objectPattern => "ObjectPattern"
  | arrayPattern => "ArrayPattern"

def opensScope : TrackedKind → Bool
  | function | arrow | classDef | accessor => true
  | _ => false

def destructures : TrackedKind → Bool
  | objectPattern | arrayPattern => true
  | _ => false

end TrackedKind

def Script.Label.kind? : Label → Option TrackedKind
  | .expr form => if form.isOperandOnly then none else some .expression
  | .reference _ | .object | .assign _ | .functionExpr | .arrowExpr | .classExpr => some .expression
  | .objectPattern => some .objectPattern
  | .arrayPattern => some .arrayPattern
  | .getter | .setter => some .accessor
  | .function _ _ => some .function
  | .arrow _ => some .arrow
  | .classDef => some .classDef
  | .block => some .block
  | .branch => some .ifStatement
  | .loop => some .forStatement
  | .forIn => some .forIn
  | .forOf _ => some .forOf
  | .whileDo => some .whileStatement
  | .doWhile => some .doWhile
  | .labeled => some .labeled
  | .case => some .switchCase
  | .tryCatch => some .tryStatement
  | .withObject => some .withStatement
  | .varDecl _ => some .varDecl
  | .declarator => some .declarator
  | .funDecl => some .functionDecl
  | .classDecl => some .classDecl
  | .importDecl => some .importDecl
  | .module => some .module
  | _ => none

structure Ancestor where
  kind : TrackedKind
  span : Span
  deriving DecidableEq, Repr

inductive Descent where
  | children
  | skip
  deriving DecidableEq, Repr

/-- A tracked node, as hooks are given it. -/
structure TrackedNode where
  kind : TrackedKind
  tree : Tree

/-- The node in a chain. -/
def TrackedNode.ancestor (n : TrackedNode) : Ancestor := ⟨n.kind, n.tree.span⟩

/-- What happens at a tracked node, before and after its children; the chain of ancestors is given
from the innermost one outwards. -/
structure Visitor (σ : Type) where
  enter : TrackedNode → List Ancestor → σ → Descent × σ
  leave : TrackedNode → List Ancestor → σ → σ

/-- A walk under way: the tracked nodes that it is inside of, the innermost first, and the state of
its visitor. -/
structure Walker (σ : Type) where
  chain : List Ancestor
  state : σ

namespace Walker

variable {σ : Type}

def push (w : Walker σ) (n : TrackedNode) : Walker σ := { w with chain := n.ancestor :: w.chain }

def pop (w : Walker σ) : Walker σ := { w with chain := w.chain.tail }

end Walker

namespace Visitor

variable {σ : Type}

def close (v : Visitor σ) (n : TrackedNode) (w : Walker σ) : Walker σ :=
  { w with state := v.leave n w.chain w.state }

mutual

/-- A skipped node is left as soon as it was entered. -/
def walk (v : Visitor σ) : Tree → Walker σ → Walker σ
  | .node label span children, w =>
    match label.kind? with
    | none => v.walkAll children w
    | some kind =>
      let n : TrackedNode := ⟨kind, .node label span children⟩
      match v.enter n w.chain w.state with
      | (.children, s) => v.close n (v.walkAll children (Walker.push ⟨w.chain, s⟩ n)).pop
      | (.skip, s) => v.close n ⟨w.chain, s⟩

def walkAll (v : Visitor σ) : List Tree → Walker σ → Walker σ
  | [], w => w
  | t :: ts, w => v.walkAll ts (v.walk t w)

end

section
variable {v : Visitor σ} {label : Label} {kind : TrackedKind} {span : Span} {children : List Tree}
  {chain : List Ancestor} {s r : σ}

theorem walk_of_untracked (hk : label.kind? = none) (w : Walker σ) :
    v.walk (.node label span children) w = v.walkAll children w := by
  rw [walk, hk]

theorem walk_of_skip (hk : label.kind? = some kind)
    (he : v.enter ⟨kind, .node label span children⟩ chain s = (.skip, r)) :
    v.walk (.node label span children) ⟨chain, s⟩ =
      ⟨chain, v.leave ⟨kind, .node label span children⟩ chain r⟩ := by
  rw [walk, hk]
  simp only [he]
  rfl

theorem walk_of_children {q : σ} (hk : label.kind? = some kind)
    (he : v.enter ⟨kind, .node label span children⟩ chain s = (.children, r))
    (hw : v.walkAll children ⟨⟨kind, span⟩ :: chain, r⟩ = ⟨⟨kind, span⟩ :: chain, q⟩) :
    v.walk (.node label span children) ⟨chain, s⟩ =
      ⟨chain, v.leave ⟨kind, .node label span children⟩ chain q⟩ := by
  rw [walk, hk]
  simp only [he, Walker.push, TrackedNode.ancestor, Tree.span, hw]
  rfl

end

end Visitor

/-! ## Recording -/

inductive Hook where
  | enter
  | leave
  deriving DecidableEq, Repr

/-- A call of a hook, with the chain from the innermost ancestor outwards. -/
structure Event where
  hook : Hook
  node : Ancestor
  above : List Ancestor
  deriving DecidableEq, Repr

/-- Records all calls, the last one first, and skips the nodes of some kinds. -/
def recorder (skips : TrackedKind → Bool) : Visitor (List Event) where
  enter n above events :=
    (if skips n.kind then .skip else .children, ⟨.enter, n.ancestor, above⟩ :: events)
  leave n above events := ⟨.leave, n.ancestor, above⟩ :: events

def events (skips : TrackedKind → Bool) (ts : List Tree) : List Event :=
  ((recorder skips).walkAll ts ⟨[], []⟩).state.reverse

end NotebookCell
