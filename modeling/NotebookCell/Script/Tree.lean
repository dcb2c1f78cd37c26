import NotebookCell.Span

/-!
# Labelled syntax trees

A `Tree` is the complete syntax tree of ECMAScript text in one uniform shape: a label, the span of
the text and the children in the order in which a traversal meets them. It is what functions,
classes and everything else that no edit reaches into are kept as, and what a traversal runs over.
-/

namespace NotebookCell.Script

structure Ident where
  span : Span
  /-- the spelling with escapes decoded -/
  name : String
  deriving DecidableEq, Repr, Inhabited

inductive VarKind where
  | var
  | block
  | constant
  deriving DecidableEq, Repr

def VarKind.word : VarKind → String
  | .var => "var"
  | .block => "let"
  | .constant => "const"

inductive Literal where
  | text (raw : String)
  | number (raw : String)
  | bigint (raw : String)
  | regex (body flags : String)
  | boolean (value : Bool)
  | null
  deriving DecidableEq, Repr

/-- How an access hangs on the expression before it. -/
inductive Link where
  /-- `a.b` -/
  | plain
  /-- `a?.b` -/
  | optional
  /-- a later link of a chain that holds an optional one, such as `.c` in `a?.b.c` -/
  | chained
  deriving DecidableEq, Repr

/-- The shape of an expression that is told by its operands. The first four stand in operand
places only. -/
inductive Form where
  | superRef
  | importRef
  | hole
  | spread
  | this
  | newTarget
  | importMeta
  | privateName (name : String)
  | literal (value : Literal)
  | array
  | paren
  | sequence
  | template (texts : List String)
  | taggedTemplate (texts : List String)
  | member (name : String) (link : Link)
  | privateMember (name : String) (link : Link)
  | index (link : Link)
  | call (link : Link)
  | construct
  | unary (operator : String)
  | update (operator : String) (isPrefix : Bool)
  | binary (operator : String)
  | conditional
  | await
  | yield (delegate : Bool)
  /-- stands where recovery from an error left no expression -/
  | invalid
  deriving DecidableEq, Repr

def Form.isOperandOnly : Form → Bool
  | .superRef | .importRef | .hole | .spread => true
  | _ => false

inductive Label where
  /-- an expression -/
  | expr (form : Form)
  /-- the same shape in the place of an assignment target, where it is no expression -/
  | place (form : Form)
  | reference (name : String)
  | object
  | assign (operator : String)
  | functionExpr
  | arrow (isAsync : Bool)
  | arrowExpr
  | classExpr
  /-- an identifier that is no expression: a binding, a label, a name in an import or export -/
  | name (name : String)
  | key (text : String)
  | computedKey
  | keyValue
  | initialized
  | method
  | getter
  | setter
  | objectPattern
  | arrayPattern
  | withDefault
  | rest
  /-- an absent optional part -/
  | absent
  | function (isAsync isGenerator : Bool)
  | classDef
  | constructor
  | field (isStatic : Bool)
  | memberMethod (isStatic : Bool)
  | block
  | empty
  | debugger
  | exprStmt
  | branch
  | loop
  | forIn
  | forOf (isAwait : Bool)
  | whileDo
  | doWhile
  | labeled
  | switch
  | case
  | tryCatch
  | handler
  | withObject
  | ret
  | throwing
  | break
  | continue
  | varDecl (kind : VarKind)
  | declarator
  | funDecl
  | classDecl
  | importDecl
  | importSpecifier
  | importSource
  | attributes
  | exportDecl
  | module
  | script
  deriving DecidableEq, Repr

inductive Tree where
  | node (label : Label) (span : Span) (children : List Tree)
  deriving Repr

namespace Tree

def label : Tree → Label
  | node label _ _ => label

def span : Tree → Span
  | node _ span _ => span

def children : Tree → List Tree
  | node _ _ children => children

def asPlace : Tree → Tree
  | node (.expr form) span children => node (.place form) span children
  | t => t

def absent : Tree := node .absent ⟨0, 0⟩ []

def ofIdent (id : Ident) : Tree := node (.name id.name) id.span []

def ofIdent? : Option Ident → Tree
  | some id => ofIdent id
  | none => absent

mutual

/-- The tree with all spans moved `n` bytes to the right. -/
def shift (n : Nat) : Tree → Tree
  | node .absent span children => node .absent span (shiftAll n children)
  | node label span children => node label (span.shift n) (shiftAll n children)

def shiftAll (n : Nat) : List Tree → List Tree
  | [] => []
  | t :: ts => t.shift n :: shiftAll n ts

end

/-! ## Search -/

mutual

/-- All nodes, each one before its children. -/
def nodes : Tree → List Tree
  | node label span children => node label span children :: nodesOf children

def nodesOf : List Tree → List Tree
  | [] => []
  | t :: ts => t.nodes ++ nodesOf ts

end

def name? (t : Tree) : Option String :=
  match t.label with
  | .reference name => some name
  | .name name => some name
  | _ => none

/-- The identifiers of a tree: references, bindings, labels and names of imports and exports. -/
def names (t : Tree) : List String := t.nodes.filterMap name?

/-- Where `import.meta` stands first. -/
def importMeta? (t : Tree) : Option Span :=
  (t.nodes.find? fun t => t.label == .expr .importMeta).map span

end Tree

end NotebookCell.Script
