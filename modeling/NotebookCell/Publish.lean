import NotebookCell.Summary
import NotebookCell.Text.Draft
import NotebookCell.Walk

/-!
# Publishing

The top-level bindings of a cell become properties of the global object, so that later cells see
them. With `G` for the global object:

- `function f() {}` becomes `void (G.f = function f() {});`
- `class C {}` in the body of the cell becomes `G.C = (class C {});`
- `let` and `const` in the body, and `var` anywhere outside functions, become
  `void ((G.x = (init)), …)`; in the head of a loop over keys or values only the keyword goes.

Nothing inside a function, an arrow function, an accessor or a class is touched.
-/

namespace NotebookCell

open Script TaggedText

/-- Edits, the names that they publish and the number of declarations that they change. -/
structure Published where
  edits : List Edit
  defs : List Definition
  count : Nat
  deriving DecidableEq, Repr

namespace Published

def none : Published := ⟨[], [], 0⟩

def ofEdits (edits : List Edit) : Published := ⟨edits, [], 0⟩

def append (p q : Published) : Published :=
  ⟨p.edits ++ q.edits, p.defs ++ q.defs, p.count + q.count⟩

instance : Append Published := ⟨append⟩

def all {α : Type} (f : α → Published) (xs : List α) : Published :=
  xs.foldr (fun x p => f x ++ p) none

@[simp] theorem defs_none : none.defs = [] := rfl

@[simp] theorem defs_append (p q : Published) : (p ++ q).defs = p.defs ++ q.defs := rfl

@[simp] theorem defs_ofEdits (edits : List Edit) : (ofEdits edits).defs = [] := rfl

@[simp] theorem count_none : none.count = 0 := rfl

@[simp] theorem count_append (p q : Published) : (p ++ q).count = p.count + q.count := rfl

@[simp] theorem count_ofEdits (edits : List Edit) : (ofEdits edits).count = 0 := rfl

@[simp] theorem append_none (p : Published) : p ++ none = p := by
  show Published.mk (p.edits ++ []) (p.defs ++ []) (p.count + 0) = p
  simp

@[simp] theorem none_append (p : Published) : none ++ p = p := by
  show Published.mk ([] ++ p.edits) ([] ++ p.defs) (0 + p.count) = p
  simp

@[simp] theorem all_nil {α : Type} (f : α → Published) : all f [] = none := rfl

@[simp] theorem all_cons {α : Type} (f : α → Published) (x : α) (xs : List α) :
    all f (x :: xs) = f x ++ all f xs := rfl

end Published

/-! ## Edits -/

/-- The text before and after the range. -/
def enclose (range : Span) (before after : String) : List Edit :=
  [.prepend range (inserted before), .append range (inserted after)]

/-- What heads a loop has to stay an assignment target. -/
inductive DeclarationForm where
  | statement
  | loopHead
  deriving DecidableEq, Repr

/-! ## Binding targets -/

section
variable (G : String) (kind : VarKind)

/-- `x` becomes `G.x`. -/
def publishName (span : Span) (name : String) : Published :=
  ⟨[.prepend span (inserted (G ++ "."))], [⟨name, .variable kind⟩], 0⟩

/-- The shorthand `x` of a pattern becomes `x: G.x`. -/
def publishShorthand (span : Span) (name : String) : Published :=
  ⟨[.append span (inserted (": " ++ G ++ "." ++ name))], [⟨name, .variable kind⟩], 0⟩

/-- An identifier that is bound without a pattern of its own. -/
def publishTarget : Tree → Published
  | .node (.name name) span _ => publishName G kind span name
  | .node .withDefault _ (target :: _) => publishTarget target
  | .node .rest _ (target :: _) => publishTarget target
  | _ => .none

def publishProperty : Tree → Published
  | .node .keyValue _ [_, value] => publishTarget G kind value
  | .node .initialized _ (.node (.name name) span _ :: _) => publishShorthand G kind span name
  | .node .rest _ (target :: _) => publishTarget G kind target
  | _ => .none

mutual

/-- All identifiers that a pattern binds: first those directly in it, then those of the patterns
inside. -/
def publishPattern : Tree → Published
  | .node .objectPattern _ props =>
    Published.all (publishProperty G kind) props ++ publishPatternsOf props
  | .node .arrayPattern _ elements =>
    Published.all (publishTarget G kind) elements ++ publishPatterns elements
  | .node .withDefault _ (target :: _) => publishPattern target
  | .node .rest _ (target :: _) => publishPattern target
  | _ => .none

def publishPatterns : List Tree → Published
  | [] => .none
  | t :: ts => publishPattern t ++ publishPatterns ts

def publishPatternsOf : List Tree → Published
  | [] => .none
  | .node .keyValue _ [_, value] :: ps => publishPattern value ++ publishPatternsOf ps
  | .node .rest _ (target :: _) :: ps => publishPattern target ++ publishPatternsOf ps
  | _ :: ps => publishPatternsOf ps

end

/-! ## Declarations -/

/-- `x = 1` becomes `(G.x = (1))` and `x` becomes `(G.x = undefined)`. -/
def declaratorEdits (span : Span) : Tree → List Edit
  | .node .absent _ _ => enclose span "(" " = undefined)"
  | init => .prepend span (inserted "(") :: enclose init.span "(" ")" ++
      [.append span (inserted ")")]

def publishDeclarator (form : DeclarationForm) : Tree → Published
  | .node .declarator span [target, init] =>
    publishTarget G kind target ++ publishPattern G kind target ++
      .ofEdits (if form = .statement then declaratorEdits span init else [])
  | _ => .none

/-- The closing parenthesis after the last declarator. -/
def closeDeclaration (declarators : List Tree) : List Edit :=
  match declarators.getLast? with
  | some d => [.append d.span (inserted ")")]
  | none => []

def publishDeclaration (form : DeclarationForm) (span : Span) (declarators : List Tree) :
    Published :=
  let word : Span := ⟨span.start, span.start + kind.word.utf8ByteSize⟩
  let opening := if form = .statement then "void (" else ""
  .ofEdits [.replace word (inserted opening)] ++
    Published.all (publishDeclarator G kind form) declarators ++
    ⟨if form = .statement then closeDeclaration declarators else [], [], 1⟩

end

def publishFunction (G : String) (name : String) (fn : Tree) : Published :=
  ⟨enclose fn.span ("void (" ++ G ++ "." ++ name ++ " = ") ");", [⟨name, .function⟩], 1⟩

def publishClass (G : String) (name : String) (cls : Tree) : Published :=
  ⟨enclose cls.span (G ++ "." ++ name ++ " = (") ");", [⟨name, .classDef⟩], 1⟩

/-! ## Statements -/

inductive Place where
  /-- an element of the body of the cell -/
  | body
  /-- what a loop over keys or values begins with -/
  | eachHead
  | inner
  deriving DecidableEq, Repr

mutual

def publish (G : String) (place : Place) : Tree → Published
  | .node .funDecl _ [.node (.name name) _ _, fn] => publishFunction G name fn
  | .node .classDecl _ [.node (.name name) _ _, cls] =>
    if place = .body then publishClass G name cls else .none
  | .node (.varDecl kind) span declarators =>
    if kind = .var ∨ place = .body then
      publishDeclaration G kind (if place = .eachHead then .loopHead else .statement) span
        declarators
    else .none
  | .node label _ children =>
    if label.kind?.any TrackedKind.opensScope then .none
    else match label with
      | .forIn | .forOf _ => publishFrom G .eachHead children
      | _ => publishFrom G .inner children

/-- What the children of a node publish, the first of them in the given place. -/
def publishFrom (G : String) (first : Place) : List Tree → Published
  | [] => .none
  | t :: ts => publish G first t ++ publishFrom G .inner ts

end

def publishBody (G : String) (body : List Tree) : Published :=
  Published.all (publish G .body) body

/-! ## The value of a cell -/

/-- The last statement, if it is an expression, is returned. -/
def returnEdits (body : List Tree) : List Edit :=
  match body.getLast? with
  | some (.node .exprStmt _ [e]) => enclose e.span "return (" ")"
  | _ => []

end NotebookCell
