import NotebookCell.Walk

/-!
# The shapes of trees

A `Tree` may carry any label anywhere. The trees that stand for a text are those in which each node
`fits` the part that it plays in the node above it: a declarator holds a target and an optional
value, a block holds statements, and so on. What follows from the shapes alone is how declarations
are spread: outside of functions, classes and accessors a declaration is never inside of an
expression, nor inside of another declaration.
-/

namespace NotebookCell.Script

/-! ## Parts -/

/-- What a node is to the node above it. -/
inductive Part where
  | statement
  | block
  | clause
  | handler
  /-- what the head of a counting loop begins with -/
  | loopStart
  /-- what the head of a loop over keys or values begins with -/
  | eachStart
  | declarator
  | expression
  /-- a target of a binding or an assignment, or an expression that may still become one -/
  | target
  | property
  | patternProperty
  | key
  | name
  | function
  | arrow
  | arrowBody
  | classDef
  | member
  /-- a part that may be missing -/
  | optional (part : Part)
  deriving DecidableEq

def Label.isExpression : Label → Bool
  | .expr _ | .reference _ | .object | .assign _ | .functionExpr | .arrowExpr | .classExpr => true
  | _ => false

def Label.isStatement : Label → Bool
  | .block | .empty | .debugger | .exprStmt | .branch | .loop | .forIn | .forOf _ | .whileDo
  | .doWhile | .labeled | .switch | .tryCatch | .withObject | .ret | .throwing | .break | .continue
  | .varDecl _ | .funDecl | .classDecl => true
  | _ => false

def Label.isTarget : Label → Bool
  | .name _ | .objectPattern | .arrayPattern | .withDefault | .rest | .place _ | .absent => true
  | label => label.isExpression

def Part.allows : Part → Label → Bool
  | .statement, label => label.isStatement
  | .block, label => label == .block
  | .clause, label => label == .case
  | .handler, label => label == .handler
  | .loopStart, label =>
    match label with
    | .varDecl _ => true
    | label => label.isExpression
  | .eachStart, label =>
    match label with
    | .varDecl _ => true
    | label => label.isTarget
  | .declarator, label => label == .declarator
  | .expression, label => label.isExpression
  | .target, label => label.isTarget
  | .property, label =>
    match label with
    | .name _ | .keyValue | .initialized | .expr .spread | .method | .getter | .setter => true
    | _ => false
  | .patternProperty, label =>
    match label with
    | .keyValue | .initialized | .rest => true
    | _ => false
  | .key, label =>
    match label with
    | .key _ | .computedKey => true
    | _ => false
  | .name, label =>
    match label with
    | .name _ => true
    | _ => false
  | .function, label =>
    match label with
    | .function _ _ => true
    | _ => false
  | .arrow, label =>
    match label with
    | .arrow _ => true
    | _ => false
  | .arrowBody, label => label == .block || label.isExpression
  | .classDef, label => label == .classDef
  | .member, label =>
    match label with
    | .constructor | .field _ | .memberMethod _ | .block | .empty => true
    | _ => false
  | .optional part, label => label == .absent || part.allows label

/-- The parts of a node with so many children. -/
def Label.parts (count : Nat) : Label → List Part
  | .expr _ | .place _ => List.replicate count .expression
  | .object => List.replicate count .property
  | .assign _ => [.target, .expression]
  | .functionExpr => [.optional .name, .function]
  | .arrowExpr => [.arrow]
  | .classExpr => [.optional .name, .classDef]
  | .function _ _ => List.replicate (count - 1) .target ++ [.block]
  | .arrow _ => List.replicate (count - 1) .target ++ [.arrowBody]
  | .classDef => List.replicate (count - 1) .member ++ [.optional .expression]
  | .computedKey => [.expression]
  | .keyValue => [.key, .target]
  | .initialized => .name :: List.replicate (count - 1) .expression
  | .method => [.key, .function]
  | .getter => [.key, .block]
  | .setter => [.key, .optional .target, .block]
  | .objectPattern => List.replicate count .patternProperty
  | .arrayPattern => List.replicate count (.optional .target)
  | .withDefault => [.target, .expression]
  | .rest => [.target]
  | .constructor => .key :: (List.replicate (count - 2) .target ++ [.block])
  | .field _ => [.key, .optional .expression]
  | .memberMethod _ => [.key, .function]
  | .block => List.replicate count .statement
  | .exprStmt => [.expression]
  | .branch => .expression :: List.replicate (count - 1) .statement
  | .loop => [.optional .loopStart, .optional .expression, .optional .expression, .statement]
  | .forIn | .forOf _ => [.eachStart, .expression, .statement]
  | .whileDo | .doWhile | .withObject => [.expression, .statement]
  | .labeled => [.name, .statement]
  | .switch => .expression :: List.replicate (count - 1) .clause
  | .case => .optional .expression :: List.replicate (count - 1) .statement
  | .tryCatch => [.block, .optional .handler, .optional .block]
  | .handler => [.optional .target, .block]
  | .ret => [.optional .expression]
  | .throwing => [.expression]
  | .break | .continue => [.optional .name]
  | .varDecl _ => List.replicate count .declarator
  | .declarator => [.target, .optional .expression]
  | .funDecl => [.name, .function]
  | .classDecl => [.name, .classDef]
  | _ => []

mutual

/-- The node can play the part, and the nodes below it play the parts that it has. -/
def Tree.fits : Part → Tree → Bool
  | part, .node label _ children =>
    part.allows label && fitsAll (label.parts children.length) children

def fitsAll : List Part → List Tree → Bool
  | [], [] => true
  | part :: parts, t :: ts => t.fits part && fitsAll parts ts
  | _, _ => false

end

/-! ## Declarations -/

def Label.opensScope (label : Label) : Bool := label.kind?.any TrackedKind.opensScope

def Label.isDeclaration : Label → Bool
  | .varDecl _ | .funDecl | .classDecl => true
  | _ => false

mutual

/-- The nodes outside of the functions, arrow functions, classes and accessors of a tree. -/
def outerNodes : Tree → List Tree
  | .node label span children =>
    if label.opensScope then [] else .node label span children :: outerNodesOf children

def outerNodesOf : List Tree → List Tree
  | [] => []
  | t :: ts => outerNodes t ++ outerNodesOf ts

end

/-- The labels of nodes that stand in expressions, patterns and declarators. -/
def Label.isInner : Label → Bool
  | .expr _ | .place _ | .reference _ | .object | .assign _ | .functionExpr | .arrow _ | .arrowExpr
  | .classExpr | .name _ | .key _ | .computedKey | .keyValue | .initialized | .method | .getter
  | .setter | .objectPattern | .arrayPattern | .withDefault | .rest | .absent | .function _ _
  | .classDef | .declarator => true
  | _ => false

def Part.isInner : Part → Bool
  | .declarator | .expression | .target | .property | .patternProperty | .key | .name | .function
  | .arrow | .classDef => true
  | .optional part => part.isInner
  | _ => false

theorem Label.isInner_of_isTarget {label : Label} (h : label.isTarget) : label.isInner := by
  cases label <;> simp_all [Label.isTarget, Label.isExpression, Label.isInner]

theorem Part.isInner_of_allows {part : Part} (hp : part.isInner) {label : Label}
    (h : part.allows label) : label.isInner := by
  induction part with
  | optional part ih =>
    simp only [Part.allows, Bool.or_eq_true, beq_iff_eq] at h
    rcases h with rfl | h
    · rfl
    · exact ih hp h
  | target => exact Label.isInner_of_isTarget h
  | expression =>
    have ht : label.isTarget := by
      cases label <;> simp_all [Part.allows, Label.isTarget, Label.isExpression]
    exact Label.isInner_of_isTarget ht
  | _ => cases label <;> simp_all [Part.allows, Label.isInner, Part.isInner]

/-- Inside of an expression, a pattern or a declarator there is nothing else up to the next scope. -/
theorem Label.isInner_parts {label : Label} (h : label.isInner) (hs : label.opensScope = false)
    (count : Nat) : ∀ part ∈ label.parts count, part.isInner := by
  cases label <;>
    simp_all [Label.isInner, Label.opensScope, Label.parts, Label.kind?, TrackedKind.opensScope,
      Part.isInner]

theorem Label.isInner_parts_of_isDeclaration {label : Label} (h : label.isDeclaration) (count : Nat) :
    ∀ part ∈ label.parts count, part.isInner := by
  cases label <;> simp_all [Label.isDeclaration, Label.parts, Part.isInner]

theorem Label.not_isDeclaration {label : Label} (h : label.isInner) : label.isDeclaration = false := by
  cases label <;> simp_all [Label.isInner, Label.isDeclaration]

theorem Label.isInner_eq_false {label : Label} (h : label.isDeclaration) : label.isInner = false := by
  cases label <;> first | rfl | cases h

theorem fitsAll_cons {parts : List Part} {t : Tree} {ts : List Tree} (h : fitsAll parts (t :: ts)) :
    ∃ part rest, parts = part :: rest ∧ t.fits part ∧ fitsAll rest ts := by
  cases parts with
  | nil => cases h
  | cons part rest => exact ⟨part, rest, rfl, by simpa [fitsAll] using h⟩

theorem fitsAll_nil {ts : List Tree} (h : fitsAll [] ts) : ts = [] := by
  cases ts with
  | nil => rfl
  | cons t ts => cases h

theorem fitsAll_of_cons {part : Part} {rest : List Part} {ts : List Tree}
    (h : fitsAll (part :: rest) ts) : ∃ t us, ts = t :: us ∧ t.fits part ∧ fitsAll rest us := by
  cases ts with
  | nil => cases h
  | cons t ts => exact ⟨t, ts, rfl, by simpa [fitsAll] using h⟩

theorem fitsAll_singleton {part : Part} {ts : List Tree} (h : fitsAll [part] ts) :
    ∃ t, ts = [t] ∧ t.fits part := by
  obtain ⟨t, us, rfl, ht, h⟩ := fitsAll_of_cons h
  exact ⟨t, by rw [fitsAll_nil h], ht⟩

theorem fitsAll_pair {p q : Part} {ts : List Tree} (h : fitsAll [p, q] ts) :
    ∃ t u, ts = [t, u] ∧ t.fits p ∧ u.fits q := by
  obtain ⟨t, us, rfl, ht, h⟩ := fitsAll_of_cons h
  obtain ⟨u, rfl, hu⟩ := fitsAll_singleton h
  exact ⟨t, u, rfl, ht, hu⟩

theorem eq_name_of_fits : ∀ {t : Tree}, t.fits .name → ∃ name span, t = .node (.name name) span []
  | .node label span children, h => by
    simp only [Tree.fits, Bool.and_eq_true] at h
    cases label with
    | name name => exact ⟨name, span, by rw [fitsAll_nil h.2]⟩
    | _ => simp [Part.allows] at h

theorem fits_target_of_optional : ∀ {t : Tree}, t.fits (.optional .target) → t.fits .target
  | .node label _ _, h => by
    simp only [Tree.fits, Part.allows, Bool.and_eq_true, Bool.or_eq_true, beq_iff_eq] at h ⊢
    rcases h with ⟨rfl | hl, hc⟩
    · exact ⟨rfl, hc⟩
    · exact ⟨hl, hc⟩

mutual

theorem isInner_of_mem_outerNodes : ∀ (t : Tree) {part : Part}, part.isInner → t.fits part →
    ∀ d ∈ outerNodes t, d.label.isInner
  | .node label span children, part, hp, h, d, hd => by
    simp only [Tree.fits, Bool.and_eq_true] at h
    have hl := Part.isInner_of_allows hp h.1
    rw [outerNodes] at hd
    cases hs : label.opensScope with
    | true => simp [hs] at hd
    | false =>
      rw [hs] at hd
      rcases List.mem_cons.mp hd with rfl | hd
      · exact hl
      · exact isInner_of_mem_outerNodesOf children (Label.isInner_parts hl hs _) h.2 d hd

theorem isInner_of_mem_outerNodesOf : ∀ (ts : List Tree) {parts : List Part},
    (∀ part ∈ parts, part.isInner) → fitsAll parts ts → ∀ d ∈ outerNodesOf ts, d.label.isInner
  | [], _, _, _, d, hd => by simp [outerNodesOf] at hd
  | t :: ts, parts, hp, h, d, hd => by
    obtain ⟨part, rest, rfl, ht, hts⟩ := fitsAll_cons h
    rcases List.mem_append.mp hd with hd | hd
    · exact isInner_of_mem_outerNodes t (hp part (by simp)) ht d hd
    · exact isInner_of_mem_outerNodesOf ts (fun q hq => hp q (by simp [hq])) hts d hd

end

theorem not_isDeclaration_of_mem_outerNodes (t : Tree) {part : Part} (hp : part.isInner)
    (h : t.fits part) : ∀ d ∈ outerNodes t, d.label.isDeclaration = false := fun d hd =>
  Label.not_isDeclaration (isInner_of_mem_outerNodes t hp h d hd)

theorem not_isDeclaration_of_mem_outerNodesOf (ts : List Tree) {parts : List Part}
    (hp : ∀ part ∈ parts, part.isInner) (h : fitsAll parts ts) :
    ∀ d ∈ outerNodesOf ts, d.label.isDeclaration = false := fun d hd =>
  Label.not_isDeclaration (isInner_of_mem_outerNodesOf ts hp h d hd)

end NotebookCell.Script
