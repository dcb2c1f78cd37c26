import NotebookCell.Proofs.Grammar
import NotebookCell.Publish

/-!
# What a cell publishes

The names that a cell publishes are told by its tree: those of the `var` and function declarations
outside of functions and classes, and those of the `let`, `const` and class declarations in its
body. `publish` meets them in an order of its own, so the rows are equal up to their order. Of the
text it takes away the keywords of the variable declarations among them.
-/

namespace NotebookCell

open Script

/-! ## Names of declarations -/

mutual

/-- The names that a pattern, or a part of one, binds. -/
def boundNames : Tree → List String
  | .node (.name name) _ _ => [name]
  | .node .arrayPattern _ elements => boundNamesOf elements
  | .node .objectPattern _ props => boundNamesOf props
  | .node .keyValue _ [_, value] => boundNames value
  | .node .initialized _ (name :: _) => boundNames name
  | .node .withDefault _ (target :: _) => boundNames target
  | .node .rest _ (target :: _) => boundNames target
  | _ => []

def boundNamesOf : List Tree → List String
  | [] => []
  | t :: ts => boundNames t ++ boundNamesOf ts

end

/-- The names that a declaration binds, as rows of a summary. -/
def declared : Tree → List Definition
  | .node (.varDecl kind) _ declarators =>
    declarators.flatMap fun d =>
      (d.children.take 1).flatMap fun target => (boundNames target).map (⟨·, .variable kind⟩)
  | .node .funDecl _ (name :: _) => (boundNames name).map (⟨·, .function⟩)
  | .node .classDecl _ (name :: _) => (boundNames name).map (⟨·, .classDef⟩)
  | _ => []

/-- The declaration binds its names in the cell wherever it stands outside of functions. -/
def isHoisted (t : Tree) : Bool := t.label == .varDecl .var || t.label == .funDecl

/-- The declaration binds its names in the block that it is an element of. -/
def isLexical (t : Tree) : Bool :=
  t.label == .varDecl .block || t.label == .varDecl .constant || t.label == .classDecl

/-- The declarations whose names belong to the cell. -/
def cellDeclarations (body : List Tree) : List Tree :=
  (outerNodesOf body).filter isHoisted ++ body.filter isLexical

/-! ## Keywords -/

def keywords : Tree → List Span
  | .node (.varDecl kind) span _ => [⟨span.start, span.start + kind.word.utf8ByteSize⟩]
  | _ => []

def Edit.replaced? : Edit → Option Span
  | .replace range _ => some range
  | _ => none

def Published.replaced (p : Published) : List Span := p.edits.filterMap Edit.replaced?

namespace Published

@[simp] theorem edits_append (p q : Published) : (p ++ q).edits = p.edits ++ q.edits := rfl

@[simp] theorem replaced_none : none.replaced = [] := rfl

@[simp] theorem replaced_append (p q : Published) : (p ++ q).replaced = p.replaced ++ q.replaced :=
  List.filterMap_append

theorem replaced_ofEdits (edits : List Edit) :
    (ofEdits edits).replaced = edits.filterMap Edit.replaced? := rfl

end Published

@[simp] theorem replaced_publishName (G : String) (kind : VarKind) (span : Span) (name : String) :
    (publishName G kind span name).replaced = [] := rfl

@[simp] theorem replaced_publishShorthand (G : String) (kind : VarKind) (span : Span) (name : String) :
    (publishShorthand G kind span name).replaced = [] := rfl

@[simp] theorem replaced_publishFunction (G name : String) (fn : Tree) :
    (publishFunction G name fn).replaced = [] := rfl

@[simp] theorem replaced_publishClass (G name : String) (cls : Tree) :
    (publishClass G name cls).replaced = [] := rfl

@[simp] theorem replaced_enclose (range : Span) (before after : String) :
    (enclose range before after).filterMap Edit.replaced? = [] := rfl

@[simp] theorem replaced_declaratorEdits (span : Span) (init : Tree) :
    (declaratorEdits span init).filterMap Edit.replaced? = [] := by
  unfold declaratorEdits
  split <;> rfl

@[simp] theorem replaced_closeDeclaration (declarators : List Tree) :
    (closeDeclaration declarators).filterMap Edit.replaced? = [] := by
  unfold closeDeclaration
  split <;> rfl

/-! ## Patterns -/

/-- The names are published, each once, no declaration is counted and no text taken away. -/
structure Binds (kind : VarKind) (p : Published) (names : List String) : Prop where
  defs : p.defs.Perm (names.map (⟨·, .variable kind⟩))
  count : p.count = 0
  replaced : p.replaced = []

theorem Binds.interleave {kind : VarKind} {p p' q q' : Published} {xs ys : List String}
    (hp : Binds kind (p ++ p') xs) (hq : Binds kind (q ++ q') ys) :
    Binds kind ((p ++ q) ++ (p' ++ q')) (xs ++ ys) where
  defs := by
    have h := hp.defs.append hq.defs
    simp only [Published.defs_append, List.append_assoc, List.map_append] at h ⊢
    exact ((List.perm_append_comm_assoc ..).append_left _).trans h
  count := by
    have h := hp.count
    have h' := hq.count
    simp only [Published.count_append] at h h' ⊢
    omega
  replaced := by
    have h := hp.replaced
    have h' := hq.replaced
    simp only [Published.replaced_append, List.append_eq_nil_iff] at h h' ⊢
    exact ⟨⟨h.1, h'.1⟩, h.2, h'.2⟩

section
variable (G : String) (kind : VarKind)

theorem publishPatternsOf_cons (t : Tree) (ts : List Tree) :
    publishPatternsOf G kind (t :: ts) = publishPatternsOf G kind [t] ++ publishPatternsOf G kind ts := by
  rw [publishPatternsOf.eq_def G kind (t :: ts), publishPatternsOf.eq_def G kind [t]]
  split
  · simp_all
  · simp_all [publishPatternsOf]
  · simp_all [publishPatternsOf]
  · rename_i h1 h2 e
    injection e with e1 e2
    subst e1 e2
    simp_all [publishPatternsOf]

theorem publishPatterns_eq_all (ts : List Tree) :
    publishPatterns G kind ts = Published.all (publishPattern G kind) ts := by
  induction ts with
  | nil => rfl
  | cons t ts ih => rw [publishPatterns, ih, Published.all_cons]

theorem publishPatternsOf_eq_all (ts : List Tree) :
    publishPatternsOf G kind ts = Published.all (fun t => publishPatternsOf G kind [t]) ts := by
  induction ts with
  | nil => rfl
  | cons t ts ih => rw [publishPatternsOf_cons, ih, Published.all_cons]

mutual

theorem binds_pattern : ∀ t : Tree, t.fits .target →
    Binds kind (publishTarget G kind t ++ publishPattern G kind t) (boundNames t)
  | .node label span children, h => by
    simp only [Tree.fits, Bool.and_eq_true] at h
    cases label with
    | arrayPattern => simpa [publishTarget, publishPattern, boundNames] using binds_elements children h.2
    | objectPattern =>
      simpa [publishTarget, publishPattern, boundNames] using binds_properties children h.2
    | withDefault =>
      obtain ⟨target, value, rfl, ht, -⟩ := fitsAll_pair h.2
      simpa [publishTarget, publishPattern, boundNames] using binds_pattern target ht
    | rest =>
      obtain ⟨target, rfl, ht⟩ := fitsAll_singleton h.2
      simpa [publishTarget, publishPattern, boundNames] using binds_pattern target ht
    | keyValue => simp [Part.allows, Label.isTarget, Label.isExpression] at h
    | initialized => simp [Part.allows, Label.isTarget, Label.isExpression] at h
    | name name => exact ⟨.refl _, rfl, rfl⟩
    | _ => constructor <;> simp [publishTarget, publishPattern, boundNames]

theorem binds_elements : ∀ ts : List Tree, fitsAll (List.replicate ts.length (.optional .target)) ts →
    Binds kind (Published.all (publishTarget G kind) ts ++ publishPatterns G kind ts) (boundNamesOf ts)
  | [], _ => by constructor <;> simp [publishPatterns, boundNamesOf]
  | t :: ts, h => by
    simp only [List.length_cons, List.replicate_succ, fitsAll, Bool.and_eq_true] at h
    have ht := binds_pattern t (fits_target_of_optional h.1)
    exact ht.interleave (binds_elements ts h.2)

theorem binds_properties : ∀ ts : List Tree, fitsAll (List.replicate ts.length .patternProperty) ts →
    Binds kind (Published.all (publishProperty G kind) ts ++ publishPatternsOf G kind ts) (boundNamesOf ts)
  | [], _ => by constructor <;> simp [publishPatternsOf, boundNamesOf]
  | t :: ts, h => by
    simp only [List.length_cons, List.replicate_succ, fitsAll, Bool.and_eq_true] at h
    rw [publishPatternsOf_cons]
    exact (binds_property t h.1).interleave (binds_properties ts h.2)

theorem binds_property : ∀ t : Tree, t.fits .patternProperty →
    Binds kind (publishProperty G kind t ++ publishPatternsOf G kind [t]) (boundNames t)
  | .node label span children, h => by
    simp only [Tree.fits, Bool.and_eq_true] at h
    cases label with
    | keyValue =>
      obtain ⟨key, value, rfl, -, hv⟩ := fitsAll_pair h.2
      simpa [publishProperty, publishPatternsOf, boundNames] using binds_pattern value hv
    | initialized =>
      obtain ⟨target, rest, rfl, hn, -⟩ := fitsAll_of_cons h.2
      obtain ⟨name, span, rfl⟩ := eq_name_of_fits hn
      exact ⟨.refl _, rfl, rfl⟩
    | rest =>
      obtain ⟨target, rfl, ht⟩ := fitsAll_singleton h.2
      simpa [publishProperty, publishPatternsOf, boundNames] using binds_pattern target ht
    | _ => simp [Part.allows] at h

end

/-! ## Declarations -/

theorem binds_declarator (form : DeclarationForm) {d : Tree} (h : d.fits .declarator) :
    ∃ span target init, d = .node .declarator span [target, init] ∧
      Binds kind (publishDeclarator G kind form d) (boundNames target) := by
  obtain ⟨label, span, children⟩ := d
  simp only [Tree.fits, Part.allows, Bool.and_eq_true, beq_iff_eq] at h
  obtain ⟨rfl, hc⟩ := h
  obtain ⟨target, init, rfl, ht, -⟩ := fitsAll_pair hc
  have hb := binds_pattern G kind target ht
  refine ⟨span, target, init, rfl, ?_, ?_, ?_⟩
  · simpa [publishDeclarator] using hb.defs
  · simpa [publishDeclarator] using hb.count
  · have h := hb.replaced
    simp only [publishDeclarator, Published.replaced_append, h, Published.replaced_ofEdits]
    split <;> simp

end

/-- Each of the declarations has its names published, is counted and loses its keyword. -/
structure Publishes (p : Published) (ds : List Tree) : Prop where
  defs : p.defs.Perm (ds.flatMap declared)
  count : p.count = ds.length
  replaced : p.replaced.Perm (ds.flatMap keywords)

namespace Publishes

variable {p q : Published} {ds es : List Tree}

theorem none : Publishes .none [] := ⟨.nil, rfl, .nil⟩

theorem append (hp : Publishes p ds) (hq : Publishes q es) : Publishes (p ++ q) (ds ++ es) where
  defs := by simpa using hp.defs.append hq.defs
  count := by simp [hp.count, hq.count]
  replaced := by simpa using hp.replaced.append hq.replaced

theorem perm (h : Publishes p ds) (he : ds.Perm es) : Publishes p es where
  defs := h.defs.trans (he.flatMap_right declared)
  count := h.count.trans he.length_eq
  replaced := h.replaced.trans (he.flatMap_right keywords)

end Publishes

section
variable (G : String)

theorem binds_declarators (kind : VarKind) (form : DeclarationForm) : ∀ ds : List Tree,
    fitsAll (List.replicate ds.length .declarator) ds →
    Binds kind (Published.all (publishDeclarator G kind form) ds)
      (ds.flatMap fun d => (d.children.take 1).flatMap boundNames)
  | [], _ => by constructor <;> simp
  | d :: ds, h => by
    simp only [List.length_cons, List.replicate_succ, fitsAll, Bool.and_eq_true] at h
    obtain ⟨span, target, init, rfl, hb⟩ := binds_declarator G kind form h.1
    have hds := binds_declarators kind form ds h.2
    constructor
    · simpa [Tree.children] using hb.defs.append hds.defs
    · simp [hb.count, hds.count]
    · simp [hb.replaced, hds.replaced]

theorem publishes_varDecl (kind : VarKind) (form : DeclarationForm) (span : Span) {ds : List Tree}
    (h : fitsAll (List.replicate ds.length .declarator) ds) :
    Publishes (publishDeclaration G kind form span ds) [.node (.varDecl kind) span ds] := by
  have hb := binds_declarators G kind form ds h
  constructor
  · simpa [publishDeclaration, declared, List.map_flatMap] using hb.defs
  · simpa [publishDeclaration] using hb.count
  · have hc : Published.replaced
        ⟨if form = .statement then closeDeclaration ds else [], [], 1⟩ = [] := by
      simp only [Published.replaced]
      split <;> simp
    simp [publishDeclaration, Published.replaced_ofEdits, hb.replaced, hc, keywords, Edit.replaced?]

/-! ## Statements -/

theorem isHoisted_eq_false {t : Tree} (h : t.label.isDeclaration = false) : isHoisted t = false := by
  obtain ⟨label, span, children⟩ := t
  cases label <;> first | rfl | cases h

theorem filter_outerNodesOf_eq_nil {parts : List Part} {ts : List Tree} (hp : ∀ part ∈ parts, part.isInner)
    (h : fitsAll parts ts) : (outerNodesOf ts).filter isHoisted = [] := by
  rw [List.filter_eq_nil_iff]
  intro d hd
  simp [isHoisted_eq_false (not_isDeclaration_of_mem_outerNodesOf ts hp h d hd)]

theorem filter_outerNodes_declaration {label : Label} {span : Span} {children : List Tree}
    (hl : label.isDeclaration) (h : fitsAll (label.parts children.length) children) :
    (outerNodes (.node label span children)).filter isHoisted =
      [.node label span children].filter isHoisted := by
  have hs : label.opensScope = false := by cases label <;> first | rfl | cases hl
  have hp := Label.isInner_parts_of_isDeclaration hl children.length
  rw [outerNodes, hs]
  simp [List.filter_cons, filter_outerNodesOf_eq_nil hp h]

/-- The declaration is published where it stands. -/
def publishedAt (place : Place) (t : Tree) : Bool := isHoisted t || (place == .body && isLexical t)

theorem publishedAt_of_ne_body {place : Place} (hp : place ≠ .body) : publishedAt place = isHoisted := by
  funext t
  simp [publishedAt, hp]

theorem filter_publishedAt_body {t : Tree} (hd : t.label.isDeclaration) :
    [t].filter (publishedAt .body) = [t].filter isHoisted ++ [t].filter isLexical := by
  obtain ⟨label, span, children⟩ := t
  cases label with
  | varDecl kind => cases kind <;> rfl
  | funDecl => rfl
  | classDecl => rfl
  | _ => cases hd

theorem publish_varDecl (place : Place) (kind : VarKind) (span : Span) (ds : List Tree) :
    (publishedAt place (.node (.varDecl kind) span ds) ∧
      publish G place (.node (.varDecl kind) span ds) =
        publishDeclaration G kind (if place = .eachHead then .loopHead else .statement) span ds) ∨
    (publishedAt place (.node (.varDecl kind) span ds) = false ∧
      publish G place (.node (.varDecl kind) span ds) = .none) := by
  have h : publishedAt place (.node (.varDecl kind) span ds) = decide (kind = .var ∨ place = .body) := by
    cases kind <;> cases place <;> rfl
  by_cases hk : kind = .var ∨ place = .body
  · exact .inl ⟨by simpa [h] using hk, by rw [publish, if_pos hk]⟩
  · exact .inr ⟨by simpa [h] using hk, by rw [publish, if_neg hk]⟩

theorem publishes_declaration {label : Label} {span : Span} {children : List Tree}
    (hl : label.isDeclaration) (h : fitsAll (label.parts children.length) children) (place : Place) :
    Publishes (publish G place (.node label span children))
      ([.node label span children].filter (publishedAt place)) := by
  cases label with
  | funDecl =>
    obtain ⟨target, fn, rfl, hn, -⟩ := fitsAll_pair h
    obtain ⟨name, nameSpan, rfl⟩ := eq_name_of_fits hn
    exact ⟨.refl _, rfl, .nil⟩
  | classDecl =>
    obtain ⟨target, cls, rfl, hn, -⟩ := fitsAll_pair h
    obtain ⟨name, nameSpan, rfl⟩ := eq_name_of_fits hn
    by_cases hp : place = .body
    · rw [publish, if_pos hp, hp]
      exact ⟨.refl _, rfl, .nil⟩
    · simpa [publish, publishedAt, isHoisted, isLexical, Tree.label, hp] using Publishes.none
  | varDecl kind =>
    rcases publish_varDecl G place kind span children with ⟨hp, he⟩ | ⟨hp, he⟩
    · simpa [he, hp] using publishes_varDecl G kind _ span h
    · simpa [he, hp] using Publishes.none
  | _ => cases hl

def firstPlace : Label → Place
  | .forIn | .forOf _ => .eachHead
  | _ => .inner

theorem publish_of_not_isDeclaration {label : Label} (h : label.isDeclaration = false) (place : Place)
    (span : Span) (children : List Tree) :
    publish G place (.node label span children) =
      if label.opensScope then .none else publishFrom G (firstPlace label) children := by
  unfold publish
  split
  · rename_i e
    injection e with e
    simp [e, Label.isDeclaration] at h
  · rename_i e
    injection e with e
    simp [e, Label.isDeclaration] at h
  · rename_i e
    injection e with e
    simp [e, Label.isDeclaration] at h
  · rename_i e
    injection e with e1 e2 e3
    subst e1 e2 e3
    cases label <;> rfl

mutual

theorem publishes_inner : ∀ (t : Tree) {part : Part} {place : Place}, t.fits part → place ≠ .body →
    Publishes (publish G place t) ((outerNodes t).filter isHoisted)
  | .node label span children, part, place, h, hp => by
    simp only [Tree.fits, Bool.and_eq_true] at h
    cases hd : label.isDeclaration with
    | true =>
      rw [filter_outerNodes_declaration hd h.2, ← publishedAt_of_ne_body hp]
      exact publishes_declaration G hd h.2 place
    | false =>
      rw [publish_of_not_isDeclaration G hd, outerNodes]
      cases hs : label.opensScope with
      | true => exact .none
      | false =>
        have hh : isHoisted (.node label span children) = false := isHoisted_eq_false hd
        simp only [if_false, List.filter_cons, hh, Bool.false_eq_true]
        exact publishes_all children h.2 (by cases label <;> simp [firstPlace])

theorem publishes_all : ∀ (ts : List Tree) {parts : List Part} {first : Place},
    fitsAll parts ts → first ≠ .body →
    Publishes (publishFrom G first ts) ((outerNodesOf ts).filter isHoisted)
  | [], _, _, _, _ => .none
  | t :: ts, parts, first, h, hp => by
    obtain ⟨part, rest, rfl, ht, hts⟩ := fitsAll_cons h
    rw [publishFrom, outerNodesOf, List.filter_append]
    exact (publishes_inner t ht hp).append (publishes_all ts hts (by simp))

end

theorem publish_body_of_not_isDeclaration {t : Tree} (hd : t.label.isDeclaration = false) :
    publish G .body t = publish G .inner t ∧ [t].filter isLexical = [] := by
  obtain ⟨label, span, children⟩ := t
  have hd : label.isDeclaration = false := hd
  constructor
  · rw [publish_of_not_isDeclaration G hd, publish_of_not_isDeclaration G hd]
  · cases label <;> first | rfl | cases hd

theorem publishes_element {t : Tree} (h : t.fits .statement) :
    Publishes (publish G .body t) ((outerNodes t).filter isHoisted ++ [t].filter isLexical) := by
  cases hd : t.label.isDeclaration with
  | true =>
    obtain ⟨label, span, children⟩ := t
    have hl : label.isDeclaration := hd
    simp only [Tree.fits, Bool.and_eq_true] at h
    rw [filter_outerNodes_declaration hl h.2, ← filter_publishedAt_body hd]
    exact publishes_declaration G hl h.2 .body
  | false =>
    obtain ⟨he, hl⟩ := publish_body_of_not_isDeclaration G hd
    rw [he, hl, List.append_nil]
    exact publishes_inner G t h (by simp)

theorem cellDeclarations_cons (t : Tree) (ts : List Tree) :
    (cellDeclarations [t] ++ cellDeclarations ts).Perm (cellDeclarations (t :: ts)) := by
  have e : (t :: ts).filter isLexical = [t].filter isLexical ++ ts.filter isLexical :=
    List.filter_append [t] ts
  simp only [cellDeclarations, outerNodesOf, List.filter_append, List.append_assoc, e,
    List.append_nil]
  exact (List.perm_append_comm_assoc ..).append_left _

theorem publishes_body : ∀ body : List Tree, (∀ t ∈ body, t.fits .statement) →
    Publishes (publishBody G body) (cellDeclarations body)
  | [], _ => .none
  | t :: ts, h => by
    have ht : Publishes (publish G .body t) (cellDeclarations [t]) := by
      simpa [cellDeclarations, outerNodesOf] using publishes_element G (h t (by simp))
    have hts := publishes_body ts fun u hu => h u (by simp [hu])
    exact (ht.append hts).perm (cellDeclarations_cons t ts)

/-- A cell publishes the names of its declarations, each as often as it is declared, and as many
declarations are changed. -/
theorem defs_publishBody_perm (body : List Tree) (h : ∀ t ∈ body, t.fits .statement) :
    (publishBody G body).defs.Perm ((cellDeclarations body).flatMap declared) ∧
      (publishBody G body).count = (cellDeclarations body).length :=
  ⟨(publishes_body G body h).defs, (publishes_body G body h).count⟩

end

/-- `{ var {a, b: [c = d]} = e }` and `let f` on the next line. -/
def nestedSample : List Tree :=
  [.node .block ⟨0, 27⟩ [.node (.varDecl .var) ⟨2, 25⟩ [.node .declarator ⟨6, 25⟩ [
    .node .objectPattern ⟨6, 21⟩ [
      .node .initialized ⟨7, 8⟩ [.node (.name "a") ⟨7, 8⟩ []],
      .node .keyValue ⟨10, 20⟩ [
        .node (.key "b") ⟨10, 11⟩ [],
        .node .arrayPattern ⟨13, 20⟩ [.node .withDefault ⟨14, 19⟩
          [.node (.name "c") ⟨14, 15⟩ [], .node (.reference "d") ⟨18, 19⟩ []]]]],
    .node (.reference "e") ⟨24, 25⟩ []]]],
   .node (.varDecl .block) ⟨28, 33⟩ [.node .declarator ⟨32, 33⟩
     [.node (.name "f") ⟨32, 33⟩ [], .absent]]]

theorem defs_nestedSample_perm :
    (publishBody "G" nestedSample).defs.Perm
        [⟨"a", .variable .var⟩, ⟨"c", .variable .var⟩, ⟨"f", .variable .block⟩] ∧
      (publishBody "G" nestedSample).count = 2 :=
  defs_publishBody_perm "G" nestedSample (by decide)

end NotebookCell
