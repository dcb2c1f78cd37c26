import NotebookCell.Proofs.CellText
import NotebookCell.Proofs.DraftRuns
import Mathlib.Data.List.Forall2

/-!
# Related texts

Two drafts whose slots hold related texts stay related, edit by edit, whatever the relation is, as
long as it is kept where texts are glued together. What is imported and published from them is the
same then, and so is the way in which it fails.
-/

namespace NotebookCell

open Script TaggedText

/-! ## Related texts -/

/-- A relation of texts that holds of what is glued from related texts. -/
structure Glues (R : TaggedText → TaggedText → Prop) : Prop where
  nil : R [] []
  append : ∀ {s s' t t'}, R s s' → R t t' → R (s ++ t) (s' ++ t')

/-- Text that is inserted with one name is related to the same text with the other name. -/
structure Mirrors (R : TaggedText → TaggedText → Prop) (name name' : String) : Prop extends Glues R where
  inserted : ∀ s, R (inserted s) (inserted s)
  named : ∀ before after, R (TaggedText.inserted (before ++ name ++ after))
    (TaggedText.inserted (before ++ name' ++ after))

section
variable {R : TaggedText → TaggedText → Prop} (hR : Glues R)
include hR

theorem Glues.stretch {f g : Nat → Slot} (h : ∀ i, R (f i) (g i)) (a b : Nat) :
    R (stretch f a b) (stretch g a b) := by
  unfold NotebookCell.stretch
  induction List.range' a (b - a) with
  | nil => exact hR.nil
  | cons i is ih => exact hR.append (h i) ih

theorem Glues.intercalate {sep : TaggedText} (hsep : R sep sep) {ts ts' : List TaggedText}
    (h : List.Forall₂ R ts ts') : R (sep.intercalate ts) (sep.intercalate ts') := by
  induction h with
  | nil => exact hR.nil
  | cons h hs ih =>
    cases hs with
    | nil => simpa [List.intercalate] using h
    | cons h' hs =>
      rw [List.intercalate_cons_cons, List.intercalate_cons_cons]
      exact hR.append (hR.append h hsep) ih

end

/-! ## Related results -/

/-- The same error, or related results. -/
inductive Agree {ε α β : Type} (S : α → β → Prop) : Except ε α → Except ε β → Prop where
  | ok {a : α} {b : β} : S a b → Agree S (.ok a) (.ok b)
  | error (e : ε) : Agree S (.error e) (.error e)

namespace Agree

variable {ε δ α β α' β' : Type} {S : α → β → Prop} {S' : α' → β' → Prop} {x : Except ε α} {y : Except ε β}

theorem bind {f : α → Except ε α'} {g : β → Except ε β'} (h : Agree S x y)
    (hf : ∀ a b, S a b → Agree S' (f a) (g b)) : Agree S' (x >>= f) (y >>= g) := by
  cases h with
  | ok h => exact hf _ _ h
  | error e => exact .error e

theorem mapError (h : Agree S x y) (f : ε → δ) : Agree S (x.mapError f) (y.mapError f) := by
  cases h with
  | ok h => exact .ok h
  | error e => exact .error (f e)

theorem mono {T : α → β → Prop} (h : Agree S x y) (hS : ∀ a b, S a b → T a b) : Agree T x y := by
  cases h with
  | ok h => exact .ok (hS _ _ h)
  | error e => exact .error e

theorem refl (x : Except ε α) : Agree Eq x x := by
  cases x with
  | ok a => exact .ok rfl
  | error e => exact .error e

end Agree

/-! ## Related drafts -/

/-- The drafts have the same slots, and these hold related texts. -/
structure Draft.Alike (R : TaggedText → TaggedText → Prop) (d d' : Draft) : Prop where
  size_eq : d.size = d'.size
  held : ∀ i, R (d.held i) (d'.held i)

/-- The same edit with related texts. -/
inductive Edit.Alike (R : TaggedText → TaggedText → Prop) : Edit → Edit → Prop where
  | replace {t t' : TaggedText} (range : Span) : R t t' → Alike R (.replace range t) (.replace range t')
  | prepend {t t' : TaggedText} (range : Span) : R t t' → Alike R (.prepend range t) (.prepend range t')
  | append {t t' : TaggedText} (range : Span) : R t t' → Alike R (.append range t) (.append range t')

theorem Edit.Alike.range {R : TaggedText → TaggedText → Prop} {e e' : Edit} (h : e.Alike R e') :
    e.range = e'.range := by
  cases h <;> rfl

section
variable {R : TaggedText → TaggedText → Prop} (hR : Glues R) {d d' : Draft}
include hR

theorem Draft.Alike.source (h : d.Alike R d') : R d.source d'.source := by
  rw [source_eq_stretch, source_eq_stretch, h.size_eq]
  exact hR.stretch h.held _ _

theorem Draft.Alike.slice (h : d.Alike R d') (range : Span) : R (d.slice range) (d'.slice range) := by
  by_cases hr : range.start ≤ range.stop ∧ range.stop ≤ d.size
  · rw [slice_eq_stretch hr.1 hr.2, slice_eq_stretch hr.1 (h.size_eq ▸ hr.2)]
    exact hR.stretch h.held _ _
  · have hr' : ¬(range.start ≤ range.stop ∧ range.stop ≤ d'.size) := h.size_eq ▸ hr
    rw [Draft.slice, Draft.slice, slice?, slice?, if_neg hr, if_neg hr']
    exact hR.nil

theorem Edit.Alike.act {e e' : Edit} {s s' : Slot} (he : e.Alike R e') (h : R s s') (i : Nat) :
    R (e.act i s) (e'.act i s') := by
  cases he with
  | replace range ht =>
    simp only [Edit.act]
    split
    · exact ht
    · split
      · exact hR.nil
      · exact h
  | prepend range ht =>
    simp only [Edit.act]
    split
    · exact hR.append ht h
    · exact h
  | append range ht =>
    simp only [Edit.act]
    split
    · exact hR.append h ht
    · exact h

theorem Draft.Alike.of_apply {e e' : Edit} {d₁ d₁' : Draft} (h : d.Alike R d') (he : e.Alike R e')
    (h₁ : d.apply e = .ok d₁) (h₁' : d'.apply e' = .ok d₁') : d₁.Alike R d₁' := by
  obtain ⟨-, hs, hh⟩ := apply_eq_ok h₁
  obtain ⟨-, hs', hh'⟩ := apply_eq_ok h₁'
  refine ⟨by rw [hs, hs', h.size_eq], fun i => ?_⟩
  rw [hh, hh']
  exact he.act hR (h.held i) i

end

theorem Edit.Alike.isRefused_iff {R : TaggedText → TaggedText → Prop} {e e' : Edit} (h : e.Alike R e')
    (size : Nat) : e.IsRefused size ↔ e'.IsRefused size := by
  cases h <;> simp [IsRefused, Edit.range]

theorem fault_of_apply {d : Draft} {e : Edit} {f : EditFault} (h : d.apply e = .error f) :
    f = if d.admits e.range then .emptyAppend e.range else .outside e.range d.size := by
  by_cases ha : d.admits e.range
  · rw [if_pos ha]
    unfold Draft.apply at h
    rw [ha] at h
    cases e with
    | replace range text => cases h
    | prepend range text => cases h
    | append range text =>
      by_cases hlt : range.start < range.stop
      · simp [hlt] at h
      · simpa [hlt, eq_comm, Edit.range] using h
  · rw [Draft.apply_eq_error_of_not_admits ha] at h
    cases h
    rw [if_neg ha]

section
variable {R : TaggedText → TaggedText → Prop} (hR : Glues R) {d d' : Draft}
include hR

/-- Whether an edit is refused, and how, is told by its kind, its range and the size of the draft. -/
theorem Draft.Alike.apply {e e' : Edit} (h : d.Alike R d') (he : e.Alike R e') :
    Agree (Draft.Alike R) (d.apply e) (d'.apply e') := by
  have hrefused : (∃ f, d.apply e = .error f) ↔ ∃ f, d'.apply e' = .error f := by
    rw [exists_apply_eq_error_iff, exists_apply_eq_error_iff, he.isRefused_iff, h.size_eq]
  cases h₁ : d.apply e with
  | ok d₁ =>
    cases h₁' : d'.apply e' with
    | ok d₁' => exact .ok (h.of_apply hR he h₁ h₁')
    | error f => simp [h₁, h₁'] at hrefused
  | error f =>
    cases h₁' : d'.apply e' with
    | ok d₁' => simp [h₁, h₁'] at hrefused
    | error f' =>
      have hf := fault_of_apply h₁
      have hf' := fault_of_apply h₁'
      have ha : d.admits e'.range = d'.admits e'.range := by simp [Draft.admits, h.size_eq]
      rw [he.range, h.size_eq, ha, ← hf'] at hf
      rw [hf]
      exact .error f'

theorem Draft.Alike.applyAll {es es' : List Edit} (h : d.Alike R d') (he : List.Forall₂ (Edit.Alike R) es es') :
    Agree (Draft.Alike R) (d.applyAll es) (d'.applyAll es') := by
  induction he generalizing d d' with
  | nil => exact .ok h
  | cons he hes ih =>
    simp only [Draft.applyAll, List.foldlM_cons]
    exact (h.apply hR he).bind fun d₁ d₁' h₁ => ih h₁

end

/-! ## What is published -/

/-- The same rows, the same count, and the same edits with related texts. -/
structure Published.Alike (R : TaggedText → TaggedText → Prop) (p q : Published) : Prop where
  defs : p.defs = q.defs
  count : p.count = q.count
  edits : List.Forall₂ (Edit.Alike R) p.edits q.edits

namespace Published.Alike

variable {R : TaggedText → TaggedText → Prop} {p p' q q' : Published}

theorem none : Published.Alike R .none .none := ⟨rfl, rfl, .nil⟩

theorem append (h : p.Alike R p') (h' : q.Alike R q') : (p ++ q).Alike R (p' ++ q') where
  defs := by simp [h.defs, h'.defs]
  count := by simp [h.count, h'.count]
  edits := List.rel_append h.edits h'.edits

theorem ofEdits {es es' : List Edit} (h : List.Forall₂ (Edit.Alike R) es es') :
    (Published.ofEdits es).Alike R (.ofEdits es') := ⟨rfl, rfl, h⟩

theorem all {α : Type} {f g : α → Published} {ts : List α} (h : ∀ t ∈ ts, (f t).Alike R (g t)) :
    (Published.all f ts).Alike R (Published.all g ts) := by
  induction ts with
  | nil => exact none
  | cons t ts ih => exact (h t (by simp)).append (ih fun u hu => h u (by simp [hu]))

end Published.Alike

section
variable {R : TaggedText → TaggedText → Prop} {G G' : String} (hR : Mirrors R G G')
include hR

theorem alike_enclose (range : Span) {before before' : String}
    (h : R (inserted before) (inserted before')) (after : String) :
    List.Forall₂ (Edit.Alike R) (enclose range before after) (enclose range before' after) :=
  .cons (.prepend _ h) (.cons (.append _ (hR.inserted after)) .nil)

theorem alike_publishName (kind : VarKind) (span : Span) (name : String) :
    (publishName G kind span name).Alike R (publishName G' kind span name) := by
  have h := hR.named "" "."
  simp only [String.empty_append] at h
  exact ⟨rfl, rfl, .cons (.prepend _ h) .nil⟩

theorem alike_publishShorthand (kind : VarKind) (span : Span) (name : String) :
    (publishShorthand G kind span name).Alike R (publishShorthand G' kind span name) := by
  have h := hR.named ": " ("." ++ name)
  simp only [← String.append_assoc] at h
  exact ⟨rfl, rfl, .cons (.append _ h) .nil⟩

theorem alike_publishTarget (kind : VarKind) (t : Tree) :
    (publishTarget G kind t).Alike R (publishTarget G' kind t) := by
  fun_induction publishTarget G kind t with
  | case1 name span children => exact alike_publishName hR kind _ _
  | case2 span target rest ih => exact ih
  | case3 span target rest ih => exact ih
  | case4 t h1 h2 h3 =>
    have h : publishTarget G' kind t = .none := by
      unfold publishTarget
      split <;> simp_all
    rw [h]
    exact .none

theorem alike_publishProperty (kind : VarKind) (t : Tree) :
    (publishProperty G kind t).Alike R (publishProperty G' kind t) := by
  rw [publishProperty.eq_def G, publishProperty.eq_def G']
  split
  · exact alike_publishTarget hR kind _
  · exact alike_publishShorthand hR kind _ _
  · exact alike_publishTarget hR kind _
  · exact .none

omit hR in
mutual

theorem alike_publishPattern (hR : Mirrors R G G') (kind : VarKind) : ∀ t : Tree,
    (publishPattern G kind t).Alike R (publishPattern G' kind t)
  | .node label span children => by
    rw [publishPattern.eq_def G, publishPattern.eq_def G']
    split
    · rename_i e
      cases e
      exact (Published.Alike.all fun t _ => alike_publishProperty hR kind t).append
        (alike_publishPatternsOf hR kind children)
    · rename_i e
      cases e
      exact (Published.Alike.all fun t _ => alike_publishTarget hR kind t).append
        (alike_publishPatterns hR kind children)
    · rename_i e
      cases e
      exact alike_publishPattern hR kind _
    · rename_i e
      cases e
      exact alike_publishPattern hR kind _
    · exact .none

theorem alike_publishPatterns (hR : Mirrors R G G') (kind : VarKind) : ∀ ts : List Tree,
    (publishPatterns G kind ts).Alike R (publishPatterns G' kind ts)
  | [] => .none
  | t :: ts => (alike_publishPattern hR kind t).append (alike_publishPatterns hR kind ts)

theorem alike_publishPatternsOf (hR : Mirrors R G G') (kind : VarKind) : ∀ ts : List Tree,
    (publishPatternsOf G kind ts).Alike R (publishPatternsOf G' kind ts)
  | [] => .none
  | t :: ts => by
    rw [publishPatternsOf.eq_def G, publishPatternsOf.eq_def G']
    split
    · rename_i e
      cases e
    · rename_i e
      cases e
      exact (alike_publishPattern hR kind _).append (alike_publishPatternsOf hR kind ts)
    · rename_i e
      cases e
      exact (alike_publishPattern hR kind _).append (alike_publishPatternsOf hR kind ts)
    · rename_i e
      cases e
      exact alike_publishPatternsOf hR kind ts

end

theorem alike_declaratorEdits (span : Span) (init : Tree) :
    List.Forall₂ (Edit.Alike R) (declaratorEdits span init) (declaratorEdits span init) := by
  unfold declaratorEdits
  split
  · exact alike_enclose hR span (hR.inserted _) _
  · refine .cons (.prepend _ (hR.inserted _)) ?_
    exact List.rel_append (alike_enclose hR _ (hR.inserted _) _) (.cons (.append _ (hR.inserted _)) .nil)

theorem alike_publishDeclarator (kind : VarKind) (form : DeclarationForm) (t : Tree) :
    (publishDeclarator G kind form t).Alike R (publishDeclarator G' kind form t) := by
  unfold publishDeclarator
  split
  · refine ((alike_publishTarget hR kind _).append (alike_publishPattern hR kind _)).append (.ofEdits ?_)
    split
    · exact alike_declaratorEdits hR _ _
    · exact .nil
  · exact .none

theorem alike_publishDeclaration (kind : VarKind) (form : DeclarationForm) (span : Span)
    (ds : List Tree) :
    (publishDeclaration G kind form span ds).Alike R (publishDeclaration G' kind form span ds) := by
  have hclose : List.Forall₂ (Edit.Alike R) (closeDeclaration ds) (closeDeclaration ds) := by
    unfold closeDeclaration
    split
    · exact .cons (.append _ (hR.inserted _)) .nil
    · exact .nil
  refine .append (.append (.ofEdits (.cons (.replace _ (hR.inserted _)) .nil))
    (.all fun d _ => alike_publishDeclarator hR kind form d)) ⟨rfl, rfl, ?_⟩
  show List.Forall₂ (Edit.Alike R) (if form = .statement then closeDeclaration ds else [])
    (if form = .statement then closeDeclaration ds else [])
  split
  · exact hclose
  · exact .nil

theorem alike_publishFunction (name : String) (fn : Tree) :
    (publishFunction G name fn).Alike R (publishFunction G' name fn) := by
  have h := hR.named "void (" ("." ++ name ++ " = ")
  simp only [← String.append_assoc] at h
  exact ⟨rfl, rfl, alike_enclose hR fn.span h _⟩

theorem alike_publishClass (name : String) (cls : Tree) :
    (publishClass G name cls).Alike R (publishClass G' name cls) := by
  have h := hR.named "" ("." ++ name ++ " = (")
  simp only [← String.append_assoc, String.empty_append] at h
  exact ⟨rfl, rfl, alike_enclose hR cls.span h _⟩

omit hR in
mutual

theorem alike_publish (hR : Mirrors R G G') (place : Place) : ∀ t : Tree,
    (publish G place t).Alike R (publish G' place t)
  | .node label span children => by
    rw [publish.eq_def G, publish.eq_def G']
    split
    · exact alike_publishFunction hR _ _
    · split
      · exact alike_publishClass hR _ _
      · exact .none
    · split
      · exact alike_publishDeclaration hR _ _ _ _
      · exact .none
    · rename_i e
      cases e
      split
      · exact .none
      · split <;> exact alike_publishFrom hR _ children

theorem alike_publishFrom (hR : Mirrors R G G') (first : Place) : ∀ ts : List Tree,
    (publishFrom G first ts).Alike R (publishFrom G' first ts)
  | [] => .none
  | t :: ts => (alike_publish hR first t).append (alike_publishFrom hR .inner ts)

end

theorem alike_publishBody (body : List Tree) : (publishBody G body).Alike R (publishBody G' body) :=
  .all fun t _ => alike_publish hR .body t

theorem alike_returnEdits (body : List Tree) :
    List.Forall₂ (Edit.Alike R) (returnEdits body) (returnEdits body) := by
  unfold returnEdits
  split
  · exact alike_enclose hR _ (hR.inserted _) _
  · exact .nil

end

/-! ## What is imported -/

def SameChars (t t' : TaggedText) : Prop := t.chars = t'.chars

theorem glues_sameChars : Glues SameChars where
  nil := rfl
  append h h' := by
    unfold SameChars at h h' ⊢
    rw [chars_append, chars_append, h, h']

/-- The sites differ in what the relation passes over, and in the name of the import function. -/
structure ImportSite.Alike (R : TaggedText → TaggedText → Prop) (s s' : ImportSite) : Prop where
  base : s.base = s'.base
  draft : s.draft.Alike R s'.draft
  chars : s.draft.Alike SameChars s'.draft

structure AwaitedImports.Alike (R : TaggedText → TaggedText → Prop) (r r' : AwaitedImports) : Prop where
  rows : r.rows = r'.rows
  effects : r.effects = r'.effects
  edits : List.Forall₂ (Edit.Alike R) r.edits r'.edits

section
variable {R : TaggedText → TaggedText → Prop} {s s' : ImportSite}
  (hR : Mirrors R s.importParam s'.importParam) (h : s.Alike R s')
include h

theorem text_excerpt_congr (span : Span) : (s.excerpt span).text = (s'.excerpt span).text := by
  have hc := h.chars.slice glues_sameChars (span.shift s.base)
  unfold ImportSite.excerpt TaggedText.text
  rw [← h.base]
  exact congrArg String.ofList hc

theorem row_congr (d : ImportDecl) (i : ImportSpecifier) : s.row d i = s'.row d i := by
  have hname : s.importedName i = s'.importedName i := by
    unfold ImportSite.importedName
    split <;> first | rfl | exact text_excerpt_congr h _
  unfold ImportSite.row
  rw [hname, text_excerpt_congr h]

theorem endedOutside_congr (d : ImportDecl) : s.endedOutside d = s'.endedOutside d := by
  have hslice := h.chars.slice glues_sameChars (d.span.shift s.base)
  have hslot : ∀ i, ((s.draft.slot? i).any fun t => t.text == ";") =
      ((s'.draft.slot? i).any fun t => t.text == ";") := by
    intro i
    have hi := h.chars.held i
    have hsize := h.chars.size_eq
    unfold Draft.slot?
    unfold Draft.held SameChars at hi
    unfold Draft.size at hsize
    by_cases hlt : i < s.draft.slots.size
    · have hlt' : i < s'.draft.slots.size := hsize ▸ hlt
      simp only [hlt, hlt', Array.getElem?_eq_getElem, Option.getD_some] at hi
      simp [hlt, hlt', TaggedText.text, hi]
    · have hlt' : ¬i < s'.draft.slots.size := hsize ▸ hlt
      simp [hlt, hlt']
  unfold SameChars at hslice
  simp only [ImportSite.endedOutside, ← h.base, hslot, hslice]

include hR

theorem alike_excerpt (span : Span) : R (s.excerpt span) (s'.excerpt span) := by
  have hs := h.draft.slice hR.toGlues (span.shift s.base)
  unfold ImportSite.excerpt
  rwa [← h.base]

theorem alike_call (d : ImportDecl) : R (s.call d) (s'.call d) := by
  unfold ImportSite.call
  refine hR.append (hR.append (hR.append (hR.named _ _) (alike_excerpt hR h _)) ?_) (hR.inserted _)
  split
  · exact hR.append (hR.append (hR.inserted _) (alike_excerpt hR h _)) (hR.inserted _)
  · exact hR.nil

theorem alike_entry (i : ImportSpecifier) : R (s.entry i) (s'.entry i) := by
  unfold ImportSite.entry
  split
  · refine hR.append (hR.append (hR.append (hR.append (hR.inserted _) ?_) (hR.inserted _)) ?_)
      (hR.inserted _)
    · exact alike_excerpt hR h _
    · exact alike_excerpt hR h _
  · exact hR.append (hR.append (hR.inserted _) (alike_excerpt hR h _)) (hR.inserted _)
  · exact hR.append (hR.append (hR.inserted _) (alike_excerpt hR h _)) (hR.inserted _)
  · exact hR.append (hR.inserted _) (alike_excerpt hR h _)

theorem alike_rendering (d : ImportDecl) : R (s.rendering d) (s'.rendering d) := by
  unfold ImportSite.rendering
  split
  · exact alike_call hR h d
  · have hentries : List.Forall₂ R (d.specifiers.map s.entry) (d.specifiers.map s'.entry) := by
      rw [List.forall₂_map_left_iff, List.forall₂_map_right_iff, List.forall₂_same]
      exact fun i _ => alike_entry hR h i
    refine hR.append (hR.append (hR.append (hR.append (hR.inserted _) ?_) (hR.inserted _)) ?_)
      (hR.inserted _)
    · exact hR.intercalate (hR.inserted _) hentries
    · exact alike_call hR h d

theorem alike_edit (d : ImportDecl) : (s.edit d).Alike R (s'.edit d) := by
  unfold ImportSite.edit
  rw [← h.base, endedOutside_congr h]
  refine .replace _ (hR.append (alike_rendering hR h d) ?_)
  split
  · exact hR.nil
  · exact hR.inserted _

theorem agree_awaited (m : Module) : Agree (AwaitedImports.Alike R) (s.awaited m) (s'.awaited m) := by
  unfold ImportSite.awaited
  split
  · exact .error _
  · refine .ok ⟨?_, ?_, ?_⟩
    · rw [show s.row = s'.row from funext fun d => funext (row_congr h d)]
    · simp only [text_excerpt_congr h]
    · rw [List.forall₂_map_left_iff, List.forall₂_map_right_iff, List.forall₂_same]
      exact fun d _ => alike_edit hR h d

theorem agree_apply (m : Module) :
    Agree (fun x y => x.1.Alike R y.1 ∧ x.2.Alike R y.2) (s.apply m) (s'.apply m) := by
  unfold ImportSite.apply
  refine ((agree_awaited hR h m).mapError _).bind fun r r' hr => ?_
  refine ((h.draft.applyAll hR.toGlues hr.edits).mapError _).bind fun d d' hd => ?_
  exact .ok ⟨hr, hd⟩

end

end NotebookCell
