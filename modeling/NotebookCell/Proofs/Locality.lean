import NotebookCell.Proofs.EditRanges

/-!
# Rewriting in place

Nodes side by side have no position in common. So on the span of a declaration no edits act but its
own, wherever in the cell it stands.
-/

namespace NotebookCell

open Script

/-! ## Edits on a span -/

/-- On the slots of the span, edits do what others do. -/
def ActLike (s : Span) (es ds : List Edit) : Prop :=
  ∀ i, s.start ≤ i → i < s.stop → ∀ x, actAll es i x = actAll ds i x

section
variable {s : Span} {es ds fs : List Edit}

theorem stretch_of_actLike {held : Nat → Slot} (h : ActLike s es ds) :
    stretch (fun i => actAll es i (held i)) s.start s.stop =
      stretch (fun i => actAll ds i (held i)) s.start s.stop :=
  stretch_congr fun i hi hi' => h i hi hi' _

theorem ActLike.mono {s' : Span} (h : ActLike s es ds) (h1 : s.start ≤ s'.start)
    (h2 : s'.stop ≤ s.stop) : ActLike s' es ds :=
  fun i hi hi' => h i (Nat.le_trans h1 hi) (Nat.lt_of_lt_of_le hi' h2)

theorem ActLike.trans (h : ActLike s es ds) (h' : ActLike s ds fs) : ActLike s es fs := by
  intro i hi hi' x
  rw [h i hi hi', h' i hi hi']

theorem ActLike.append {es' ds' : List Edit} (h : ActLike s es ds) (h' : ActLike s es' ds') :
    ActLike s (es ++ es') (ds ++ ds') := by
  intro i hi hi' x
  rw [actAll_append, actAll_append, h i hi hi', h' i hi hi']

theorem ActLike.append_left (h : ActLike s es fs) (hd : ActLike s ds []) : ActLike s (es ++ ds) fs := by
  intro i hi hi' x
  rw [actAll_append, h i hi hi', hd i hi hi', actAll_nil]

theorem ActLike.append_right (h : ActLike s ds fs) (he : ActLike s es []) : ActLike s (es ++ ds) fs := by
  intro i hi hi' x
  rw [actAll_append, he i hi hi', actAll_nil, h i hi hi']

theorem actLike_nil (h : ∀ e ∈ es, ∃ within, e.InsertsIn within ∧
    (within.stop ≤ s.start ∨ s.stop ≤ within.start)) : ActLike s es [] := by
  intro i hi hi' x
  refine actAll_of_outside (fun e he => ?_) x
  obtain ⟨within, hin, hs⟩ := h e he
  have h1 := hin.start_le
  have h2 := hin.start_lt_stop
  have h3 := hin.stop_le
  omega

end

/-! ## Nodes side by side -/

/-- One node ends before the other begins, or one of them is missing. -/
def Script.Tree.isBefore (t u : Tree) : Bool :=
  t.label == .absent || u.label == .absent || t.span.stop ≤ u.span.start

def inOrder : List Tree → Bool
  | [] => true
  | t :: ts => ts.all t.isBefore && inOrder ts

def Script.Tree.apartFrom (t u : Tree) : Bool := t.isBefore u || u.isBefore t

def sideBySide : List Tree → Bool
  | [] => true
  | t :: ts => ts.all t.apartFrom && sideBySide ts

/-- The name of the node stands inside of the node next to it. -/
def Script.Label.namesPart : Label → Bool
  | .funDecl | .classDecl | .functionExpr | .classExpr | .method | .memberMethod _ => true
  | _ => false

theorem Script.Label.isInner_parts_of_namesPart {label : Label} (h : label.namesPart) (count : Nat) :
    ∀ part ∈ label.parts count, part.isInner := by
  cases label <;> simp_all [Label.namesPart, Label.parts, Part.isInner]

/-- The parts of the node do not stand in the order in which a walk meets them. -/
def Script.Label.isReordered : Label → Bool
  | .doWhile | .classDef => true
  | _ => false

mutual

/-- Everywhere in the tree the nodes side by side have no position in common. -/
def Script.Tree.spreads : Tree → Bool
  | .node label _ children =>
    (label.namesPart || if label.isReordered then sideBySide children else inOrder children) &&
      spreadsAll children

def Script.spreadsAll : List Tree → Bool
  | [] => true
  | t :: ts => t.spreads && spreadsAll ts

end

theorem spreads_of_mem {ts : List Tree} (h : spreadsAll ts) {t : Tree} (ht : t ∈ ts) : t.spreads := by
  induction ts with
  | nil => cases ht
  | cons u ts ih =>
    simp only [spreadsAll, Bool.and_eq_true] at h
    rcases List.mem_cons.mp ht with rfl | ht
    · exact h.1
    · exact ih h.2 ht

theorem inOrder_cons {t : Tree} {ts : List Tree} :
    inOrder (t :: ts) ↔ (∀ u ∈ ts, t.isBefore u) ∧ inOrder ts := by
  simp [inOrder]

theorem isBefore_of_inOrder_append {ts us : List Tree} (h : inOrder (ts ++ us)) {t u : Tree}
    (ht : t ∈ ts) (hu : u ∈ us) : t.isBefore u := by
  induction ts with
  | nil => cases ht
  | cons v ts ih =>
    obtain ⟨hv, h⟩ := inOrder_cons.mp h
    rcases List.mem_cons.mp ht with rfl | ht
    · exact hv u (by simp [hu])
    · exact ih h ht

theorem isBefore_iff {t u : Tree} (ht : t.label ≠ .absent) (hu : u.label ≠ .absent) :
    t.isBefore u ↔ t.span.stop ≤ u.span.start := by
  simp [Tree.isBefore, ht, hu]

theorem sideBySide_cons {t : Tree} {ts : List Tree} :
    sideBySide (t :: ts) ↔ (∀ u ∈ ts, t.apartFrom u) ∧ sideBySide ts := by
  simp [sideBySide]

theorem apartFrom_iff {t u : Tree} (ht : t.label ≠ .absent) (hu : u.label ≠ .absent) :
    t.apartFrom u ↔ t.span.stop ≤ u.span.start ∨ u.span.stop ≤ t.span.start := by
  rw [Tree.apartFrom, Bool.or_eq_true, isBefore_iff ht hu, isBefore_iff hu ht]

theorem sideBySide_of_inOrder {ts : List Tree} (h : inOrder ts) : sideBySide ts := by
  induction ts with
  | nil => rfl
  | cons t ts ih =>
    obtain ⟨ht, hts⟩ := inOrder_cons.mp h
    exact sideBySide_cons.mpr ⟨fun u hu => by simp [Tree.apartFrom, ht u hu], ih hts⟩

theorem sideBySide_of_spreads {label : Label} {span : Span} {children : List Tree}
    (hl : label.namesPart = false) (h : (Script.Tree.node label span children).spreads) :
    sideBySide children := by
  simp only [Tree.spreads, hl, Bool.false_or, Bool.and_eq_true] at h
  have h := h.1
  split at h
  · exact h
  · exact sideBySide_of_inOrder h

/-! ## Declarations in their place -/

mutual

theorem nestedIn_of_mem_outerNodes {within : Span} {d : Tree} (hl : d.label ≠ .absent) :
    ∀ (t : Tree) {part : Part}, t.fits part → t.nestedIn within → d ∈ outerNodes t →
      t.label ≠ .absent ∧ d.nestedIn within
  | .node label span children, part, hf, h, hd => by
    simp only [Tree.fits, Bool.and_eq_true] at hf
    rw [outerNodes] at hd
    split at hd
    · cases hd
    · rcases List.mem_cons.mp hd with rfl | hm
      · exact ⟨hl, h⟩
      · by_cases ha : label = .absent
        · subst ha
          rw [fitsAll_nil hf.2] at hm
          cases hm
        · exact ⟨ha, nestedIn_of_mem_outerNodesOf hl children hf.2
            (fun t ht => nestedIn_of_mem_children ha h ht) hm⟩

theorem nestedIn_of_mem_outerNodesOf {within : Span} {d : Tree} (hl : d.label ≠ .absent) :
    ∀ (ts : List Tree) {parts : List Part}, fitsAll parts ts → (∀ t ∈ ts, t.nestedIn within) →
      d ∈ outerNodesOf ts → d.nestedIn within
  | [], _, _, _, hd => by cases hd
  | t :: ts, parts, hf, h, hd => by
    obtain ⟨part, rest, rfl, ht, hts⟩ := fitsAll_cons hf
    rcases List.mem_append.mp hd with hd | hd
    · exact (nestedIn_of_mem_outerNodes hl t ht (h t (by simp)) hd).2
    · exact nestedIn_of_mem_outerNodesOf hl ts hts (fun u hu => h u (by simp [hu])) hd

end

section
variable (G : String) {within : Span} {d t : Tree} {ts : List Tree} {part : Part} {parts : List Part}

theorem insertsIn_span (place : Place) (hf : t.fits part) (h : t.nestedIn within) :
    ∀ e ∈ (publish G place t).edits, t.label ≠ .absent ∧ e.InsertsIn t.span := by
  intro e he
  by_cases hl : t.label = .absent
  · obtain ⟨label, span, children⟩ := t
    simp only [Tree.label] at hl
    subst hl
    simp only [Tree.fits, Bool.and_eq_true] at hf
    rw [fitsAll_nil hf.2, publish_of_not_isDeclaration G rfl] at he
    cases he
  · exact ⟨hl, insertsIn_publish G t place hf (nestedIn_self hl h) e he⟩

theorem mem_edits_publishFrom {first : Place} {e : Edit} (he : e ∈ (publishFrom G first ts).edits) :
    ∃ u ∈ ts, ∃ place, e ∈ (publish G place u).edits := by
  induction ts generalizing first with
  | nil => cases he
  | cons u ts ih =>
    rcases List.mem_append.mp he with he | he
    · exact ⟨u, by simp, first, he⟩
    · obtain ⟨v, hv, place, he⟩ := ih he
      exact ⟨v, by simp [hv], place, he⟩

end

/-! ## Edits and declarations -/

section
variable (G : String)

theorem mem_outerNodes_self {d : Tree} (hd : d.label.isDeclaration) : d ∈ outerNodes d := by
  obtain ⟨label, span, children⟩ := d
  have hs : label.opensScope = false := by cases label <;> first | rfl | cases hd
  simp [outerNodes, hs]

mutual

/-- Edits are made by declarations outside of functions and classes. -/
theorem exists_declaration_of_mem_edits : ∀ (t : Tree) {part : Part} (place : Place) {e : Edit},
    t.fits part → e ∈ (publish G place t).edits → ∃ d ∈ outerNodes t,
      d.label.isDeclaration ∧ (∃ part, d.fits part) ∧ ∃ p, e ∈ (publish G p d).edits
  | .node label span children, part, place, e, hf, he => by
    cases hd : label.isDeclaration with
    | true => exact ⟨_, mem_outerNodes_self (by exact hd), hd, ⟨part, hf⟩, place, he⟩
    | false =>
      simp only [Tree.fits, Bool.and_eq_true] at hf
      rw [publish_of_not_isDeclaration G hd] at he
      rw [outerNodes]
      split at he
      · cases he
      · rename_i hs
        obtain ⟨d, hm, hdecl⟩ := exists_declaration_of_mem_editsFrom children _ hf.2 he
        rw [if_neg hs]
        exact ⟨d, List.mem_cons_of_mem _ hm, hdecl⟩

theorem exists_declaration_of_mem_editsFrom : ∀ (ts : List Tree) {parts : List Part} (first : Place)
    {e : Edit}, fitsAll parts ts → e ∈ (publishFrom G first ts).edits → ∃ d ∈ outerNodesOf ts,
      d.label.isDeclaration ∧ (∃ part, d.fits part) ∧ ∃ p, e ∈ (publish G p d).edits
  | [], _, _, _, _, he => by cases he
  | t :: ts, parts, first, e, hf, he => by
    obtain ⟨part, rest, rfl, ht, hts⟩ := fitsAll_cons hf
    rw [outerNodesOf]
    rcases List.mem_append.mp he with he | he
    · obtain ⟨d, hm, hdecl⟩ := exists_declaration_of_mem_edits t first ht he
      exact ⟨d, List.mem_append_left _ hm, hdecl⟩
    · obtain ⟨d, hm, hdecl⟩ := exists_declaration_of_mem_editsFrom ts .inner hts he
      exact ⟨d, List.mem_append_right _ hm, hdecl⟩

end

/-- Where no declaration can stand below, nothing is edited. -/
theorem edits_publish_eq_nil {label : Label} {span : Span} {children : List Tree}
    (hd : label.isDeclaration = false)
    (hp : label.opensScope = false → ∀ part ∈ label.parts children.length, part.isInner)
    (hf : fitsAll (label.parts children.length) children) (place : Place) :
    (publish G place (.node label span children)).edits = [] := by
  rw [publish_of_not_isDeclaration G hd]
  split
  · rfl
  · rename_i hs
    rw [List.eq_nil_iff_forall_not_mem]
    intro e he
    obtain ⟨d, hm, hdecl, -⟩ := exists_declaration_of_mem_editsFrom G children _ hf he
    rw [not_isDeclaration_of_mem_outerNodesOf children (hp (by simpa using hs)) hf d hm] at hdecl
    cases hdecl

end

theorem span_of_mem_outerNodes {within : Span} {d t : Tree} {part : Part} (hl : d.label ≠ .absent)
    (hf : t.fits part) (hn : t.nestedIn within) (hm : d ∈ outerNodes t) :
    t.label ≠ .absent ∧ t.span.start ≤ d.span.start ∧ d.span.stop ≤ t.span.stop := by
  obtain ⟨ht, -⟩ := nestedIn_of_mem_outerNodes hl t hf hn hm
  obtain ⟨-, hdt⟩ := nestedIn_of_mem_outerNodes hl t hf (nestedIn_self ht hn) hm
  obtain ⟨h1, -, h3⟩ := nestedIn_span hl hdt
  exact ⟨ht, h1, h3⟩

theorem actLike_nil_of_apartFrom {t : Tree} {es : List Edit} (ht : t.label ≠ .absent)
    (he : ∀ e ∈ es, ∃ u : Tree, (t.apartFrom u ∨ u.apartFrom t) ∧ u.label ≠ .absent ∧
      e.InsertsIn u.span) : ActLike t.span es [] := by
  refine actLike_nil fun e hm => ?_
  obtain ⟨u, ha, hu, hin⟩ := he e hm
  rw [apartFrom_iff ht hu, apartFrom_iff hu ht] at ha
  exact ⟨u.span, hin, by omega⟩

theorem exists_fits_of_mem {parts : List Part} {ts : List Tree} (h : fitsAll parts ts) {t : Tree}
    (ht : t ∈ ts) : ∃ part, t.fits part := by
  induction ts generalizing parts with
  | nil => cases ht
  | cons u ts ih =>
    obtain ⟨part, rest, rfl, hu, hts⟩ := fitsAll_cons h
    rcases List.mem_cons.mp ht with rfl | ht
    · exact ⟨part, hu⟩
    · exact ih hts ht

theorem mem_outerNodesOf {d : Tree} {ts : List Tree} :
    d ∈ outerNodesOf ts ↔ ∃ t ∈ ts, d ∈ outerNodes t := by
  induction ts with
  | nil => simp [outerNodesOf]
  | cons t ts ih => simp [outerNodesOf, ih]

mutual

theorem fits_of_mem_outerNodes {d : Tree} : ∀ (t : Tree) {part : Part}, t.fits part → t.spreads →
    d ∈ outerNodes t → (∃ part, d.fits part) ∧ d.spreads
  | .node label span children, part, hf, hs, hm => by
    rw [outerNodes] at hm
    split at hm
    · cases hm
    · rcases List.mem_cons.mp hm with rfl | hm
      · exact ⟨⟨part, hf⟩, hs⟩
      · simp only [Tree.fits, Tree.spreads, Bool.and_eq_true] at hf hs
        exact fits_of_mem_outerNodesOf children hf.2 hs.2 hm

theorem fits_of_mem_outerNodesOf {d : Tree} : ∀ (ts : List Tree) {parts : List Part}, fitsAll parts ts →
    spreadsAll ts → d ∈ outerNodesOf ts → (∃ part, d.fits part) ∧ d.spreads
  | [], _, _, _, hm => by cases hm
  | t :: ts, parts, hf, hs, hm => by
    obtain ⟨part, rest, rfl, ht, hts⟩ := fitsAll_cons hf
    simp only [spreadsAll, Bool.and_eq_true] at hs
    rcases List.mem_append.mp hm with hm | hm
    · exact fits_of_mem_outerNodes t ht hs.1 hm
    · exact fits_of_mem_outerNodesOf ts hts hs.2 hm

end

def loopHead : Tree → List Tree
  | .node .forIn _ children => children.take 1
  | .node (.forOf _) _ children => children.take 1
  | _ => []

/-- What the loops over keys or values of a cell begin with. -/
def loopHeads (ts : List Tree) : List Tree := (outerNodesOf ts).flatMap loopHead

theorem mem_loopHead {label : Label} {span : Span} {children : List Tree} {t : Tree}
    (hp : firstPlace label = .eachHead) (ht : children.head? = some t) :
    t ∈ loopHead (.node label span children) := by
  cases children with
  | nil => cases ht
  | cons u us =>
    cases ht
    cases label <;> simp_all [firstPlace, loopHead]

theorem label_ne_absent_of_not_isInner {d : Tree} (hd : d.label.isInner = false) : d.label ≠ .absent := by
  intro h
  rw [h] at hd
  cases hd

theorem label_ne_absent {d : Tree} (hd : d.label.isDeclaration) : d.label ≠ .absent :=
  label_ne_absent_of_not_isInner (Label.isInner_eq_false hd)

section
variable (G : String) {d : Tree} (hd : d.label.isInner = false)
include hd

mutual

/-- Among the edits of a tree, those of a declaration or another statement are alone on its span. -/
theorem actLike_publish : ∀ (t : Tree) {part : Part} {within : Span} (place : Place), t.fits part →
    t.nestedIn within → t.spreads → d ∈ outerNodes t →
      ∃ p, ActLike d.span (publish G place t).edits (publish G p d).edits ∧
        ((d = t ∧ p = place) ∨ p = .inner ∨ (p = .eachHead ∧ d ∈ (outerNodes t).flatMap loopHead))
  | .node label span children, part, within, place, hf, h, hs, hm => by
    rw [outerNodes] at hm
    simp only [Tree.fits, Bool.and_eq_true] at hf
    cases hsc : label.opensScope with
    | true => simp [hsc] at hm
    | false =>
      rw [hsc] at hm
      rcases List.mem_cons.mp hm with rfl | hm'
      · exact ⟨place, fun _ _ _ _ => rfl, .inl ⟨rfl, rfl⟩⟩
      · -- below expressions, patterns and declarations no declaration stands, so this is a statement
        have hinner : ¬∀ part ∈ label.parts children.length, part.isInner := fun hp => by
          rw [isInner_of_mem_outerNodesOf children hp hf.2 d hm'] at hd
          cases hd
        have hl : label.isDeclaration = false := by
          by_contra hl
          exact hinner (Label.isInner_parts_of_isDeclaration (by simpa using hl) _)
        have ha : label ≠ .absent := by
          rintro rfl
          exact absurd hm' (by simp [fitsAll_nil hf.2, outerNodesOf])
        have hnames : label.namesPart = false := by
          by_contra hn
          exact hinner (Label.isInner_parts_of_namesPart (by simpa using hn) _)
        have hc := sideBySide_of_spreads hnames hs
        simp only [Tree.spreads, Bool.and_eq_true] at hs
        obtain ⟨p, hlike, hp⟩ := actLike_publishFrom children (firstPlace label) hf.2
          (fun t ht => nestedIn_of_mem_children ha h ht) hc (fun t ht => spreads_of_mem hs.2 ht) hm'
        refine ⟨p, ?_, ?_⟩
        · rwa [publish_of_not_isDeclaration G hl, hsc]
        · rw [outerNodes, hsc]
          rcases hp with ⟨hhead, rfl⟩ | hp | hp
          · cases hfirst : firstPlace label with
            | eachHead => exact .inr (.inr ⟨rfl, by simp [mem_loopHead hfirst hhead]⟩)
            | inner => exact .inr (.inl rfl)
            | body => cases label <;> cases hfirst
          · exact .inr (.inl hp)
          · exact .inr (.inr ⟨hp.1, by simp only [loopHeads] at hp; simp [hp.2]⟩)

theorem actLike_publishFrom : ∀ (ts : List Tree) {parts : List Part} {within : Span} (first : Place),
    fitsAll parts ts → (∀ t ∈ ts, t.nestedIn within) → sideBySide ts → (∀ t ∈ ts, t.spreads) →
      d ∈ outerNodesOf ts → ∃ p, ActLike d.span (publishFrom G first ts).edits (publish G p d).edits ∧
        ((ts.head? = some d ∧ p = first) ∨ p = .inner ∨ (p = .eachHead ∧ d ∈ loopHeads ts))
  | [], _, _, _, _, _, _, _, hm => by cases hm
  | t :: ts, parts, within, first, hf, h, hb, hs, hm => by
    obtain ⟨part, rest, rfl, hft, hfts⟩ := fitsAll_cons hf
    obtain ⟨ha, hb⟩ := sideBySide_cons.mp hb
    rcases List.mem_append.mp hm with hm | hm
    · obtain ⟨p, hlike, hp⟩ := actLike_publish t first hft (h t (by simp)) (hs t (by simp)) hm
      obtain ⟨hl, h1, h2⟩ := span_of_mem_outerNodes (label_ne_absent_of_not_isInner hd) hft (h t (by simp)) hm
      have hrest : ActLike t.span (publishFrom G .inner ts).edits [] :=
        actLike_nil_of_apartFrom hl fun e he => by
          obtain ⟨u, hu, place, he⟩ := mem_edits_publishFrom G he
          obtain ⟨part, hfu⟩ := exists_fits_of_mem hfts hu
          exact ⟨u, .inl (ha u hu), insertsIn_span G place hfu (h u (by simp [hu])) e he⟩
      refine ⟨p, hlike.append_left (hrest.mono h1 h2), ?_⟩
      rcases hp with ⟨rfl, rfl⟩ | hp | hp
      · exact .inl ⟨rfl, rfl⟩
      · exact .inr (.inl hp)
      · exact .inr (.inr ⟨hp.1, by simp [loopHeads, outerNodesOf, hp.2]⟩)
    · obtain ⟨u, hu, hmu⟩ := mem_outerNodesOf.mp hm
      obtain ⟨part', hfu⟩ := exists_fits_of_mem hfts hu
      obtain ⟨p, hlike, hp⟩ := actLike_publishFrom ts .inner hfts (fun u hu => h u (by simp [hu])) hb
        (fun u hu => hs u (by simp [hu])) hm
      obtain ⟨hl, h1, h2⟩ :=
        span_of_mem_outerNodes (label_ne_absent_of_not_isInner hd) hfu (h u (by simp [hu])) hmu
      have hfirst : ActLike u.span (publish G first t).edits [] :=
        actLike_nil_of_apartFrom hl fun e he =>
          ⟨t, .inr (ha u hu), insertsIn_span G first hft (h t (by simp)) e he⟩
      refine ⟨p, hlike.append_right (hfirst.mono h1 h2), ?_⟩
      rcases hp with ⟨-, rfl⟩ | hp | hp
      · exact .inr (.inl rfl)
      · exact .inr (.inl hp)
      · exact .inr (.inr ⟨hp.1, by simp only [loopHeads] at hp; simp [loopHeads, outerNodesOf, hp.2]⟩)

end

end

theorem mem_edits_all {f : Tree → Published} {ts : List Tree} {e : Edit}
    (he : e ∈ (Published.all f ts).edits) : ∃ u ∈ ts, e ∈ (f u).edits := by
  induction ts with
  | nil => cases he
  | cons u ts ih =>
    rcases List.mem_append.mp he with he | he
    · exact ⟨u, by simp, he⟩
    · obtain ⟨v, hv, he⟩ := ih he
      exact ⟨v, by simp [hv], he⟩

theorem edits_all_append (f : Tree → Published) (ts us : List Tree) :
    (Published.all f (ts ++ us)).edits = (Published.all f ts).edits ++ (Published.all f us).edits := by
  induction ts with
  | nil => rfl
  | cons t ts ih => simp [ih]

theorem sideBySide_append_cons {ts us : List Tree} {t : Tree} (h : sideBySide (ts ++ t :: us)) :
    (∀ u ∈ ts, u.apartFrom t) ∧ ∀ u ∈ us, t.apartFrom u := by
  induction ts with
  | nil => exact ⟨by simp, (sideBySide_cons.mp h).1⟩
  | cons v ts ih =>
    obtain ⟨hv, h⟩ := sideBySide_cons.mp h
    obtain ⟨h1, h2⟩ := ih h
    exact ⟨List.forall_mem_cons.mpr ⟨hv t (by simp), h1⟩, h2⟩

theorem apartFrom_of_mem {ts : List Tree} (h : sideBySide ts) {t u : Tree} (ht : t ∈ ts) (hu : u ∈ ts)
    (hne : t ≠ u) : t.apartFrom u ∨ u.apartFrom t := by
  obtain ⟨before, after, rfl⟩ := List.append_of_mem ht
  obtain ⟨hbefore, hafter⟩ := sideBySide_append_cons h
  rcases List.mem_append.mp hu with hu | hu
  · exact .inr (hbefore u hu)
  · rcases List.mem_cons.mp hu with rfl | hu
    · exact absurd rfl hne
    · exact .inl (hafter u hu)

/-- Where each node is edited in its own span only, its edits are alone on it. -/
theorem actLike_all {f : Tree → Published} {ts : List Tree}
    (hin : ∀ u ∈ ts, ∀ e ∈ (f u).edits, u.label ≠ .absent ∧ e.InsertsIn u.span) (hb : sideBySide ts)
    {t : Tree} (ht : t ∈ ts) (hl : t.label ≠ .absent) :
    ActLike t.span (Published.all f ts).edits (f t).edits := by
  obtain ⟨before, after, rfl⟩ := List.append_of_mem ht
  obtain ⟨hbefore, hafter⟩ := sideBySide_append_cons hb
  have h1 : ActLike t.span (Published.all f before).edits [] :=
    actLike_nil_of_apartFrom hl fun e he => by
      obtain ⟨u, hu, he⟩ := mem_edits_all he
      exact ⟨u, .inr (hbefore u hu), hin u (by simp [hu]) e he⟩
  have h2 : ActLike t.span (Published.all f after).edits [] :=
    actLike_nil_of_apartFrom hl fun e he => by
      obtain ⟨u, hu, he⟩ := mem_edits_all he
      exact ⟨u, .inl (hafter u hu), hin u (by simp [hu]) e he⟩
  have hown : ActLike t.span (f t).edits (f t).edits := fun _ _ _ _ => rfl
  rw [edits_all_append]
  exact (hown.append_left h2).append_right h1

/-! ## Cells -/

theorem isDeclaration_of_mem_cellDeclarations {body : List Tree} {d : Tree}
    (hd : d ∈ cellDeclarations body) : d.label.isDeclaration := by
  have h : isHoisted d ∨ isLexical d := by
    rcases List.mem_append.mp hd with hd | hd
    · exact .inl (List.mem_filter.mp hd).2
    · exact .inr (List.mem_filter.mp hd).2
  obtain ⟨label, span, children⟩ := d
  cases label <;> simp_all [isHoisted, isLexical, Tree.label, Label.isDeclaration]

theorem exists_of_mem_cellDeclarations {body : List Tree} {d : Tree} (hd : d ∈ cellDeclarations body) :
    ∃ t ∈ body, d ∈ outerNodes t ∧ (isHoisted d ∨ d = t) := by
  rcases List.mem_append.mp hd with hm | hm
  · obtain ⟨hm, hh⟩ := List.mem_filter.mp hm
    obtain ⟨t, ht, hm⟩ := mem_outerNodesOf.mp hm
    exact ⟨t, ht, hm, .inl hh⟩
  · have hl := isDeclaration_of_mem_cellDeclarations hd
    refine ⟨d, (List.mem_filter.mp hm).1, ?_, .inr rfl⟩
    obtain ⟨label, span, children⟩ := d
    have hs : label.opensScope = false := by cases label <;> first | rfl | cases hl
    simp [outerNodes, hs]

/-- Of an expression statement only the statement itself is no part of an expression. -/
theorem eq_of_exprStmt {t d : Tree} (hf : t.fits .statement) (hl : t.label = .exprStmt)
    (hm : d ∈ outerNodes t) (hd : d.label.isInner = false) : d = t := by
  obtain ⟨label, span, children⟩ := t
  simp only [Tree.label] at hl
  subst hl
  simp only [Tree.fits, Bool.and_eq_true] at hf
  rcases List.mem_cons.mp hm with rfl | hm
  · rfl
  · rw [isInner_of_mem_outerNodesOf children (by simp [Label.parts, Part.isInner]) hf.2 d hm] at hd
    cases hd

theorem not_isDeclaration_of_exprStmt {t d : Tree} (hf : t.fits .statement) (hl : t.label = .exprStmt)
    (hm : d ∈ outerNodes t) : d.label.isDeclaration = false := by
  by_contra hd
  have hd : d.label.isDeclaration = true := by simpa using hd
  rw [eq_of_exprStmt hf hl hm (Label.isInner_eq_false hd), hl] at hd
  cases hd

section
variable (G : String) {body : List Tree} {within : Span} (hf : ∀ t ∈ body, t.fits .statement)
  (hn : ∀ t ∈ body, t.nestedIn within) (hb : sideBySide body)
include hf hn hb

/-- On the span of a statement only its own edits act. -/
theorem actLike_publishBody {t : Tree} (ht : t ∈ body) :
    ActLike t.span (publishBody G body).edits (publish G .body t).edits :=
  actLike_all (fun u hu => insertsIn_span G .body (hf u hu) (hn u hu)) hb ht
    (label_ne_absent_of_fits (hf t ht) rfl)

/-- A statement that is no expression at the end of the cell is not returned. -/
theorem actLike_returnEdits {t : Tree} (ht : t ∈ body)
    (hlast : body.getLast? ≠ some t ∨ t.label ≠ .exprStmt) : ActLike t.span (returnEdits body) [] := by
  refine actLike_nil_of_apartFrom (label_ne_absent_of_fits (hf t ht) rfl) fun e he => ?_
  obtain ⟨last, hm, hlabel, hin⟩ := insertsIn_returnEdits hf hn he
  have hne : t ≠ last := by
    rintro rfl
    rcases hlast with h | h
    · exact h hm
    · exact h hlabel
  exact ⟨last, apartFrom_of_mem hb ht (List.mem_of_getLast? hm) hne, by simp [hlabel], hin⟩

/-- On the span of a statement anywhere outside of functions and classes, of all edits of the cell
those of the statement act. -/
theorem actLike_outer {t d : Tree} (hs : ∀ t ∈ body, t.spreads) (ht : t ∈ body) (hm : d ∈ outerNodes t)
    (hd : d.label.isInner = false) (hl : d.label ≠ .exprStmt) :
    ∃ p, ActLike d.span ((publishBody G body).edits ++ returnEdits body) (publish G p d).edits ∧
      ((d = t ∧ p = .body) ∨ p = .inner ∨ (p = .eachHead ∧ d ∈ loopHeads body)) := by
  obtain ⟨-, h1, h2⟩ :=
    span_of_mem_outerNodes (label_ne_absent_of_not_isInner hd) (hf t ht) (hn t ht) hm
  have hreturn := actLike_returnEdits hf hn hb ht <| .inr fun hlabel =>
    hl (eq_of_exprStmt (hf t ht) hlabel hm hd ▸ hlabel)
  have hown := ((actLike_publishBody G hf hn hb ht).append_left hreturn).mono h1 h2
  obtain ⟨p, hlike, hp⟩ := actLike_publish G hd t .body (hf t ht) (hn t ht) (hs t ht) hm
  refine ⟨p, hown.trans hlike, hp.imp_right (Or.imp_right fun ⟨hp, hm'⟩ => ⟨hp, ?_⟩)⟩
  rw [loopHeads, List.mem_flatMap]
  obtain ⟨u, hu, hd⟩ := List.mem_flatMap.mp hm'
  exact ⟨u, mem_outerNodesOf.mpr ⟨t, ht, hu⟩, hd⟩

/-- On the span of a declaration whose names belong to the cell, of all edits of the cell those of
the declaration act. -/
theorem actLike_cell {d : Tree} (hs : ∀ t ∈ body, t.spreads) (hd : d ∈ cellDeclarations body) :
    ∃ p, ActLike d.span ((publishBody G body).edits ++ returnEdits body) (publish G p d).edits ∧
      (isHoisted d ∨ p = .body) ∧ (p = .eachHead → d ∈ loopHeads body) := by
  have hdecl := isDeclaration_of_mem_cellDeclarations hd
  obtain ⟨t, ht, hm, hplace⟩ := exists_of_mem_cellDeclarations hd
  rcases hplace with hh | rfl
  · have hl : d.label ≠ .exprStmt := by
      intro hl
      rw [hl] at hdecl
      cases hdecl
    obtain ⟨p, hlike, hp⟩ := actLike_outer G hf hn hb hs ht hm (Label.isInner_eq_false hdecl) hl
    refine ⟨p, hlike, .inl hh, ?_⟩
    rintro rfl
    simpa using hp
  · have hreturn := actLike_returnEdits hf hn hb ht <| .inr fun hl => by
      rw [hl] at hdecl
      cases hdecl
    exact ⟨.body, (actLike_publishBody G hf hn hb ht).append_left hreturn, .inr rfl, by simp⟩

/-- What a loop over keys or values begins with is edited as such. -/
theorem actLike_loopHead {d : Tree} (hs : ∀ t ∈ body, t.spreads) (hd : d ∈ loopHeads body)
    (hl : d.label ≠ .absent) :
    ActLike d.span ((publishBody G body).edits ++ returnEdits body) (publish G .eachHead d).edits := by
  obtain ⟨u, hu, hd⟩ := List.mem_flatMap.mp hd
  obtain ⟨t, ht, hm⟩ := mem_outerNodesOf.mp hu
  obtain ⟨label, span, children⟩ := u
  have hlabel : label = .forIn ∨ ∃ isAwait, label = .forOf isAwait := by
    cases label <;> simp_all [loopHead]
  have hfacts : label.isInner = false ∧ label ≠ .exprStmt ∧ label.isDeclaration = false ∧
      label.opensScope = false ∧ label.namesPart = false ∧ firstPlace label = .eachHead ∧
      loopHead (.node label span children) = children.take 1 := by
    rcases hlabel with rfl | ⟨isAwait, rfl⟩ <;> simp [Label.isInner, Label.isDeclaration,
      Label.opensScope, Label.kind?, TrackedKind.opensScope, Label.namesPart, firstPlace, loopHead]
  obtain ⟨hinner, hexpr, hdecl, hscope, hnames, hfirst, hhead⟩ := hfacts
  obtain ⟨p, hlike, -⟩ := actLike_outer G hf hn hb hs ht hm hinner hexpr
  rw [publish_of_not_isDeclaration G hdecl, hscope, hfirst] at hlike
  obtain ⟨⟨part, hfit⟩, hspreads⟩ := fits_of_mem_outerNodes t (hf t ht) (hs t ht) hm
  have hal : (Script.Tree.node label span children).label ≠ .absent :=
    label_ne_absent_of_not_isInner hinner
  have hnested := (nestedIn_of_mem_outerNodes hal t (hf t ht) (hn t ht) hm).2
  have hbeside := sideBySide_of_spreads hnames hspreads
  simp only [Tree.fits, Bool.and_eq_true] at hfit
  rw [hhead] at hd
  cases children with
  | nil => cases hd
  | cons first rest =>
    obtain rfl : d = first := by simpa using hd
    obtain ⟨hapart, -⟩ := sideBySide_cons.mp hbeside
    have hchild := fun v hv => nestedIn_of_mem_children (t := v) hal (nestedIn_self hal hnested) hv
    have hrest : ActLike d.span (publishFrom G .inner rest).edits [] :=
      actLike_nil_of_apartFrom hl fun e he => by
        obtain ⟨v, hv, place, he⟩ := mem_edits_publishFrom G he
        obtain ⟨part, hfv⟩ := exists_fits_of_mem hfit.2 (List.mem_cons_of_mem _ hv)
        exact ⟨v, .inl (hapart v hv), insertsIn_span G place hfv (hchild v (by simp [hv])) e he⟩
    obtain ⟨h1, -, h3⟩ := nestedIn_span hl (hchild d (by simp))
    have hown : ActLike d.span (publishFrom G .eachHead (d :: rest)).edits (publish G .eachHead d).edits :=
      ActLike.append_left (fun _ _ _ _ => rfl) hrest
    exact (hlike.mono h1 h3).trans hown

end

end NotebookCell
