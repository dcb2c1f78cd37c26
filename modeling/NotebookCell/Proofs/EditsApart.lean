import NotebookCell.Proofs.Splicing
import NotebookCell.Proofs.Acceptance
import NotebookCell.Proofs.WholeText

/-!
# Edits that do not meet

The edits that one reading of a text gives do not get in each other's way. Import declarations are
exchanged as wholes, side by side. Of a published declaration only the keyword is exchanged, and
everything else that is inserted stands outside of it.
-/

namespace NotebookCell

open Script TaggedText

/-! ## Compatible edits -/

/-- The edit takes away what the slot held. -/
def Edit.replaces (i : Nat) (e : Edit) : Prop := ∃ range, e.replaced? = some range ∧ range.contains i

/-- Neither edit acts on a slot that the other replaces. -/
def Edit.Compatible (e f : Edit) : Prop :=
  ∀ i, (e.replaces i → ¬f.touches i) ∧ (f.replaces i → ¬e.touches i)

theorem Edit.touches_of_replaces {e : Edit} {i : Nat} (h : e.replaces i) : e.touches i := by
  obtain ⟨range, hr, hc⟩ := h
  rw [Span.contains_iff] at hc
  cases e with
  | replace range' text =>
    cases hr
    simp only [touches]
    omega
  | _ => cases hr

theorem Edit.bounds_of_touches {e : Edit} (h : e.range.start < e.range.stop) {i : Nat}
    (hi : e.touches i) : e.range.start ≤ i ∧ i < e.range.stop := by
  cases e <;> simp only [Edit.range, touches] at h hi ⊢ <;> omega

section
variable {e f : Edit}

theorem compatible_of_apart (he : e.range.start < e.range.stop) (hf : f.range.start < f.range.stop)
    (h : e.range.Apart f.range) : e.Compatible f := by
  have hdisjoint : ∀ i, e.touches i → ¬f.touches i := by
    intro i hi hi'
    have := Edit.bounds_of_touches he hi
    have := Edit.bounds_of_touches hf hi'
    unfold Span.Apart at h
    omega
  intro i
  exact ⟨fun hr => hdisjoint i (Edit.touches_of_replaces hr),
    fun hr hi => hdisjoint i hi (Edit.touches_of_replaces hr)⟩

theorem compatible_of_insertsIn {s s' : Span} (he : e.InsertsIn s) (hf : f.InsertsIn s')
    (h : s.Apart s') : e.Compatible f := by
  apply compatible_of_apart he.start_lt_stop hf.start_lt_stop
  have h1 := he.start_le
  have h2 := he.stop_le
  have h3 := hf.start_le
  have h4 := hf.stop_le
  unfold Span.Apart at h ⊢
  omega

theorem compatible_of_replaced?_eq_none (he : e.replaced? = none) (hf : f.replaced? = none) :
    e.Compatible f := by
  intro i
  constructor
  · rintro ⟨range, hr, -⟩
    rw [he] at hr
    cases hr
  · rintro ⟨range, hr, -⟩
    rw [hf] at hr
    cases hr

theorem pairwise_compatible_of_replaced {es : List Edit} (h : es.filterMap Edit.replaced? = []) :
    es.Pairwise Edit.Compatible := by
  rw [List.filterMap_eq_nil_iff] at h
  apply List.pairwise_of_forall_mem_list
  intro e he f hf
  exact compatible_of_replaced?_eq_none (h e he) (h f hf)

end

/-- The ranges of the edits are not empty and lie in a draft of the size, and no edit acts on a slot
that another one replaces. -/
structure EditsFit (size : Nat) (es : List Edit) : Prop where
  inside : ∀ e ∈ es, e.range.start < e.range.stop ∧ e.range.stop ≤ size
  compatible : es.Pairwise Edit.Compatible

theorem EditsFit.exists_applyAll {d : Draft} {es : List Edit} (h : EditsFit d.size es) :
    ∃ d', d.applyAll es = .ok d' :=
  Draft.exists_applyAll_eq_ok h.inside

/-! ## Import declarations -/

theorem bounds_of_mem_specifier {spec : ImportSpecifier} {within s : Span}
    (h : spec.tree.nestedIn within) (hs : s ∈ spec.copied) :
    within.start ≤ s.start ∧ s.start < s.stop ∧ s.stop ≤ within.stop := by
  have hname : ∀ id : Ident, (Tree.ofIdent id).nestedIn within →
      within.start ≤ id.span.start ∧ id.span.start < id.span.stop ∧ id.span.stop ≤ within.stop :=
    fun id hid => nestedIn_span (by simp [Tree.ofIdent, Tree.label]) hid
  cases spec with
  | named imported id =>
    cases imported with
    | none =>
      rw [List.mem_singleton.mp hs]
      exact hname id (nestedIn_of_mem_children (by simp) h (by simp))
    | some imported =>
      have hid := nestedIn_of_mem_children (by simp) h (List.mem_cons_self ..)
      have himported : imported.tree.nestedIn within :=
        nestedIn_of_mem_children (by simp) h (by simp)
      rcases List.mem_pair.mp hs with rfl | rfl
      · cases imported with
        | ident name => exact hname name himported
        | text span => exact nestedIn_span (by simp [ExportName.tree, Tree.label]) himported
      · exact hname id hid
  | default id =>
    rw [List.mem_singleton.mp hs]
    exact hname id (nestedIn_of_mem_children (by simp) h (by simp))
  | «namespace» id =>
    rw [List.mem_singleton.mp hs]
    exact hname id (nestedIn_of_mem_children (by simp) h (by simp))

/-- What a declaration copies stands in it. -/
theorem bounds_of_mem_copied {d : ImportDecl} {within s : Span} (h : d.tree.nestedIn within)
    (hs : s ∈ d.copied) : d.span.start ≤ s.start ∧ s.start < s.stop ∧ s.stop ≤ d.span.stop := by
  have hchild : ∀ t ∈ d.specifiers.map ImportSpecifier.tree ++
      [.node .importSource d.source [], attributesTree d.attributes], t.nestedIn d.span :=
    fun t ht => nestedIn_of_mem_children (by simp)
      (nestedIn_self (by simp [ImportDecl.tree, Tree.label]) h) ht
  rcases List.mem_append.mp hs with hs | hs
  · obtain ⟨spec, hspec, hs⟩ := List.mem_flatMap.mp hs
    exact bounds_of_mem_specifier (hchild spec.tree (by simp [List.mem_map_of_mem hspec])) hs
  · rcases List.mem_cons.mp hs with rfl | hs
    · exact nestedIn_span (t := .node .importSource d.source []) (by simp [Tree.label])
        (hchild _ (by simp))
    · cases ha : d.attributes with
      | none => simp [ha] at hs
      | some e =>
        have he := hchild (attributesTree d.attributes) (by simp)
        rw [ha] at he hs
        rw [show s = e.span by simpa using hs]
        exact nestedIn_span (t := attributesTree (some e)) (by simp [attributesTree, Tree.label]) he

theorem pairwise_of_sideBySide {ts : List Tree} (h : sideBySide ts) :
    ts.Pairwise fun t u => t.apartFrom u := by
  induction ts with
  | nil => exact .nil
  | cons t ts ih =>
    obtain ⟨ht, hts⟩ := sideBySide_cons.mp h
    exact .cons ht (ih hts)

/-- The items of a module lie in a text of the size, their parts in them, and the items side by
side. -/
structure Script.Module.WellSpanned (m : Module) (size : Nat) : Prop where
  nested : ∀ t ∈ m.items.map ModuleItem.tree, t.nestedIn ⟨0, size⟩
  apart : sideBySide (m.items.map ModuleItem.tree)

section
variable {m : Module} {size : Nat} (h : m.WellSpanned size)
include h

theorem nestedIn_of_mem_imports {d : ImportDecl} (hd : d ∈ m.imports) : d.tree.nestedIn ⟨0, size⟩ := by
  obtain ⟨item, hitem, heq⟩ := List.mem_filterMap.mp hd
  apply h.nested
  rw [List.mem_map]
  refine ⟨item, hitem, ?_⟩
  cases item with
  | importDecl d' =>
    cases heq
    rfl
  | _ => cases heq

theorem bounds_of_mem_imports {d : ImportDecl} (hd : d ∈ m.imports) :
    d.span.start < d.span.stop ∧ d.span.stop ≤ size :=
  (nestedIn_span (by simp [ImportDecl.tree, Tree.label]) (nestedIn_of_mem_imports h hd)).2

theorem pairwise_apart_imports : m.imports.Pairwise fun d d' => d.span.Apart d'.span := by
  have hitems := pairwise_of_sideBySide h.apart
  rw [List.pairwise_map] at hitems
  unfold Module.imports
  rw [List.pairwise_filterMap]
  apply hitems.imp
  intro a b hab d hd d' hd'
  cases a with
  | importDecl =>
    cases hd
    cases b with
    | importDecl =>
      cases hd'
      exact (apartFrom_iff (by simp [ModuleItem.tree, ImportDecl.tree, Tree.label])
        (by simp [ModuleItem.tree, ImportDecl.tree, Tree.label])).mp hab
    | _ => cases hd'
  | _ => cases hd

theorem bounds_edit_imports {site : ImportSite} (hsize : site.base + size ≤ site.draft.size)
    {d : ImportDecl} (hd : d ∈ m.imports) : (site.edit d).range.start < (site.edit d).range.stop ∧
      (site.edit d).range.stop ≤ site.draft.size := by
  have hb := bounds_of_mem_imports h hd
  simp only [ImportSite.edit, Edit.range, Span.shift]
  omega

theorem editsFit_imports {site : ImportSite} (hsize : site.base + size ≤ site.draft.size) :
    EditsFit site.draft.size (m.imports.map site.edit) where
  inside := by
    intro e he
    obtain ⟨d, hd, rfl⟩ := List.mem_map.mp he
    exact bounds_edit_imports h hsize hd
  compatible := by
    rw [List.pairwise_map]
    apply (pairwise_apart_imports h).imp_of_mem
    intro d d' hd hd' ha
    apply compatible_of_apart (bounds_edit_imports h hsize hd).1 (bounds_edit_imports h hsize hd').1
    simp only [ImportSite.edit, Edit.range, Span.shift, Span.Apart] at ha ⊢
    omega

theorem isSome_slice?_imports {site : ImportSite} (hsize : site.base + size ≤ site.draft.size)
    {d : ImportDecl} (hd : d ∈ m.imports) :
    ∀ s ∈ d.span :: d.copied, (site.draft.slice? (s.shift site.base)).isSome := by
  have hdecl := bounds_of_mem_imports h hd
  have hbounds : ∀ s ∈ d.span :: d.copied, s.start < s.stop ∧ s.stop ≤ size := by
    intro s hs
    rcases List.mem_cons.mp hs with rfl | hs
    · exact hdecl
    · have := bounds_of_mem_copied (nestedIn_of_mem_imports h hd) hs
      omega
  intro s hs
  have hb := hbounds s hs
  unfold Draft.slice?
  rw [if_pos]
  · rfl
  · simp only [Span.shift]
    omega

end

/-! ## Declarations -/

section
variable (G : String) {within : Span}

theorem insertsIn_behind_keyword {kind : VarKind} (form : DeclarationForm) {span : Span} {ds : List Tree}
    (hf : fitsAll (List.replicate ds.length .declarator) ds)
    (hn : nestedAllIn ⟨span.start + kind.word.utf8ByteSize, span.stop⟩ ds) :
    ∀ e ∈ (Published.all (publishDeclarator G kind form) ds).edits ++
        (if form = .statement then closeDeclaration ds else []),
      e.InsertsIn ⟨span.start + kind.word.utf8ByteSize, span.stop⟩ := by
  have hchild := fun d hd => nestedIn_of_mem (t := d) hn hd
  refine List.forall_mem_append.mpr ⟨?_, ?_⟩
  · exact Published.InsertsIn.all fun d hd => insertsIn_declarator G kind form (hchild d hd)
  · split
    · exact insertsIn_closeDeclaration fun d hd =>
        ⟨hchild d hd, label_ne_absent_of_fits (fits_of_mem hf hd) rfl⟩
    · simp

/-- The keyword is all that is replaced, and the other edits of a declaration are behind it. -/
theorem pairwise_compatible_varDecl {kind : VarKind} {form : DeclarationForm} {span : Span}
    {ds : List Tree} (hf : fitsAll (List.replicate ds.length .declarator) ds)
    (hn : (Script.Tree.node (.varDecl kind) span ds).nestedIn within) :
    (publishDeclaration G kind form span ds).edits.Pairwise Edit.Compatible := by
  obtain ⟨-, -, -, hlead⟩ := nestedIn_node (by simp) hn
  have hbehind := insertsIn_behind_keyword G form hf hlead
  have hreplaced : ((Published.all (publishDeclarator G kind form) ds).edits ++
      (if form = .statement then closeDeclaration ds else [])).filterMap Edit.replaced? = [] := by
    have hdeclarators := (binds_declarators G kind form ds hf).replaced
    unfold Published.replaced at hdeclarators
    rw [List.filterMap_append, hdeclarators]
    split <;> simp
  have hkeyword : ∀ text, (Edit.replace ⟨span.start, span.start + kind.word.utf8ByteSize⟩
      (inserted text)).InsertsIn ⟨span.start, span.start + kind.word.utf8ByteSize⟩ := by
    intro text
    exact insertsIn_keyword kind (Nat.le_refl _) (Nat.le_refl _) text
  unfold publishDeclaration
  simp only [Published.edits_append, Published.ofEdits, List.cons_append]
  apply List.Pairwise.cons
  · intro e he
    exact compatible_of_insertsIn (hkeyword _) (hbehind e he) (.inl (Nat.le_refl _))
  · exact pairwise_compatible_of_replaced hreplaced

theorem pairwise_compatible_declaration {label : Label} {span : Span} {children : List Tree}
    (hd : label.isDeclaration) (hf : fitsAll (label.parts children.length) children)
    (hn : (Script.Tree.node label span children).nestedIn within) (place : Place) :
    (publish G place (.node label span children)).edits.Pairwise Edit.Compatible := by
  cases label with
  | funDecl =>
    obtain ⟨target, fn, rfl, hname, -⟩ := fitsAll_pair hf
    obtain ⟨name, nameSpan, rfl⟩ := eq_name_of_fits hname
    exact pairwise_compatible_of_replaced rfl
  | classDecl =>
    obtain ⟨target, cls, rfl, hname, -⟩ := fitsAll_pair hf
    obtain ⟨name, nameSpan, rfl⟩ := eq_name_of_fits hname
    rw [publish]
    split
    · exact pairwise_compatible_of_replaced rfl
    · exact .nil
  | varDecl kind =>
    rw [publish]
    split
    · exact pairwise_compatible_varDecl G hf hn
    · exact .nil
  | _ => cases hd

/-! ## Statements -/

theorem compatible_of_apartFrom {t u : Tree} {part part' : Part} {place place' : Place}
    (hft : t.fits part) (hfu : u.fits part') (hnt : t.nestedIn within) (hnu : u.nestedIn within)
    (ha : t.apartFrom u) : ∀ e ∈ (publish G place t).edits, ∀ f ∈ (publish G place' u).edits,
      e.Compatible f := by
  intro e he f hf
  obtain ⟨htl, hin⟩ := insertsIn_span G place hft hnt e he
  obtain ⟨hul, hin'⟩ := insertsIn_span G place' hfu hnu f hf
  exact compatible_of_insertsIn hin hin' ((apartFrom_iff htl hul).mp ha)

mutual

theorem pairwise_compatible_publish : ∀ (t : Tree) {part : Part} {within : Span} (place : Place),
    t.fits part → t.nestedIn within → t.partsApart →
      (publish G place t).edits.Pairwise Edit.Compatible
  | .node label span children, part, within, place, hf, hn, ha => by
    simp only [Tree.fits, Bool.and_eq_true] at hf
    cases hd : label.isDeclaration with
    | true => exact pairwise_compatible_declaration G hd hf.2 hn place
    | false =>
      by_cases hi : label.isInner
      · rw [edits_publish_eq_nil G hd (fun hs => Label.isInner_parts hi hs _) hf.2]
        exact .nil
      by_cases hnames : label.namesPart
      · rw [edits_publish_eq_nil G hd (fun _ => Label.isInner_parts_of_namesPart hnames _) hf.2]
        exact .nil
      -- what is left is a statement, whose children stand side by side
      have hcl : label.isClosed = false := by
        by_contra hcl
        exact hi (Label.isInner_of_isClosed (by simpa using hcl))
      have hal : label ≠ .absent := by
        rintro rfl
        exact hi rfl
      obtain ⟨hb, hparts⟩ := partsApart_node hcl (by simpa using hnames) ha
      rw [publish_of_not_isDeclaration G hd]
      split
      · exact .nil
      · exact pairwise_compatible_publishFrom children _ hf.2
          (fun u hu => nestedIn_of_mem_children hal hn hu) hb hparts

theorem pairwise_compatible_publishFrom : ∀ (ts : List Tree) {parts : List Part} {within : Span}
    (first : Place), fitsAll parts ts → (∀ t ∈ ts, t.nestedIn within) → sideBySide ts →
      partsApartAll ts → (publishFrom G first ts).edits.Pairwise Edit.Compatible
  | [], _, _, _, _, _, _, _ => .nil
  | t :: ts, parts, within, first, hf, hn, hb, ha => by
    obtain ⟨part, rest, rfl, hft, hfts⟩ := fitsAll_cons hf
    obtain ⟨hapart, hb⟩ := sideBySide_cons.mp hb
    simp only [partsApartAll, Bool.and_eq_true] at ha
    rw [publishFrom, Published.edits_append, List.pairwise_append]
    refine ⟨pairwise_compatible_publish t first hft (hn t (by simp)) ha.1,
      pairwise_compatible_publishFrom ts .inner hfts (fun u hu => hn u (by simp [hu])) hb ha.2, ?_⟩
    intro e he f hf
    obtain ⟨u, hu, place, hf⟩ := mem_edits_publishFrom G hf
    obtain ⟨part', hfu⟩ := exists_fits_of_mem hfts hu
    exact compatible_of_apartFrom G hft hfu (hn t (by simp)) (hn u (by simp [hu])) (hapart u hu) e he f hf

end

/-! ## Cells -/

theorem pairwise_compatible_publishBody : ∀ body : List Tree, (∀ t ∈ body, t.fits .statement) →
    (∀ t ∈ body, t.nestedIn within) → sideBySide body → partsApartAll body →
      (publishBody G body).edits.Pairwise Edit.Compatible
  | [], _, _, _, _ => .nil
  | t :: ts, hf, hn, hb, ha => by
    obtain ⟨hapart, hb⟩ := sideBySide_cons.mp hb
    simp only [partsApartAll, Bool.and_eq_true] at ha
    rw [publishBody, Published.all_cons, Published.edits_append, List.pairwise_append]
    refine ⟨pairwise_compatible_publish G t .body (hf t (by simp)) (hn t (by simp)) ha.1,
      pairwise_compatible_publishBody ts (fun u hu => hf u (by simp [hu]))
        (fun u hu => hn u (by simp [hu])) hb ha.2, ?_⟩
    intro e he f hf'
    obtain ⟨u, hu, hf'⟩ := mem_edits_all hf'
    exact compatible_of_apartFrom G (hf t (by simp)) (hf u (by simp [hu])) (hn t (by simp))
      (hn u (by simp [hu])) (hapart u hu) e he f hf'

section
variable {body : List Tree} (hf : ∀ t ∈ body, t.fits .statement) (hn : ∀ t ∈ body, t.nestedIn within)
  (hb : sideBySide body)
include hf hn hb

/-- An expression statement publishes nothing, and the other statements are beside it. -/
theorem compatible_returnEdits {e f : Edit} (he : e ∈ (publishBody G body).edits)
    (hr : f ∈ returnEdits body) : e.Compatible f := by
  obtain ⟨last, hlast, hl, hin⟩ := insertsIn_returnEdits hf hn hr
  have hm := List.mem_of_getLast? hlast
  obtain ⟨t, ht, he⟩ := mem_edits_all he
  obtain ⟨htl, hin'⟩ := insertsIn_span G .body (hf t ht) (hn t ht) e he
  have hne : t ≠ last := by
    rintro rfl
    obtain ⟨d, hmd, hdecl, -⟩ := exists_declaration_of_mem_edits G t .body (hf t ht) he
    rw [not_isDeclaration_of_exprStmt (hf t ht) hl hmd] at hdecl
    cases hdecl
  have ha := apartFrom_of_mem hb ht hm hne
  rw [apartFrom_iff htl (by simp [hl]), apartFrom_iff (by simp [hl]) htl] at ha
  apply compatible_of_insertsIn hin' hin
  unfold Span.Apart
  omega

theorem editsFit_body (ha : partsApartAll body) {size : Nat} (hsize : within.stop ≤ size) :
    EditsFit size ((publishBody G body).edits ++ returnEdits body) where
  inside := by
    intro e he
    have hin := insertsIn_body G hf hn e he
    exact ⟨hin.start_lt_stop, Nat.le_trans hin.stop_le hsize⟩
  compatible := by
    rw [List.pairwise_append]
    refine ⟨pairwise_compatible_publishBody G body hf hn hb ha, ?_, ?_⟩
    · exact pairwise_compatible_of_replaced (replaced_returnEdits body)
    · intro e he f hr
      exact compatible_returnEdits G hf hn hb he hr

end

/-- No edit of a module's imports, or of the statements of a cell, leaves the draft that was read or
acts on what another one replaces. So both can be made, and what imports copy is there to be copied. -/
theorem editsFit_readings {site : ImportSite} {m : Module} {size : Nat} (hm : m.WellSpanned size)
    (hsite : site.base + size ≤ site.draft.size) {body : List Tree} (hf : ∀ t ∈ body, t.fits .statement)
    (hn : ∀ t ∈ body, t.nestedIn within) (hb : sideBySide body) (ha : partsApartAll body) {d : Draft}
    (hd : within.stop ≤ d.size) :
    ((∀ r, site.awaited m = .ok r → EditsFit site.draft.size r.edits ∧
          ∃ draft, site.apply m = .ok (r, draft)) ∧
        ∀ decl ∈ m.imports, ∀ s ∈ decl.span :: decl.copied,
          (site.draft.slice? (s.shift site.base)).isSome) ∧
      EditsFit d.size ((publishBody G body).edits ++ returnEdits body) ∧
        ∃ draft, d.applyAll ((publishBody G body).edits ++ returnEdits body) = .ok draft := by
  have hbody := editsFit_body G hf hn hb ha hd
  refine ⟨⟨?_, ?_⟩, hbody, hbody.exists_applyAll⟩
  · intro r hr
    have himports := editsFit_imports hm hsite
    rw [← ImportSite.edits_of_awaited hr] at himports
    obtain ⟨draft, hdraft⟩ := himports.exists_applyAll
    exact ⟨himports, draft, ImportSite.apply_eq_ok.mpr ⟨hr, hdraft⟩⟩
  · intro decl hdecl
    exact isSome_slice?_imports hm hsite hdecl

end

/-- `import {a} from 'm'` and `import 'n'` on the next line. -/
def importsSample : Module where
  span := ⟨0, 30⟩
  items := [
    .importDecl ⟨⟨0, 19⟩, [.named none ⟨⟨8, 9⟩, "a"⟩], ⟨16, 19⟩, none⟩,
    .importDecl ⟨⟨20, 30⟩, [], ⟨27, 30⟩, none⟩]

def importsSite : ImportSite where
  draft := Draft.ofText (typed "import \x7ba\x7d from 'm'\nimport 'n'" none)
  base := 0
  importParam := "I"

/-- `let a, b = c` and `a` on the next line. -/
def trailingSample : List Tree :=
  [.node (.varDecl .block) ⟨0, 12⟩ [
    .node .declarator ⟨4, 5⟩ [.node (.name "a") ⟨4, 5⟩ [], .absent],
    .node .declarator ⟨7, 12⟩ [.node (.name "b") ⟨7, 8⟩ [], .node (.reference "c") ⟨11, 12⟩ []]],
   .node .exprStmt ⟨13, 14⟩ [.node (.reference "a") ⟨13, 14⟩ []]]

theorem editsFit_sampleReadings :
    (∃ r draft, importsSite.apply importsSample = .ok (r, draft) ∧ EditsFit 30 r.edits ∧ r.count = 2) ∧
      EditsFit 14 ((publishBody "G" trailingSample).edits ++ returnEdits trailingSample) ∧
        ∃ draft, (Draft.ofText (typed "let a, b = c\na" none)).applyAll
          ((publishBody "G" trailingSample).edits ++ returnEdits trailingSample) = .ok draft := by
  have hm : importsSample.WellSpanned 30 := ⟨by decide, by decide⟩
  have hsite : importsSite.draft.size = 30 := by decide +kernel
  have hbase : importsSite.base + 30 ≤ importsSite.draft.size := by
    rw [hsite]
    exact Nat.le_refl _
  have hn : ∀ t ∈ trailingSample, t.nestedIn ⟨0, 14⟩ := by decide
  have hd : (Draft.ofText (typed "let a, b = c\na" none)).size = 14 := by decide +kernel
  obtain ⟨⟨himports, -⟩, hbody, hdraft⟩ := editsFit_readings "G" hm hbase (by decide) hn
    (by decide) (by decide) (Nat.le_of_eq hd.symm)
  obtain ⟨hfit, draft, happly⟩ := himports _ rfl
  exact ⟨⟨_, draft, happly, hsite ▸ hfit, rfl⟩, hd ▸ hbody, hdraft⟩

end NotebookCell
