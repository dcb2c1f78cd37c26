import NotebookCell.Proofs.KeptText

/-!
# Imports awaited in turn

The edits of all import declarations can be read off one draft and applied together. Work in turn
does the same in place: each declaration is rendered from the draft as the declarations before it
left it, exchanged there and listed at once. The two agree, since a declaration is rendered from its
own text and the slot behind it, which no earlier declaration reaches.
-/

namespace NotebookCell

open Script TaggedText

/-! ## Renderings

What an import declaration becomes, where `copy` gives the text of a span of the cell. -/

/-- `await I("m")` or `await I("m", { with: {…} })` -/
def Script.ImportDecl.awaitedCall (importParam : String) (copy : Span → TaggedText)
    (d : ImportDecl) : TaggedText :=
  let attributes := match d.attributes with
    | some e => inserted ", \x7b with: " ++ copy e.span ++ inserted " \x7d"
    | none => []
  inserted ("await " ++ importParam ++ "(") ++ (copy d.source ++ attributes) ++ inserted ")"

/-- `_:{a}`, `_:{a:b}`, `_:{default:a}` or `_:a` -/
def Script.ImportSpecifier.pattern (copy : Span → TaggedText) : ImportSpecifier → TaggedText
  | .named none id => inserted "_:\x7b" ++ copy id.span ++ inserted "\x7d"
  | .named (some imported) id =>
    inserted "_:\x7b" ++ (copy imported.span ++ inserted ":" ++ copy id.span) ++ inserted "\x7d"
  | .default id => inserted "_:\x7bdefault:" ++ copy id.span ++ inserted "\x7d"
  | .namespace id => inserted "_:" ++ copy id.span

/-- The call, or `var {…, …} = {_: …}` around it with one pattern for each specifier. -/
def Script.ImportDecl.awaited (importParam : String) (copy : Span → TaggedText) (d : ImportDecl) :
    TaggedText :=
  match d.specifiers with
  | [] => d.awaitedCall importParam copy
  | specifiers =>
    inserted "var \x7b" ++ (inserted ", ").intercalate (specifiers.map (·.pattern copy)) ++
      inserted "\x7d = \x7b_: " ++ d.awaitedCall importParam copy ++ inserted "\x7d"

/-- The name that the other module exports: as the cell spells it between quotes, else decoded. -/
def Script.ImportSpecifier.exported (copy : Span → TaggedText) : ImportSpecifier → String
  | .named none id => id.name
  | .named (some (.ident id)) _ => id.name
  | .named (some (.text span)) _ => (copy span).text
  | .default _ => "default"
  | .namespace _ => "*"

def Script.ImportDecl.bindings (copy : Span → TaggedText) (d : ImportDecl) : List ImportedBinding :=
  d.specifiers.map fun s => ⟨s.binding.name, s.exported copy, (copy d.source).text⟩

/-- The specifier string, where the module is imported for its effects only. -/
def Script.ImportDecl.effects (copy : Span → TaggedText) (d : ImportDecl) : List String :=
  if d.specifiers.isEmpty then [(copy d.source).text] else []

theorem ImportSite.call_eq (site : ImportSite) (d : ImportDecl) :
    site.call d = d.awaitedCall site.importParam site.excerpt := by
  cases h : d.attributes <;> simp [ImportSite.call, ImportDecl.awaitedCall, h]

theorem ImportSite.entry_eq (site : ImportSite) (s : ImportSpecifier) :
    site.entry s = s.pattern site.excerpt := by
  cases s with
  | named imported id => cases imported <;> simp [ImportSite.entry, ImportSpecifier.pattern]
  | default id => rfl
  | «namespace» id => rfl

theorem ImportSite.importedName_eq (site : ImportSite) (s : ImportSpecifier) :
    site.importedName s = s.exported site.excerpt := by
  cases s with
  | named imported id =>
    cases imported with
    | none => rfl
    | some name => cases name <;> rfl
  | default id => rfl
  | «namespace» id => rfl

theorem ImportSite.rendering_eq (site : ImportSite) (d : ImportDecl) :
    site.rendering d = d.awaited site.importParam site.excerpt := by
  unfold ImportSite.rendering ImportDecl.awaited
  rw [ImportSite.call_eq, funext site.entry_eq]
  cases d.specifiers <;> rfl

theorem ImportSite.map_row_eq (site : ImportSite) (d : ImportDecl) :
    d.specifiers.map (site.row d) = d.bindings site.excerpt := by
  unfold ImportDecl.bindings
  apply List.map_congr_left
  intro s _
  rw [ImportSite.row, ImportSite.importedName_eq]

section
variable {copy copy' : Span → TaggedText} {d : ImportDecl}

theorem Script.ImportSpecifier.pattern_congr {s : ImportSpecifier}
    (h : ∀ span ∈ s.copied, copy span = copy' span) :
    s.pattern copy = s.pattern copy' ∧ s.exported copy = s.exported copy' := by
  cases s with
  | named imported id =>
    cases imported with
    | none => simp [ImportSpecifier.pattern, ImportSpecifier.exported, h id.span (by simp [copied])]
    | some name =>
      have hname := h name.span (by simp [copied])
      have hid := h id.span (by simp [copied])
      cases name with
      | ident _ => simp [ImportSpecifier.pattern, ImportSpecifier.exported, hname, hid]
      | text span =>
        simp only [ExportName.span] at hname
        simp [ImportSpecifier.pattern, ImportSpecifier.exported, ExportName.span, hname, hid]
  | default id => simp [ImportSpecifier.pattern, ImportSpecifier.exported, h id.span (by simp [copied])]
  | «namespace» id =>
    simp [ImportSpecifier.pattern, ImportSpecifier.exported, h id.span (by simp [copied])]

variable (h : ∀ span ∈ d.copied, copy span = copy' span)
include h

theorem Script.ImportDecl.copy_source_congr : copy d.source = copy' d.source :=
  h d.source (by simp [copied])

theorem Script.ImportDecl.pattern_congr {s : ImportSpecifier} (hs : s ∈ d.specifiers) :
    s.pattern copy = s.pattern copy' ∧ s.exported copy = s.exported copy' := by
  apply ImportSpecifier.pattern_congr
  intro span hspan
  exact h span (List.mem_append_left _ (List.mem_flatMap.mpr ⟨s, hs, hspan⟩))

theorem Script.ImportDecl.awaitedCall_congr (importParam : String) :
    d.awaitedCall importParam copy = d.awaitedCall importParam copy' := by
  unfold awaitedCall
  rw [copy_source_congr h]
  cases ha : d.attributes with
  | none => rfl
  | some e => simp only [h e.span (by simp [copied, ha])]

theorem Script.ImportDecl.awaited_congr (importParam : String) :
    d.awaited importParam copy = d.awaited importParam copy' := by
  have hpatterns : d.specifiers.map (·.pattern copy) = d.specifiers.map (·.pattern copy') :=
    List.map_congr_left fun s hs => (pattern_congr h hs).1
  unfold awaited
  rw [awaitedCall_congr h]
  cases hs : d.specifiers with
  | nil => rfl
  | cons s ss =>
    rw [hs] at hpatterns
    simp only [hpatterns]

theorem Script.ImportDecl.bindings_congr : d.bindings copy = d.bindings copy' := by
  unfold bindings
  apply List.map_congr_left
  intro s hs
  rw [(pattern_congr h hs).2, copy_source_congr h]

theorem Script.ImportDecl.effects_congr : d.effects copy = d.effects copy' := by
  rw [effects, effects, copy_source_congr h]

end

/-! ## Work in turn -/

/-- A draft and a summary that are worked on. -/
structure ImportWork where
  draft : Draft
  summary : Summary

namespace ImportWork

variable (base : Nat) (importParam : String)

def site (w : ImportWork) : ImportSite := ⟨w.draft, base, importParam⟩

/-- Lists what a declaration imports. -/
def list (w : ImportWork) (d : ImportDecl) : Summary :=
  { w.summary with
    imports := w.summary.imports ++ d.specifiers.map ((w.site base importParam).row d)
    effects := w.summary.effects ++ d.effects (w.site base importParam).excerpt }

def exchange (w : ImportWork) (d : ImportDecl) : Except EditFault ImportWork :=
  (w.draft.apply ((w.site base importParam).edit d)).map (⟨·, w.list base importParam d⟩)

/-- The number of declarations that were exchanged, and the work as it is then. -/
def exchangeAll : List ImportDecl → (done : Nat) → ImportWork → Except Failure Nat × ImportWork
  | [], done, w => (.ok done, w)
  | d :: ds, done, w =>
    match w.exchange base importParam d with
    | .ok w' => exchangeAll ds (done + 1) w'
    | .error f => (.error (.edit f), w)

/-- All import declarations of a supported module are exchanged; else the work stays as it is. -/
def awaitImports (m : Module) (w : ImportWork) : Except Failure Nat × ImportWork :=
  match unsupported? m with
  | some u => (.error (.unsupported u), w)
  | none => exchangeAll base importParam m.imports 0 w

end ImportWork

/-! ## Drafts with the same slots -/

/-- From a position on the drafts hold the same. -/
def Draft.SameFrom (position : Nat) (d d' : Draft) : Prop :=
  d.size = d'.size ∧ ∀ i, position ≤ i → d.held i = d'.held i

theorem Draft.SameFrom.mono {a b : Nat} {d d' : Draft} (h : d.SameFrom a d') (hab : a ≤ b) :
    d.SameFrom b d' :=
  ⟨h.1, fun i hi => h.2 i (Nat.le_trans hab hi)⟩

theorem Draft.slice_congr {a : Nat} {d d' : Draft} (h : d.SameFrom a d') {range : Span}
    (hr : a ≤ range.start) : d.slice range = d'.slice range := by
  by_cases hfits : range.start ≤ range.stop ∧ range.stop ≤ d.size
  · rw [slice_eq_stretch hfits.1 hfits.2, slice_eq_stretch hfits.1 (h.1 ▸ hfits.2)]
    exact stretch_congr fun i hi _ => h.2 i (Nat.le_trans hr hi)
  · have hfits' : ¬(range.start ≤ range.stop ∧ range.stop ≤ d'.size) := by rwa [← h.1]
    rw [slice, slice, slice?, slice?, if_neg hfits, if_neg hfits']

theorem Draft.slot?_eq_some_iff {d : Draft} {i : Nat} {s : Slot} :
    d.slot? i = some s ↔ i < d.size ∧ d.held i = s := by
  by_cases hi : i < d.slots.size
  · simp [slot?, held, size, hi]
  · simp [slot?, size, hi]

theorem Draft.slot?_congr {a : Nat} {d d' : Draft} (h : d.SameFrom a d') {i : Nat} (hi : a ≤ i) :
    d.slot? i = d'.slot? i := by
  ext s
  rw [slot?_eq_some_iff, slot?_eq_some_iff, h.1, h.2 i hi]

section
variable {base : Nat} {importParam : String} {draft draft' : Draft} {d : ImportDecl}
  (h : draft.SameFrom (d.span.start + base) draft') (hspan : d.span.start ≤ d.span.stop)
  (hcopied : ∀ s ∈ d.copied, d.span.start ≤ s.start)

include h hcopied in
theorem ImportSite.excerpt_congr : ∀ s ∈ d.copied,
    (⟨draft, base, importParam⟩ : ImportSite).excerpt s =
      (⟨draft', base, importParam⟩ : ImportSite).excerpt s := by
  intro s hs
  exact Draft.slice_congr h (Nat.add_le_add_right (hcopied s hs) base)

include h hspan in
theorem ImportSite.endedOutside_congr : (⟨draft, base, importParam⟩ : ImportSite).endedOutside d =
    (⟨draft', base, importParam⟩ : ImportSite).endedOutside d := by
  have hslice : draft.slice (d.span.shift base) = draft'.slice (d.span.shift base) :=
    Draft.slice_congr h (Nat.le_refl _)
  have hslot := Draft.slot?_congr h (i := (d.span.shift base).stop) (Nat.add_le_add_right hspan base)
  simp only [ImportSite.endedOutside, hslice, hslot]

include h hspan hcopied in
theorem ImportSite.edit_congr : (⟨draft, base, importParam⟩ : ImportSite).edit d =
    (⟨draft', base, importParam⟩ : ImportSite).edit d := by
  have hcopy := @excerpt_congr base importParam draft draft' d h hcopied
  rw [ImportSite.edit, ImportSite.edit, ImportSite.rendering_eq, ImportSite.rendering_eq,
    endedOutside_congr h hspan]
  simp only [ImportDecl.awaited_congr hcopy]

end

/-! ## Agreement -/

section
variable {base : Nat} {importParam : String} {draft : Draft}

/-- Declarations that follow one another are exchanged in turn as they are at once. -/
theorem ImportWork.exchangeAll_eq {ds : List ImportDecl} {lo size done : Nat} {w : ImportWork}
    (hw : w.draft.SameFrom (lo + base) draft) (hds : ascending lo (ds.map (·.span)) size)
    (hcopied : ∀ d ∈ ds, ∀ s ∈ d.copied, d.span.start ≤ s.start) {draft' : Draft}
    (ha : w.draft.applyAll (ds.map (⟨draft, base, importParam⟩ : ImportSite).edit) = .ok draft') :
    ImportWork.exchangeAll base importParam ds done w = (.ok (done + ds.length), {
      draft := draft'
      summary := { w.summary with
        imports := w.summary.imports ++
          ds.flatMap (·.bindings (⟨draft, base, importParam⟩ : ImportSite).excerpt)
        effects := w.summary.effects ++
          ds.flatMap (·.effects (⟨draft, base, importParam⟩ : ImportSite).excerpt) } }) := by
  induction ds generalizing lo done w with
  | nil =>
    cases ha
    simp [ImportWork.exchangeAll]
  | cons d ds ih =>
    obtain ⟨h1, h2, h3⟩ : lo ≤ d.span.start ∧ d.span.start < d.span.stop ∧ _ := ascending_cons.mp hds
    obtain ⟨draft₁, hfirst, hrest⟩ := Draft.applyAll_cons_eq_ok ha
    have hsame : w.draft.SameFrom (d.span.start + base) draft := hw.mono (by omega)
    have hcopy := @ImportSite.excerpt_congr base importParam w.draft draft d hsame (hcopied d (by simp))
    have hlist : w.list base importParam d = { w.summary with
        imports := w.summary.imports ++
          d.bindings (⟨draft, base, importParam⟩ : ImportSite).excerpt
        effects := w.summary.effects ++
          d.effects (⟨draft, base, importParam⟩ : ImportSite).excerpt } := by
      rw [ImportWork.list, ImportSite.map_row_eq, ImportWork.site, ImportDecl.bindings_congr hcopy,
        ImportDecl.effects_congr hcopy]
    have hexchange : w.exchange base importParam d = .ok ⟨draft₁, w.list base importParam d⟩ := by
      rw [ImportWork.exchange, ImportWork.site,
        ImportSite.edit_congr hsame (Nat.le_of_lt h2) (hcopied d (by simp)), hfirst]
      rfl
    -- the slots behind the declaration are still those of the draft that was read
    have hsame₁ : draft₁.SameFrom (d.span.stop + base) draft := by
      obtain ⟨-, hsize, hheld⟩ := Draft.apply_eq_ok hfirst
      refine ⟨hsize.trans hw.1, fun i hi => ?_⟩
      rw [hheld, Edit.act_of_outside]
      · exact hw.2 i (by omega)
      · exact Nat.add_lt_add_right h2 base
      · exact .inr hi
    rw [ImportWork.exchangeAll, hexchange, hlist]
    have := @ih d.span.stop (done + 1) ⟨draft₁, w.list base importParam d⟩ hsame₁ h3
      (fun d' hd' => hcopied d' (by simp [hd'])) hrest
    rw [hlist] at this
    simp only [this]
    simp [Nat.add_assoc, Nat.add_comm 1]

end

end NotebookCell
