import NotebookCell.Proofs.CellText
import NotebookCell.Proofs.StatementText

/-!
# Cells that stay as they are

Every edit of a cell leaves a mark: it takes away a keyword that was typed, or it brings characters
that were not. So the text of a cell is unchanged only where there is nothing to edit, and the tree
of the cell tells where that is.
-/

namespace NotebookCell

open Script TaggedText

/-! ## Characters that stay -/

/-- The slot that an edit brings its text to. -/
def Edit.slot : Edit → Nat
  | .replace range _ => range.start
  | .prepend range _ => range.start
  | .append range _ => range.stop - 1

section
variable {e : Edit} {es : List Edit} {within : Span} {i : Nat} {s : Slot} {ch : TaggedChar}

theorem Edit.mem_act (h : e.range.start < e.range.stop)
    (hr : ∀ range, e.replaced? = some range → range.contains i = false) (hm : ch ∈ s) :
    ch ∈ e.act i s := by
  cases e with
  | replace range text =>
    have hout : ¬(range.start ≤ i ∧ i < range.stop) := by
      rw [← Span.contains_iff, hr range rfl]
      decide
    simp only [Edit.range] at h
    rw [act, if_neg (by omega), if_neg (by omega)]
    exact hm
  | prepend range text =>
    rw [act]
    split
    · exact List.mem_append_right text hm
    · exact hm
  | append range text =>
    rw [act]
    split
    · exact List.mem_append_left text hm
    · exact hm

theorem Edit.mem_act_slot (h : e.range.start < e.range.stop) (hm : ch ∈ e.text) (s : Slot) :
    ch ∈ e.act e.slot s := by
  cases e with
  | replace range text =>
    rw [slot, act, if_pos rfl]
    exact hm
  | prepend range text =>
    rw [slot, act, if_pos rfl]
    exact List.mem_append_left s hm
  | append range text =>
    simp only [Edit.range] at h
    rw [slot, act, if_pos (by omega)]
    exact List.mem_append_right s hm

theorem mem_actAll (h : ∀ e ∈ es, e.InsertsIn within)
    (hr : ∀ range ∈ es.filterMap Edit.replaced?, range.contains i = false) (hm : ch ∈ s) :
    ch ∈ actAll es i s := by
  induction es generalizing s with
  | nil => exact hm
  | cons e es ih =>
    rw [actAll_cons]
    apply ih
    · intro f hf
      exact h f (List.mem_cons_of_mem e hf)
    · intro range hrange
      obtain ⟨f, hf, hrange⟩ := List.mem_filterMap.mp hrange
      exact hr range (List.mem_filterMap.mpr ⟨f, List.mem_cons_of_mem e hf, hrange⟩)
    · apply Edit.mem_act (h e List.mem_cons_self).start_lt_stop _ hm
      intro range hrange
      exact hr range (List.mem_filterMap.mpr ⟨e, List.mem_cons_self, hrange⟩)

/-- Where nothing is replaced, all that is inserted stays. -/
theorem mem_actAll_slot (h : ∀ e ∈ es, e.InsertsIn within) (hr : es.filterMap Edit.replaced? = [])
    (he : e ∈ es) (hm : ch ∈ e.text) (s : Slot) : ch ∈ actAll es e.slot s := by
  obtain ⟨front, back, rfl⟩ := List.append_of_mem he
  rw [List.filterMap_append, List.append_eq_nil_iff] at hr
  rw [actAll_append, actAll_cons]
  have hinserts : ∀ f ∈ back, f.InsertsIn within := by
    intro f hf
    apply h f
    simp [hf]
  have hback : back.filterMap Edit.replaced? = [] := by
    rw [List.filterMap_eq_nil_iff]
    intro f hf
    exact List.filterMap_eq_nil_iff.mp hr.2 f (List.mem_cons_of_mem e hf)
  apply mem_actAll hinserts
  · rw [hback]
    exact List.forall_mem_nil _
  · exact Edit.mem_act_slot (h e he).start_lt_stop hm _

end

/-! ## Marks of declarations -/

/-- Where a declaration is changed, a keyword goes or something is inserted. -/
def Published.Marks (p : Published) : Prop :=
  0 < p.count → p.replaced ≠ [] ∨ ∃ e ∈ p.edits, e.text ≠ []

theorem Published.Marks.none : Published.none.Marks := by
  intro h
  cases h

theorem Published.Marks.append {p q : Published} (hp : p.Marks) (hq : q.Marks) : (p ++ q).Marks := by
  intro h
  rw [count_append] at h
  rw [replaced_append, Ne, List.append_eq_nil_iff, not_and_or, edits_append]
  by_cases hcount : 0 < p.count
  · rcases hp hcount with hr | ⟨e, he, ht⟩
    · exact .inl (.inl hr)
    · exact .inr ⟨e, List.mem_append_left q.edits he, ht⟩
  · rcases hq (by omega) with hr | ⟨e, he, ht⟩
    · exact .inl (.inr hr)
    · exact .inr ⟨e, List.mem_append_right p.edits he, ht⟩

theorem text_enclose_ne_nil (range : Span) {before : String} (h : before.toList ≠ []) (after : String) :
    ∃ e ∈ enclose range before after, e.text ≠ [] := by
  refine ⟨_, List.mem_cons_self, ?_⟩
  simpa [Edit.text, inserted] using h

section
variable (G : String)

theorem marks_declaration {label : Label} {span : Span} {children : List Tree}
    (hd : label.isDeclaration) (hf : fitsAll (label.parts children.length) children) (place : Place) :
    (publish G place (.node label span children)).Marks := by
  cases label with
  | funDecl =>
    obtain ⟨target, fn, rfl, hname, -⟩ := fitsAll_pair hf
    obtain ⟨name, nameSpan, rfl⟩ := eq_name_of_fits hname
    intro _
    exact .inr (text_enclose_ne_nil fn.span (by simp) _)
  | classDecl =>
    obtain ⟨target, cls, rfl, hname, -⟩ := fitsAll_pair hf
    obtain ⟨name, nameSpan, rfl⟩ := eq_name_of_fits hname
    rw [publish]
    split
    · intro _
      exact .inr (text_enclose_ne_nil cls.span (by simp) _)
    · exact .none
  | varDecl kind =>
    rw [publish]
    split
    · intro _
      left
      simp [publishDeclaration, Published.replaced_ofEdits, Edit.replaced?]
    · exact .none
  | _ => cases hd

mutual

theorem marks_publish : ∀ (t : Tree) {part : Part} (place : Place), t.fits part →
    (publish G place t).Marks
  | .node label span children, part, place, hf => by
    simp only [Tree.fits, Bool.and_eq_true] at hf
    cases hd : label.isDeclaration with
    | true => exact marks_declaration G hd hf.2 place
    | false =>
      rw [publish_of_not_isDeclaration G hd]
      split
      · exact .none
      · exact marks_publishFrom children _ hf.2

theorem marks_publishFrom : ∀ (ts : List Tree) {parts : List Part} (first : Place), fitsAll parts ts →
    (publishFrom G first ts).Marks
  | [], _, _, _ => .none
  | t :: ts, parts, first, hf => by
    obtain ⟨part, rest, rfl, hft, hfts⟩ := fitsAll_cons hf
    exact (marks_publish t first hft).append (marks_publishFrom ts .inner hfts)

end

theorem marks_publishBody {body : List Tree} (hf : ∀ t ∈ body, t.fits .statement) :
    (publishBody G body).Marks := by
  induction body with
  | nil => exact .none
  | cons t ts ih =>
    exact (marks_publish G t .body (hf t (by simp))).append (ih fun u hu => hf u (by simp [hu]))

end

/-! ## Nothing to do -/

/-- The module imports nothing, and the statements of the cell declare no name of the cell and end
in no expression. -/
structure NothingToDo (m : Module) (body : List Tree) : Prop where
  imports : m.imports = []
  hoisted : ∀ t ∈ outerNodesOf body, isHoisted t = false
  lexical : ∀ t ∈ body, isLexical t = false
  unreturned : ∀ t, body.getLast? = some t → t.label ≠ .exprStmt

theorem cellDeclarations_eq_nil {body : List Tree} : cellDeclarations body = [] ↔
    (∀ t ∈ outerNodesOf body, isHoisted t = false) ∧ ∀ t ∈ body, isLexical t = false := by
  simp [cellDeclarations, List.filter_eq_nil_iff]

theorem nothingToDo_iff {m : Module} {body : List Tree} : NothingToDo m body ↔
    m.imports.isEmpty ∧ (cellDeclarations body).isEmpty ∧ body.getLast?.all (·.label != .exprStmt) := by
  rw [List.isEmpty_iff, List.isEmpty_iff, cellDeclarations_eq_nil]
  constructor
  · intro h
    refine ⟨h.imports, ⟨h.hoisted, h.lexical⟩, ?_⟩
    rw [Option.all_eq_true]
    intro t ht
    rw [bne_iff_ne]
    exact h.unreturned t ht
  · rintro ⟨himports, ⟨hhoisted, hlexical⟩, hlast⟩
    rw [Option.all_eq_true] at hlast
    exact ⟨himports, hhoisted, hlexical, fun t ht => bne_iff_ne.mp (hlast t ht)⟩

instance {m : Module} {body : List Tree} : Decidable (NothingToDo m body) :=
  decidable_of_iff _ nothingToDo_iff.symm

theorem publishBody_eq_none (G : String) {body : List Tree} (hf : ∀ t ∈ body, t.fits .statement)
    (h : cellDeclarations body = []) : publishBody G body = .none := by
  induction body with
  | nil => rfl
  | cons t ts ih =>
    obtain ⟨hhoisted, hlexical⟩ := cellDeclarations_eq_nil.mp h
    rw [outerNodesOf, List.forall_mem_append] at hhoisted
    rw [List.forall_mem_cons] at hlexical
    have ht : cellDeclarations [t] = [] := by
      rw [cellDeclarations_eq_nil, outerNodesOf, outerNodesOf, List.append_nil]
      exact ⟨hhoisted.1, List.forall_mem_singleton.mpr hlexical.1⟩
    have hts : cellDeclarations ts = [] := cellDeclarations_eq_nil.mpr ⟨hhoisted.2, hlexical.2⟩
    rw [publishBody, Published.all_cons, publish_body_eq_none G (hf t (by simp)) ht,
      Published.none_append]
    exact ih (fun u hu => hf u (by simp [hu])) hts

theorem returnEdits_eq_nil {body : List Tree} (h : ∀ t, body.getLast? = some t → t.label ≠ .exprStmt) :
    returnEdits body = [] := by
  fun_cases returnEdits body with
  | case1 span value hlast => exact absurd rfl (h _ hlast)
  | case2 => rfl

theorem exists_mem_returnEdits {body : List Tree} (hf : ∀ t ∈ body, t.fits .statement) {t : Tree}
    (hlast : body.getLast? = some t) (hl : t.label = .exprStmt) : ∃ e ∈ returnEdits body, e.text ≠ [] := by
  have hft := hf t (List.mem_of_getLast? hlast)
  obtain ⟨label, span, children⟩ := t
  simp only [Tree.label] at hl
  subst hl
  simp only [Tree.fits, Bool.and_eq_true] at hft
  obtain ⟨value, rfl, -⟩ := fitsAll_singleton hft.2
  simp only [returnEdits, hlast]
  exact text_enclose_ne_nil value.span (by decide) _

/-! ## Import declarations -/

/-- A rendered declaration calls the import function. -/
theorem paren_mem_rendering (site : ImportSite) (d : ImportDecl) :
    (⟨'(', none⟩ : TaggedChar) ∈ site.rendering d := by
  have hcall : (⟨'(', none⟩ : TaggedChar) ∈ site.call d := by
    simp [ImportSite.call, inserted]
  unfold ImportSite.rendering
  split
  · exact hcall
  · simp [hcall]

theorem actAll_edits_start {site : ImportSite} {ds : List ImportDecl} {lo n : Nat}
    (h : ascending lo (ds.map (·.span)) n) {d : ImportDecl} (hd : d ∈ ds) (s : Slot) :
    actAll (ds.map site.edit) (site.base + d.span.start) s =
      site.rendering d ++ if site.endedOutside d then [] else inserted ";" := by
  induction ds generalizing lo s with
  | nil => cases hd
  | cons d' ds ih =>
    obtain ⟨-, hlt, hds⟩ := ascending_cons.mp h
    rw [List.map_cons, actAll_cons]
    rcases List.mem_cons.mp hd with rfl | hd
    · rw [actAll_edits_of_lt hds hlt, act_edit, if_pos rfl]
    · exact ih hds hd _

/-! ## Runs -/

/-- The text of a variable declaration begins with its keyword. -/
def Draft.startsWithKeyword (d : Draft) : Tree → Bool
  | .node (.varDecl kind) span _ =>
    (d.slice ⟨span.start, span.start + kind.word.utf8ByteSize⟩).text == kind.word
  | _ => true

theorem exists_word_of_mem_keywords {d : Draft} {ts : List Tree} (h : ∀ t ∈ ts, d.startsWithKeyword t)
    {s : Span} (hs : s ∈ ts.flatMap keywords) : ∃ kind : VarKind, (d.slice s).chars = kind.word.toList := by
  obtain ⟨t, ht, hs⟩ := List.mem_flatMap.mp hs
  obtain ⟨label, span, children⟩ := t
  cases label with
  | varDecl kind =>
    rw [List.mem_singleton.mp hs]
    have hword := h _ ht
    rw [Draft.startsWithKeyword, beq_iff_eq] at hword
    have hchars := congrArg String.toList hword
    rw [TaggedText.text, String.toList_ofList] at hchars
    exact ⟨kind, hchars⟩
  | _ => cases hs

namespace CellRun

variable {o : ValidOptions} {cell : String} {r : AsyncCell} {run : CellRun o cell r}

/-- What a text of the statements becomes between the head and the tail of the wrapper. -/
def edited (run : CellRun o cell r) (text : TaggedText) : TaggedText :=
  stretch (fun i => actAll (run.awaiting.edits run.body) (run.awaiting.head.utf8ByteSize + i)
    ((Draft.ofText text).held i)) 0 text.byteSize

theorem text_eq_stretch (h : run.WellRead) {text : TaggedText}
    (hd : run.awaiting.draft = .ofText (inserted run.awaiting.head ++ text ++ inserted wrapperTail)) :
    ∃ site : ImportSite, text = stretch (fun i => actAll (run.parsed.imports.map site.edit)
      (site.base + i) ((Draft.ofText (typed cell o.options.file)).held i)) 0 cell.utf8ByteSize := by
  obtain ⟨draft, ha, hsettle, -⟩ := AwaitingCell.exists_of_ofModule run.awaiting_eq
  have hsource := source_apply_eq_stretch h.ordered ha
  have htext := congrArg Draft.source (hd.symm.trans hsettle)
  rw [Draft.settle, Draft.source_ofText, Draft.source_ofText, hsource, List.append_left_inj,
    List.append_right_inj] at htext
  exact ⟨_, htext⟩

section
variable {text : TaggedText} (h : run.WellRead)
  (hd : run.awaiting.draft = .ofText (inserted run.awaiting.head ++ text ++ inserted wrapperTail))
include h hd

theorem source_eq_edited : r.source =
    inserted (wrapperHead r.globalParam r.importParam) ++ run.edited text ++ inserted wrapperTail := by
  obtain ⟨draft, ha, hr⟩ := AwaitingCell.publish_eq_ok.mp run.publish_eq
  have hsource : r.source = draft.source := congrArg AsyncCell.source hr
  have hglobal : r.globalParam = run.awaiting.globalParam := congrArg AsyncCell.globalParam hr
  have himport : r.importParam = run.awaiting.importParam := congrArg AsyncCell.importParam hr
  rw [hd] at ha
  have hsrc := Draft.source_applyAll_inside ha fun e he => by
    rw [byteSize_inserted]
    exact bounds_of_mem_edits h hd he
  rw [hsource, hglobal, himport, hsrc, edited, byteSize_inserted]
  rfl

theorem source_eq_cellInWrapper_iff_edited :
    r.source = cellInWrapper cell o.options.file (wrapperHead r.globalParam r.importParam) ↔
      run.edited text = typed cell o.options.file := by
  rw [source_eq_edited h hd, cellInWrapper, List.append_left_inj, List.append_right_inj]

/-- The call that an import declaration becomes shows in the text that is read again. -/
theorem paren_mem_text (himports : run.parsed.imports ≠ []) : (⟨'(', none⟩ : TaggedChar) ∈ text := by
  obtain ⟨site, htext⟩ := text_eq_stretch h hd
  obtain ⟨decl, hdecl⟩ := List.exists_mem_of_ne_nil _ himports
  have hb := bounds_of_mem_ascending h.ordered.imports (List.mem_map_of_mem hdecl)
  rw [htext, mem_stretch]
  refine ⟨decl.span.start, Nat.zero_le _, by omega, ?_⟩
  rw [actAll_edits_start h.ordered.imports hdecl]
  exact List.mem_append_left _ (paren_mem_rendering site decl)

theorem text_eq_typed (himports : run.parsed.imports = []) : text = typed cell o.options.file := by
  obtain ⟨site, htext⟩ := text_eq_stretch h hd
  rw [htext, himports, ← byteSize_typed cell o.options.file]
  exact Draft.stretch_ofText _

section
variable (hk : ∀ t ∈ cellDeclarations run.body, run.awaiting.draft.startsWithKeyword t)
include hk

/-- A keyword is not empty, so that a character of it stands in one of its slots. -/
theorem exists_held_of_mem_keywords {s : Span} (hs : s ∈ (cellDeclarations run.body).flatMap keywords) :
    ∃ i c, i < text.byteSize ∧ s.contains (run.awaiting.head.utf8ByteSize + i) ∧
      c ∈ (Draft.ofText text).held i := by
  obtain ⟨kind, hword⟩ := exists_word_of_mem_keywords hk hs
  have hb := bounds_of_mem_keywords h hd hs
  have hsize := size_draft hd
  have hne : run.awaiting.draft.slice s ≠ [] := by
    intro hnil
    rw [hnil] at hword
    cases kind <;> cases hword
  obtain ⟨c, hc⟩ := List.exists_mem_of_ne_nil _ hne
  rw [Draft.slice_eq_stretch (by omega) (by omega), mem_stretch] at hc
  obtain ⟨j, hj, hj', hc⟩ := hc
  obtain ⟨i, rfl⟩ := Nat.exists_eq_add_of_le (Nat.le_trans hb.1 hj)
  have hi : i < text.byteSize := by omega
  rw [held_draft hd hi] at hc
  exact ⟨i, c, hi, Span.contains_iff.mpr ⟨hj, hj'⟩, hc⟩

theorem contains_eq_false_of_not_mem_word {c : TaggedChar} {i : Nat} (hi : i < text.byteSize)
    (hm : c ∈ (Draft.ofText text).held i) (hc : ∀ kind : VarKind, c.char ∉ kind.word.toList) :
    ∀ range ∈ (run.awaiting.edits run.body).filterMap Edit.replaced?,
      range.contains (run.awaiting.head.utf8ByteSize + i) = false := by
  intro range hrange
  rw [mem_replaced_edits h.fits] at hrange
  obtain ⟨kind, hword⟩ := exists_word_of_mem_keywords hk hrange
  by_contra hcontains
  rw [Bool.not_eq_false, Span.contains_iff] at hcontains
  have hb := bounds_of_mem_keywords h hd hrange
  have hsize := size_draft hd
  rw [Draft.slice_eq_stretch (by omega) (by omega)] at hword
  apply hc kind
  rw [← hword, chars]
  apply List.mem_map_of_mem
  rw [mem_stretch]
  refine ⟨_, hcontains.1, hcontains.2, ?_⟩
  rw [held_draft hd hi]
  exact hm

/-- No keyword holds the parenthesis of a call, so that it would still be there. -/
theorem imports_eq_nil_of_edited (hsame : run.edited text = typed cell o.options.file) :
    run.parsed.imports = [] := by
  by_contra himports
  have hparen := paren_mem_text h hd himports
  rw [← Draft.stretch_ofText text, mem_stretch] at hparen
  obtain ⟨i, -, hi, hparen⟩ := hparen
  have hout := contains_eq_false_of_not_mem_word h hd hk hi hparen (by
    intro kind
    cases kind <;> decide)
  have hkept := mem_actAll (insertsIn_edits h) hout hparen
  have hmem : (⟨'(', none⟩ : TaggedChar) ∈ run.edited text :=
    mem_stretch.mpr ⟨i, Nat.zero_le i, hi, hkept⟩
  rw [hsame] at hmem
  obtain ⟨before, after, -, horigin⟩ := exists_of_mem_tagFrom hmem
  cases horigin

end

end

section
variable (h : run.WellRead) (hd : run.awaiting.draft = .ofText (inserted run.awaiting.head ++
    typed cell o.options.file ++ inserted wrapperTail))
  (hk : ∀ t ∈ cellDeclarations run.body, run.awaiting.draft.startsWithKeyword t)
  (hsame : run.edited (typed cell o.options.file) = typed cell o.options.file)
include h hd hsame

include hk in
/-- A keyword that goes was typed, and its characters are nowhere else. -/
theorem replaced_eq_nil_of_edited : (run.awaiting.edits run.body).filterMap Edit.replaced? = [] := by
  rw [List.eq_nil_iff_forall_not_mem]
  intro range hrange
  have hkeyword := (mem_replaced_edits h.fits).mp hrange
  obtain ⟨i, c, hi, hcontains, hc⟩ := exists_held_of_mem_keywords h hd hk hkeyword
  have hoffset := offset_of_mem_held hc
  have hmem : c ∈ run.edited (typed cell o.options.file) := by
    rw [hsame, ← Draft.stretch_ofText (typed cell o.options.file)]
    exact mem_stretch.mpr ⟨i, Nat.zero_le i, hi, hc⟩
  obtain ⟨j, -, -, hm⟩ := mem_stretch.mp hmem
  have htyped : c ∈ typedPart (actAll (run.awaiting.edits run.body)
      (run.awaiting.head.utf8ByteSize + j) ((Draft.ofText (typed cell o.options.file)).held j)) :=
    mem_typedPart.mpr ⟨hm, _, hoffset⟩
  rw [typedPart_actAll (insertsIn_edits h), typedPart_held] at htyped
  split at htyped
  · cases htyped
  · rename_i hkept
    -- the offset of the character is that of its slot
    have hij : i = j := by
      have hoffset' := offset_of_mem_held htyped
      rw [hoffset] at hoffset'
      simpa using hoffset'
    subst hij
    exact hkept (List.any_eq_true.mpr ⟨range, hrange, hcontains⟩)

/-- What an edit brings is not typed. -/
theorem text_eq_nil_of_mem_edits (hr : (run.awaiting.edits run.body).filterMap Edit.replaced? = [])
    {e : Edit} (he : e ∈ run.awaiting.edits run.body) : e.text = [] := by
  rw [List.eq_nil_iff_forall_not_mem]
  intro c hc
  have hb := bounds_of_mem_edits h hd he
  have hslot : run.awaiting.head.utf8ByteSize ≤ e.slot ∧
      e.slot < run.awaiting.head.utf8ByteSize + byteSize (typed cell o.options.file) := by
    cases e <;> simp only [Edit.range, Edit.slot] at hb ⊢ <;> omega
  obtain ⟨i, hi⟩ := Nat.exists_eq_add_of_le hslot.1
  have hmem : c ∈ run.edited (typed cell o.options.file) := by
    rw [edited, mem_stretch]
    refine ⟨i, Nat.zero_le i, by omega, ?_⟩
    rw [← hi]
    exact mem_actAll_slot (insertsIn_edits h) hr he hc _
  rw [hsame] at hmem
  obtain ⟨before, after, -, horigin⟩ := exists_of_mem_tagFrom hmem
  have hinserted : c ∉ typedPart e.text := by
    rw [(insertsIn_edits h e he).inserted]
    exact List.not_mem_nil
  apply hinserted
  rw [mem_typedPart]
  exact ⟨hc, _, by rw [TaggedChar.offset, horigin]; rfl⟩

include hk in
theorem cellDeclarations_eq_nil_of_edited : cellDeclarations run.body = [] := by
  have hr := replaced_eq_nil_of_edited h hd hk hsame
  by_contra hne
  have hcount : 0 < (publishBody run.awaiting.globalParam run.body).count := by
    rw [(publishes_body run.awaiting.globalParam run.body h.fits).count]
    exact List.length_pos_iff.mpr hne
  rcases marks_publishBody run.awaiting.globalParam h.fits hcount with hreplaced | ⟨e, he, ht⟩
  · rw [AwaitingCell.edits, List.filterMap_append, List.append_eq_nil_iff] at hr
    exact hreplaced hr.1
  · exact ht (text_eq_nil_of_mem_edits h hd hsame hr (List.mem_append_left _ he))

end

theorem nothingToDo_of_edited {text : TaggedText} (h : run.WellRead)
    (hd : run.awaiting.draft = .ofText (inserted run.awaiting.head ++ text ++ inserted wrapperTail))
    (hk : ∀ t ∈ cellDeclarations run.body, run.awaiting.draft.startsWithKeyword t)
    (hsame : run.edited text = typed cell o.options.file) : NothingToDo run.parsed run.body := by
  have himports := imports_eq_nil_of_edited h hd hk hsame
  obtain rfl := text_eq_typed h hd himports
  have hr := replaced_eq_nil_of_edited h hd hk hsame
  obtain ⟨hhoisted, hlexical⟩ :=
    cellDeclarations_eq_nil.mp (cellDeclarations_eq_nil_of_edited h hd hk hsame)
  refine ⟨himports, hhoisted, hlexical, ?_⟩
  intro t hlast hl
  obtain ⟨e, he, ht⟩ := exists_mem_returnEdits h.fits hlast hl
  exact ht (text_eq_nil_of_mem_edits h hd hsame hr (List.mem_append_right _ he))

theorem edited_of_nothingToDo {text : TaggedText} (h : run.WellRead)
    (hd : run.awaiting.draft = .ofText (inserted run.awaiting.head ++ text ++ inserted wrapperTail))
    (hnothing : NothingToDo run.parsed run.body) : run.edited text = typed cell o.options.file := by
  have hdecls := cellDeclarations_eq_nil.mpr ⟨hnothing.hoisted, hnothing.lexical⟩
  have hedits : run.awaiting.edits run.body = [] := by
    rw [AwaitingCell.edits, publishBody_eq_none _ h.fits hdecls, returnEdits_eq_nil hnothing.unreturned]
    rfl
  rw [edited, hedits, ← text_eq_typed h hd hnothing.imports]
  exact Draft.stretch_ofText text

/-- A cell stands in its wrapper as it was typed, each character with its own offset, exactly where
it imports and declares nothing and ends in no expression. -/
theorem source_eq_cellInWrapper_iff (run : CellRun o cell r) (h : run.WellRead)
    (hk : ∀ t ∈ cellDeclarations run.body, run.awaiting.draft.startsWithKeyword t) :
    r.source = cellInWrapper cell o.options.file (wrapperHead r.globalParam r.importParam) ↔
      NothingToDo run.parsed run.body := by
  obtain ⟨text, hd, -⟩ := exists_draft_eq h
  rw [source_eq_cellInWrapper_iff_edited h hd]
  constructor
  · intro hsame
    exact nothingToDo_of_edited h hd hk hsame
  · intro hnothing
    exact edited_of_nothingToDo h hd hnothing

end CellRun

/-- What is declared in a block stays there. -/
def quietCell : String := "\x7blet b\x7d"

theorem source_quietCell_iff :
    (∃ (r : AsyncCell) (run : CellRun sampleOptions quietCell r), NothingToDo run.parsed run.body ∧
      r.source = cellInWrapper quietCell none (wrapperHead r.globalParam r.importParam)) ∧
    ∃ (r : AsyncCell) (run : CellRun sampleOptions sampleCell r), ¬NothingToDo run.parsed run.body ∧
      r.source ≠ cellInWrapper sampleCell none (wrapperHead r.globalParam r.importParam) := by
  constructor
  · obtain ⟨r, run, hq⟩ := @exists_cellRun sampleOptions quietCell
      (fun m c body _ => readsWell quietCell m c body &&
        (cellDeclarations body).all c.draft.startsWithKeyword && decide (NothingToDo m body))
      (by decide +kernel)
    rw [Bool.and_eq_true, Bool.and_eq_true, decide_eq_true_iff, List.all_eq_true] at hq
    obtain ⟨⟨hread, hk⟩, hnothing⟩ := hq
    have h := run.wellRead_of_readsWell hread
    exact ⟨r, run, hnothing, (run.source_eq_cellInWrapper_iff h hk).mpr hnothing⟩
  · obtain ⟨r, run, hq⟩ := @exists_cellRun sampleOptions sampleCell
      (fun m c body _ => readsWell sampleCell m c body &&
        (cellDeclarations body).all c.draft.startsWithKeyword && decide ¬NothingToDo m body)
      (by decide +kernel)
    rw [Bool.and_eq_true, Bool.and_eq_true, decide_eq_true_iff, List.all_eq_true] at hq
    obtain ⟨⟨hread, hk⟩, hsomething⟩ := hq
    have h := run.wellRead_of_readsWell hread
    refine ⟨r, run, hsomething, ?_⟩
    intro hsame
    exact hsomething ((run.source_eq_cellInWrapper_iff h hk).mp hsame)

end NotebookCell
