import NotebookCell.Proofs.CellRun
import NotebookCell.Proofs.EditRanges
import NotebookCell.Proofs.KeptText
import Mathlib.Data.List.Pairwise

/-!
# What becomes of the text of a cell

Between the head and the tail of the wrapper stands the cell: each of its characters once and in
order, without what import declarations lose and without the keywords of the declarations that are
published. Everything else was inserted.
-/

namespace NotebookCell

open Script TaggedText

/-! ## Slots under inserting edits -/

theorem typedPart_act {within : Span} {e : Edit} (h : e.InsertsIn within) (i : Nat) (s : Slot) :
    typedPart (e.act i s) = if e.replaced?.any (·.contains i) then [] else typedPart s := by
  have hlt := h.start_lt_stop
  have ht := h.inserted
  cases e with
  | replace range text =>
    simp only [Edit.range, Edit.text] at hlt ht
    simp only [Edit.act, Edit.replaced?, Option.any_some, Span.contains_iff]
    by_cases h0 : i = range.start
    · rw [if_pos h0, if_pos (by omega), ht]
    · by_cases h1 : range.start < i ∧ i < range.stop
      · rw [if_neg h0, if_pos h1, if_pos (by omega), typedPart_nil]
      · rw [if_neg h0, if_neg h1, if_neg (by omega)]
  | prepend range text =>
    simp only [Edit.text] at ht
    simp only [Edit.act, Edit.replaced?, Option.any_none]
    split <;> simp [ht]
  | append range text =>
    simp only [Edit.text] at ht
    simp only [Edit.act, Edit.replaced?, Option.any_none]
    split <;> simp [ht]

theorem typedPart_actAll {within : Span} {es : List Edit} (h : ∀ e ∈ es, e.InsertsIn within) (i : Nat)
    (s : Slot) : typedPart (actAll es i s) =
      if (es.filterMap Edit.replaced?).any (·.contains i) then [] else typedPart s := by
  induction es generalizing s with
  | nil => rfl
  | cons e es ih =>
    rw [actAll_cons, ih fun e' he' => h e' (by simp [he']), typedPart_act (h e (by simp))]
    cases hr : e.replaced? with
    | none => simp [hr]
    | some range => by_cases hc : range.contains i <;> simp [hr, hc]

/-! ## Selections by offset -/

theorem slot_eq_of_mem_offsets {f : Nat → Slot} {n : Nat} (h : (offsets (stretch f 0 n)).Nodup)
    {i j off : Nat} (hi : i < n) (hj : j < n) (hfi : off ∈ offsets (f i)) (hfj : off ∈ offsets (f j)) :
    i = j := by
  have e : offsets (stretch f 0 n) = (List.range' 0 (n - 0)).flatMap fun i => offsets (f i) := by
    simp only [offsets, stretch, List.filterMap_flatMap]
  rw [e, List.nodup_flatMap] at h
  by_contra hne
  have hs : ∀ i < n, i ∈ List.range' 0 (n - 0) := fun i hi => by
    rw [List.mem_range'_1]
    omega
  have : Std.Symm (Function.onFun List.Disjoint fun i => offsets (f i)) :=
    ⟨fun _ _ hab _ ha hb => hab hb ha⟩
  exact h.2.forall (hs i hi) (hs j hj) hne hfi hfj

/-- Where no offset occurs twice, emptying slots is dropping the offsets that occur in them. -/
theorem stretch_emptied {f : Nat → Slot} {p : Nat → Bool} {n : Nat} {dropped : List Nat}
    (h : (offsets (stretch f 0 n)).Nodup) (ht : ∀ i, typedPart (f i) = f i)
    (hd : ∀ off, off ∈ dropped ↔ ∃ i < n, p i ∧ off ∈ offsets (f i)) :
    stretch (fun i => if p i then [] else f i) 0 n =
      typedWhere (fun off => !dropped.contains off) (stretch f 0 n) := by
  rw [typedWhere, filter_stretch]
  refine stretch_congr fun i _ hi => ?_
  have hkeep : ∀ ch ∈ f i, ch.offset.any (fun off => !dropped.contains off) = !p i := by
    intro ch hch
    rw [← ht i] at hch
    obtain ⟨hm, off, ho⟩ := mem_typedPart.mp hch
    have hoff : off ∈ offsets (f i) := List.mem_filterMap.mpr ⟨ch, hm, ho⟩
    have hiff : off ∈ dropped ↔ p i := by
      rw [hd]
      constructor
      · rintro ⟨j, hj, hpj, hfj⟩
        rwa [slot_eq_of_mem_offsets h hi hj hoff hfj]
      · exact fun hp => ⟨i, hi, hp, hoff⟩
    rw [ho, Option.any_some]
    cases hp : p i <;> simp [hiff, hp]
  rw [List.filter_congr hkeep]
  cases p i <;> simp

/-! ## Runs -/

theorem replaced_returnEdits (body : List Tree) : (returnEdits body).filterMap Edit.replaced? = [] := by
  unfold returnEdits
  split <;> rfl

/-- Of the text of a cell in its wrapper, edits of its statements take away the keywords of the
declarations that are published. -/
theorem mem_replaced_edits {c : AwaitingCell} {body : List Tree} (h : ∀ t ∈ body, t.fits .statement)
    {s : Span} : s ∈ (c.edits body).filterMap Edit.replaced? ↔
      s ∈ (cellDeclarations body).flatMap keywords := by
  rw [AwaitingCell.edits, List.filterMap_append, replaced_returnEdits, List.append_nil]
  exact (publishes_body c.globalParam body h).replaced.mem_iff

/-- Where the text between the head and the tail of the wrapper is. -/
def AwaitingCell.inside (c : AwaitingCell) : Span :=
  ⟨c.head.utf8ByteSize, c.draft.size - wrapperTail.utf8ByteSize⟩

namespace CellRun

variable {o : ValidOptions} {cell : String} {r : AsyncCell}

/-- The offsets in the cell of the keywords that publishing takes away. -/
def keywordOffsets (run : CellRun o cell r) : List Nat :=
  ((cellDeclarations run.body).flatMap keywords).flatMap fun s => offsets (run.awaiting.draft.slice s)

def keeps (run : CellRun o cell r) (offset : Nat) : Bool :=
  run.parsed.keeps offset && !run.keywordOffsets.contains offset

/-- The readers built trees of the grammar and put their nodes where they stand in the text. -/
structure WellRead (run : CellRun o cell r) : Prop where
  ordered : run.parsed.Ordered cell.utf8ByteSize
  fits : ∀ t ∈ run.body, t.fits .statement
  nested : ∀ t ∈ run.body, t.nestedIn run.awaiting.inside

variable {run : CellRun o cell r}

theorem exists_draft_eq (h : run.WellRead) : ∃ text,
    run.awaiting.draft = .ofText (inserted run.awaiting.head ++ text ++ inserted wrapperTail) ∧
      typedPart text = typedWhere run.parsed.keeps (typed cell o.options.file) := by
  obtain ⟨draft, ha, hd, -⟩ := AwaitingCell.exists_of_ofModule run.awaiting_eq
  obtain ⟨text, hs, ht⟩ := source_apply_ofCell h.ordered ha
  exact ⟨text, by rw [hd, Draft.settle, hs], ht⟩

theorem insertsIn_edits (h : run.WellRead) :
    ∀ e ∈ run.awaiting.edits run.body, e.InsertsIn run.awaiting.inside :=
  insertsIn_body run.awaiting.globalParam h.fits h.nested

section
variable {text : TaggedText} (h : run.WellRead)
  (hd : run.awaiting.draft = .ofText (inserted run.awaiting.head ++ text ++ inserted wrapperTail))

include hd in
theorem held_draft {i : Nat} (hi : i < text.byteSize) :
    run.awaiting.draft.held (run.awaiting.head.utf8ByteSize + i) = (Draft.ofText text).held i := by
  rw [hd, List.append_assoc, ← byteSize_inserted run.awaiting.head, Draft.held_ofText_append_add,
    Draft.held_ofText_append_of_lt hi]

include hd in
theorem size_draft : run.awaiting.draft.size =
    run.awaiting.head.utf8ByteSize + text.byteSize + wrapperTail.utf8ByteSize := by
  rw [hd, Draft.size_ofText]
  simp only [byteSize_append, byteSize_inserted]

include h hd

theorem bounds_of_mem_edits {e : Edit} (he : e ∈ run.awaiting.edits run.body) :
    run.awaiting.head.utf8ByteSize ≤ e.range.start ∧ e.range.start < e.range.stop ∧
      e.range.stop ≤ run.awaiting.head.utf8ByteSize + text.byteSize := by
  have hin := insertsIn_edits h e he
  have hstop := hin.stop_le
  rw [AwaitingCell.inside, size_draft hd, Nat.add_sub_cancel] at hstop
  exact ⟨hin.start_le, hin.start_lt_stop, hstop⟩

theorem bounds_of_mem_keywords {s : Span} (hs : s ∈ (cellDeclarations run.body).flatMap keywords) :
    run.awaiting.head.utf8ByteSize ≤ s.start ∧ s.start < s.stop ∧
      s.stop ≤ run.awaiting.head.utf8ByteSize + text.byteSize := by
  obtain ⟨e, he, hr⟩ := List.mem_filterMap.mp ((mem_replaced_edits (c := run.awaiting) h.fits).mpr hs)
  have hb := bounds_of_mem_edits h hd he
  cases e with
  | replace range _ =>
    cases hr
    exact hb
  | _ => cases hr

theorem mem_keywordOffsets {off : Nat} : off ∈ run.keywordOffsets ↔ ∃ i < text.byteSize,
    ((run.awaiting.edits run.body).filterMap Edit.replaced?).any
      (·.contains (run.awaiting.head.utf8ByteSize + i)) ∧
    off ∈ offsets ((Draft.ofText text).held i) := by
  have hslice : ∀ s ∈ (cellDeclarations run.body).flatMap keywords,
      run.awaiting.draft.slice s = stretch run.awaiting.draft.held s.start s.stop := by
    intro s hs
    have hb := bounds_of_mem_keywords h hd hs
    have hsize := size_draft hd
    exact Draft.slice_eq_stretch (by omega) (by omega)
  rw [keywordOffsets, List.mem_flatMap]
  constructor
  · rintro ⟨s, hs, ho⟩
    rw [hslice s hs, mem_offsets_stretch] at ho
    obtain ⟨j, hj, hj', ho⟩ := ho
    have hb := bounds_of_mem_keywords h hd hs
    obtain ⟨i, rfl⟩ := Nat.exists_eq_add_of_le (Nat.le_trans hb.1 hj)
    have hi : i < text.byteSize := by omega
    refine ⟨i, hi, List.any_eq_true.mpr ⟨s, ?_, Span.contains_iff.mpr ⟨hj, hj'⟩⟩, ?_⟩
    · exact (mem_replaced_edits h.fits).mpr hs
    · rwa [held_draft hd hi] at ho
  · rintro ⟨i, hi, hany, ho⟩
    obtain ⟨s, hs, hc⟩ := List.any_eq_true.mp hany
    have hs := (mem_replaced_edits h.fits).mp hs
    obtain ⟨h1, h2⟩ := Span.contains_iff.mp hc
    refine ⟨s, hs, ?_⟩
    rw [hslice s hs, mem_offsets_stretch]
    exact ⟨_, h1, h2, by rwa [held_draft hd hi]⟩

theorem typedPart_edited (hn : (offsets text).Nodup) :
    typedPart (stretch (fun i => actAll (run.awaiting.edits run.body)
        ((inserted run.awaiting.head).byteSize + i) ((Draft.ofText text).held i)) 0 text.byteSize) =
      typedWhere (fun off => !run.keywordOffsets.contains off) (typedPart text) := by
  have htext : stretch (fun i => typedPart ((Draft.ofText text).held i)) 0 text.byteSize =
      typedPart text := by
    rw [← typedPart_stretch, Draft.stretch_ofText]
  rw [typedPart_stretch, stretch_congr fun i _ _ => typedPart_actAll (insertsIn_edits h) _ _, ← htext,
    byteSize_inserted]
  refine stretch_emptied ?_ (fun i => by simp [typedPart]) fun off => ?_
  · rwa [htext, offsets_typedPart]
  · simp only [offsets_typedPart]
    exact mem_keywordOffsets h hd

end

/-- An asynchronous function is the wrapper around the kept characters of the cell, in order and
each with its own origin, and inserted ones. -/
theorem source_eq_wrapped (run : CellRun o cell r) (h : run.WellRead) : ∃ text,
    r.source = inserted (wrapperHead r.globalParam r.importParam) ++ text ++ inserted wrapperTail ∧
      typedPart text = typedWhere run.keeps (typed cell o.options.file) ∧
      (offsets text).Pairwise (· < ·) ∧
      ∀ ch ∈ text, ∀ origin, ch.origin = some origin → origin.file = o.options.file ∧
        ∃ before after, cell.toList = before ++ ch.char :: after ∧ origin.offset = byteLength before := by
  obtain ⟨text₁, hd, ht⟩ := exists_draft_eq h
  obtain ⟨draft, ha, hr⟩ := AwaitingCell.publish_eq_ok.mp run.publish_eq
  have hsource : r.source = draft.source := congrArg AsyncCell.source hr
  have hglobal : r.globalParam = run.awaiting.globalParam := congrArg AsyncCell.globalParam hr
  have himport : r.importParam = run.awaiting.importParam := congrArg AsyncCell.importParam hr
  have hsorted : (offsets (typed cell o.options.file)).Pairwise (· < ·) :=
    pairwise_offsets_tagFrom _ _ _
  have hn : (offsets text₁).Nodup := by
    rw [← offsets_typedPart, ht]
    exact (hsorted.sublist (offsets_typedWhere_sublist _ _)).imp Nat.ne_of_lt
  -- what the second reading takes away is selected by offset, like what the first one did
  have hkept := typedPart_edited h hd hn
  rw [ht, typedWhere_typedWhere] at hkept
  rw [hd] at ha
  have hsrc := Draft.source_applyAll_inside ha fun e he => by
    rw [byteSize_inserted]
    exact bounds_of_mem_edits h hd he
  rw [hsource, hglobal, himport]
  refine ⟨_, hsrc, hkept, ?_, fun ch hch origin ho => ?_⟩
  · rw [← offsets_typedPart, hkept]
    exact hsorted.sublist (offsets_typedWhere_sublist _ _)
  · have hm := mem_typedPart.mpr ⟨hch, origin.offset, by rw [TaggedChar.offset, ho]; rfl⟩
    rw [hkept] at hm
    obtain ⟨before, after, hc, ho'⟩ := exists_of_mem_tagFrom (List.mem_of_mem_filter hm)
    rw [ho] at ho'
    cases ho'
    exact ⟨rfl, before, after, hc, Nat.zero_add _⟩

end CellRun

/-! ## A cell -/

def sampleOptions : ValidOptions := ⟨{}, by decide +kernel⟩

def sampleCell : String := "import {a} from 'm'\nlet c"

def readsWell (cell : String) (m : Module) (c : AwaitingCell) (body : List Tree) : Bool :=
  ascending 0 (m.imports.map (·.span)) cell.utf8ByteSize &&
    m.imports.all (fun d => ascending d.span.start d.copied d.span.stop) &&
    body.all (fun t => t.fits .statement && t.nestedIn c.inside)

theorem CellRun.wellRead_of_readsWell {o : ValidOptions} {cell : String} {r : AsyncCell}
    (run : CellRun o cell r) (h : readsWell cell run.parsed run.awaiting run.body) : run.WellRead := by
  simp only [readsWell, Bool.and_eq_true, List.all_eq_true] at h
  obtain ⟨⟨h1, h2⟩, h3⟩ := h
  exact ⟨⟨h1, h2⟩, fun t ht => (h3 t ht).1, fun t ht => (h3 t ht).2⟩

theorem source_sampleCell_eq_wrapped : ∃ (r : AsyncCell) (run : CellRun sampleOptions sampleCell r),
    run.WellRead ∧ ∃ text,
      r.source = inserted (wrapperHead r.globalParam r.importParam) ++ text ++ inserted wrapperTail ∧
      typedPart text = typedWhere run.keeps (typed sampleCell none) := by
  obtain ⟨r, run, hread⟩ := @exists_cellRun sampleOptions sampleCell
    (fun m c body _ => readsWell sampleCell m c body) (by decide +kernel)
  have h := run.wellRead_of_readsWell hread
  obtain ⟨text, hs, ht, -, -⟩ := run.source_eq_wrapped h
  exact ⟨r, run, h, text, hs, ht⟩

end NotebookCell
