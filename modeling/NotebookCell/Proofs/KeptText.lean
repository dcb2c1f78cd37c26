import NotebookCell.Proofs.CellRun
import NotebookCell.Proofs.Origins

/-!
# What import declarations keep

An import declaration is exchanged for a call that copies its names, its specifier string and its
attributes, in the order in which they stand. So the import declarations of a cell lose what is
between these parts and nothing else of the cell.
-/

namespace NotebookCell

open Script TaggedText

/-! ## Spans in order -/

def Span.contains (s : Span) (i : Nat) : Bool := s.start ≤ i && i < s.stop

theorem Span.contains_iff {s : Span} {i : Nat} : s.contains i ↔ s.start ≤ i ∧ i < s.stop := by
  simp [Span.contains]

/-- The spans are not empty and follow one another between two positions. -/
def ascending : Nat → List Span → Nat → Bool
  | lo, [], hi => lo ≤ hi
  | lo, s :: ss, hi => lo ≤ s.start && s.start < s.stop && ascending s.stop ss hi

section
variable {lo hi : Nat} {s : Span} {ss : List Span}

theorem ascending_cons : ascending lo (s :: ss) hi ↔
    lo ≤ s.start ∧ s.start < s.stop ∧ ascending s.stop ss hi := by
  simp [ascending, and_assoc]

theorem le_of_ascending (h : ascending lo ss hi) : lo ≤ hi := by
  induction ss generalizing lo with
  | nil => simpa [ascending] using h
  | cons s ss ih =>
    obtain ⟨h1, h2, h3⟩ := ascending_cons.mp h
    have := ih h3
    omega

theorem bounds_of_mem_ascending (h : ascending lo ss hi) (hs : s ∈ ss) :
    lo ≤ s.start ∧ s.start < s.stop ∧ s.stop ≤ hi := by
  induction ss generalizing lo with
  | nil => cases hs
  | cons s' ss ih =>
    obtain ⟨h1, h2, h3⟩ := ascending_cons.mp h
    rcases List.mem_cons.mp hs with rfl | hs
    · exact ⟨h1, h2, le_of_ascending h3⟩
    · have := ih h3 hs
      omega

theorem ascending_mono {lo' hi' : Nat} (h : ascending lo ss hi) (hlo : lo' ≤ lo) (hhi : hi ≤ hi') :
    ascending lo' ss hi' := by
  induction ss generalizing lo lo' with
  | nil =>
    have := le_of_ascending h
    simp only [ascending, decide_eq_true_eq]
    omega
  | cons s ss ih =>
    obtain ⟨h1, h2, h3⟩ := ascending_cons.mp h
    exact ascending_cons.mpr ⟨Nat.le_trans hlo h1, h2, ih h3 (Nat.le_refl _)⟩

theorem ascending_append {middle : Nat} {ss' : List Span} (h : ascending lo ss middle)
    (h' : ascending middle ss' hi) : ascending lo (ss ++ ss') hi := by
  induction ss generalizing lo with
  | nil => exact ascending_mono h' (le_of_ascending h) (Nat.le_refl _)
  | cons s ss ih =>
    obtain ⟨h1, h2, h3⟩ := ascending_cons.mp h
    exact ascending_cons.mpr ⟨h1, h2, ih h3⟩

theorem not_contains_of_lt_ascending {i : Nat} (h : ascending lo ss hi) (hi : i < lo) :
    ∀ s ∈ ss, s.contains i = false := by
  intro s hs
  have := bounds_of_mem_ascending h hs
  simp only [Span.contains, Bool.and_eq_false_iff, decide_eq_false_iff_not]
  omega

theorem flatMap_stretch (f : Nat → Slot) (h : ascending lo ss hi) :
    ss.flatMap (fun s => stretch f s.start s.stop) =
      stretch (fun i => if ss.any (·.contains i) then f i else []) lo hi := by
  induction ss generalizing lo with
  | nil => exact (stretch_eq_nil fun i _ _ => by simp).symm
  | cons s ss ih =>
    obtain ⟨h1, h2, h3⟩ := ascending_cons.mp h
    have hle := le_of_ascending h3
    have hrest : ∀ i, i < s.stop → ss.any (·.contains i) = false := fun i hi => by
      simpa using not_contains_of_lt_ascending h3 hi
    rw [List.flatMap_cons, ih h3, ← stretch_append (b := s.start) h1 (by omega),
      ← stretch_append (b := s.stop) (Nat.le_of_lt h2) hle]
    have hbefore :
        stretch (fun i => if (s :: ss).any (·.contains i) then f i else []) lo s.start = [] := by
      refine stretch_eq_nil fun i _ hi => ?_
      rw [List.any_cons, hrest i (by omega), Bool.or_false, if_neg]
      rw [Span.contains_iff]
      omega
    rw [hbefore, List.nil_append]
    congr 1
    · refine stretch_congr fun i hi hi' => ?_
      simp [Span.contains, hi, hi']
    · refine stretch_congr fun i hi _ => ?_
      simp [Span.contains, Nat.not_lt.mpr hi]

end

/-! ## The parts of a declaration -/

def Script.ImportSpecifier.copied : ImportSpecifier → List Span
  | .named (some imported) id => [imported.span, id.span]
  | .named none id => [id.span]
  | .default id => [id.span]
  | .namespace id => [id.span]

/-- The names, the specifier string and the attributes. -/
def Script.ImportDecl.copied (d : ImportDecl) : List Span :=
  d.specifiers.flatMap ImportSpecifier.copied ++ d.source :: (d.attributes.map (·.span)).toList

/-- The declaration does not lose what stands at the offset. -/
def Script.ImportDecl.keeps (d : ImportDecl) (offset : Nat) : Bool :=
  !d.span.contains offset || d.copied.any (·.contains offset)

def Script.Module.keeps (m : Module) (offset : Nat) : Bool := m.imports.all (·.keeps offset)

theorem typedPart_intercalate {sep : TaggedText} (h : typedPart sep = []) : ∀ ts : List TaggedText,
    typedPart (sep.intercalate ts) = ts.flatMap typedPart
  | [] => rfl
  | [t] => by simp [List.intercalate]
  | t :: u :: ts => by
    have ih := typedPart_intercalate h (u :: ts)
    rw [List.intercalate_cons_cons, typedPart_append, typedPart_append, h, ih]
    simp

section
variable (site : ImportSite)

theorem typedPart_entry (s : ImportSpecifier) :
    typedPart (site.entry s) = s.copied.flatMap fun span => typedPart (site.excerpt span) := by
  cases s with
  | named imported id => cases imported <;> simp [ImportSite.entry, ImportSpecifier.copied]
  | default id => simp [ImportSite.entry, ImportSpecifier.copied]
  | «namespace» id => simp [ImportSite.entry, ImportSpecifier.copied]

theorem typedPart_call (d : ImportDecl) :
    typedPart (site.call d) = (d.source :: (d.attributes.map (·.span)).toList).flatMap fun span =>
      typedPart (site.excerpt span) := by
  cases h : d.attributes <;> simp [ImportSite.call, h]

theorem typedPart_rendering (d : ImportDecl) :
    typedPart (site.rendering d) = d.copied.flatMap fun span => typedPart (site.excerpt span) := by
  rw [ImportSite.rendering, ImportDecl.copied, List.flatMap_append, ← typedPart_call]
  split
  · rename_i h
    rw [List.isEmpty_iff.mp h]
    rfl
  · simp [typedPart_intercalate, List.flatMap_map, List.flatMap_assoc, typedPart_entry]

theorem typedPart_edit_text (d : ImportDecl) :
    typedPart (site.rendering d ++ if site.endedOutside d then [] else inserted ";") =
      typedPart (site.rendering d) := by
  split <;> simp

end

/-! ## The cell without its declarations -/

section
variable (cell : String) (file : Option String) (head importParam : String)

theorem byteSize_cellInWrapper :
    byteSize (cellInWrapper cell file head) =
      head.utf8ByteSize + cell.utf8ByteSize + wrapperTail.utf8ByteSize := by
  simp [cellInWrapper, byteSize_typed, Nat.add_assoc]

theorem held_ofCell {i : Nat} (h : i < cell.utf8ByteSize) :
    (ImportSite.ofCell cell file head importParam).draft.held (head.utf8ByteSize + i) =
      (Draft.ofText (typed cell file)).held i := by
  rw [ImportSite.ofCell, cellInWrapper, List.append_assoc, ← byteSize_inserted head,
    Draft.held_ofText_append_add]
  exact Draft.held_ofText_append_of_lt (by rwa [byteSize_typed]) _

theorem excerpt_ofCell {span : Span} (h : span.start ≤ span.stop) (hs : span.stop ≤ cell.utf8ByteSize) :
    (ImportSite.ofCell cell file head importParam).excerpt span =
      stretch (Draft.ofText (typed cell file)).held span.start span.stop := by
  have hsize : (ImportSite.ofCell cell file head importParam).draft.size =
      head.utf8ByteSize + cell.utf8ByteSize + wrapperTail.utf8ByteSize := by
    rw [ImportSite.ofCell, Draft.size_ofText, byteSize_cellInWrapper]
  have hbase : (ImportSite.ofCell cell file head importParam).base = head.utf8ByteSize := rfl
  rw [ImportSite.excerpt, Draft.slice_eq_stretch (by simp [Span.shift, h])
    (by simp only [Span.shift]; omega)]
  simp only [Span.shift, hbase, Nat.add_comm _ head.utf8ByteSize]
  rw [stretch_shift]
  exact stretch_congr fun i _ hi => held_ofCell cell file head importParam (by omega)

theorem typedPart_held (i : Nat) :
    typedPart ((Draft.ofText (typed cell file)).held i) = (Draft.ofText (typed cell file)).held i := by
  rw [typedPart, List.filter_eq_self]
  intro ch hch
  have ho : ch.offset ≠ none := by simp [offset_of_mem_held hch]
  simpa [offset_eq_none] using ho

theorem typedPart_rendering_ofCell {d : ImportDecl} (hc : ascending d.span.start d.copied d.span.stop)
    (hd : d.span.stop ≤ cell.utf8ByteSize) :
    typedPart ((ImportSite.ofCell cell file head importParam).rendering d) =
      stretch (fun i => if d.keeps i then (Draft.ofText (typed cell file)).held i else [])
        d.span.start d.span.stop := by
  have hx : ∀ span ∈ d.copied,
      typedPart ((ImportSite.ofCell cell file head importParam).excerpt span) =
        stretch (Draft.ofText (typed cell file)).held span.start span.stop := by
    intro span hspan
    have hb := bounds_of_mem_ascending hc hspan
    rw [excerpt_ofCell cell file head importParam (by omega) (by omega), typedPart_stretch]
    exact stretch_congr fun i _ _ => typedPart_held cell file i
  rw [typedPart_rendering, List.flatMap_congr hx, flatMap_stretch _ hc]
  refine stretch_congr fun i hi hi' => ?_
  have : d.span.contains i := Span.contains_iff.mpr ⟨hi, hi'⟩
  rw [ImportDecl.keeps, this, Bool.not_true, Bool.false_or]

/-- Over its own span an edit puts its text, elsewhere it does nothing. -/
theorem act_edit (site : ImportSite) (d : ImportDecl) (i : Nat) (s : Slot) :
    (site.edit d).act (site.base + i) s =
      if i = d.span.start then site.rendering d ++ if site.endedOutside d then [] else inserted ";"
      else if d.span.start < i ∧ i < d.span.stop then [] else s := by
  have h0 : site.base + i = d.span.start + site.base ↔ i = d.span.start := by omega
  have h1 : d.span.start + site.base < site.base + i ↔ d.span.start < i := by omega
  have h2 : site.base + i < d.span.stop + site.base ↔ i < d.span.stop := by omega
  simp only [ImportSite.edit, Edit.act, Span.shift, h0, h1, h2]

theorem actAll_edits_of_lt {site : ImportSite} {ds : List ImportDecl} {lo n i : Nat}
    (h : ascending lo (ds.map (·.span)) n) (hi : i < lo) (s : Slot) :
    actAll (ds.map site.edit) (site.base + i) s = s := by
  refine actAll_of_outside (fun e he => ?_) s
  obtain ⟨d, hd, rfl⟩ := List.mem_map.mp he
  have hb := bounds_of_mem_ascending h (List.mem_map_of_mem hd)
  simp only [ImportSite.edit, Edit.range, Span.shift]
  omega

theorem typedPart_actAll_edits {ds : List ImportDecl} {lo : Nat}
    (h : ascending lo (ds.map (·.span)) cell.utf8ByteSize)
    (hc : ∀ d ∈ ds, ascending d.span.start d.copied d.span.stop) :
    stretch (fun i => typedPart (actAll (ds.map (ImportSite.ofCell cell file head importParam).edit)
        (head.utf8ByteSize + i) ((Draft.ofText (typed cell file)).held i))) lo cell.utf8ByteSize =
      stretch (fun i => if ds.all (·.keeps i) then (Draft.ofText (typed cell file)).held i else [])
        lo cell.utf8ByteSize := by
  induction ds generalizing lo with
  | nil => exact stretch_congr fun i _ _ => by simp [typedPart_held]
  | cons d ds ih =>
    obtain ⟨h1, h2, h3⟩ : lo ≤ d.span.start ∧ d.span.start < d.span.stop ∧ _ := ascending_cons.mp h
    have hle := le_of_ascending h3
    have hbase : (ImportSite.ofCell cell file head importParam).base = head.utf8ByteSize := rfl
    have hkeep : ∀ i, i < d.span.stop → ds.all (·.keeps i) := fun i hi => by
      rw [List.all_eq_true]
      intro d' hd'
      rw [ImportDecl.keeps, not_contains_of_lt_ascending h3 hi _ (List.mem_map_of_mem hd')]
      rfl
    -- only the first declaration acts on its own span, and the others act behind it
    refine stretch_append_congr h1 (by omega) ?before
      (stretch_append_congr (Nat.le_of_lt h2) hle ?inside ?behind)
    case before =>
      refine stretch_congr fun i _ hi => ?_
      have hd : d.keeps i := by simp [ImportDecl.keeps, Span.contains, Nat.not_le.mpr hi]
      have hds : ascending d.span.start ((d :: ds).map (·.span)) cell.utf8ByteSize :=
        ascending_cons.mpr ⟨Nat.le_refl _, h2, h3⟩
      rw [← hbase, actAll_edits_of_lt hds hi, typedPart_held, List.all_cons, hkeep i (by omega), hd]
      rfl
    case inside =>
      rw [stretch_eq_first h2]
      · rw [List.map_cons, actAll_cons, ← hbase, actAll_edits_of_lt h3 h2, act_edit, if_pos rfl,
          typedPart_edit_text, typedPart_rendering_ofCell cell file head importParam (hc d (by simp)) hle]
        exact stretch_congr fun i _ hi => by simp only [List.all_cons, hkeep i hi, Bool.and_true]
      · intro i hi hi'
        rw [List.map_cons, actAll_cons, ← hbase, actAll_edits_of_lt h3 hi', act_edit, if_neg (by omega),
          if_pos ⟨hi, hi'⟩, typedPart_nil]
    case behind =>
      have hact : ∀ i, d.span.stop ≤ i → ∀ s : Slot,
          ((ImportSite.ofCell cell file head importParam).edit d).act (head.utf8ByteSize + i) s = s :=
        fun i hi s => by rw [← hbase, act_edit, if_neg (by omega), if_neg (by omega)]
      rw [stretch_congr fun i hi _ => by rw [List.map_cons, actAll_cons, hact i hi],
        ih h3 fun d' hd' => hc d' (by simp [hd'])]
      refine stretch_congr fun i hi _ => ?_
      have hd : d.keeps i := by simp [ImportDecl.keeps, Span.contains, Nat.not_lt.mpr hi]
      rw [List.all_cons, hd, Bool.true_and]

end

/-- Import declarations follow one another in a text of the size, and so do the parts that each of
them copies. -/
structure Script.Module.Ordered (m : Module) (size : Nat) : Prop where
  imports : ascending 0 (m.imports.map (·.span)) size
  copied : ∀ d ∈ m.imports, ascending d.span.start d.copied d.span.stop

section
variable {cell : String} {file : Option String} {head importParam : String} {m : Module}
  {r : AwaitedImports} {draft : Draft} (hm : m.Ordered cell.utf8ByteSize)
  (h : (ImportSite.ofCell cell file head importParam).apply m = .ok (r, draft))
include hm h

theorem source_apply_eq_stretch : draft.source = inserted head ++
    stretch (fun i => actAll (m.imports.map (ImportSite.ofCell cell file head importParam).edit)
      (head.utf8ByteSize + i) ((Draft.ofText (typed cell file)).held i)) 0 cell.utf8ByteSize ++
        inserted wrapperTail := by
  obtain ⟨hr, hd⟩ := ImportSite.apply_eq_ok.mp h
  rw [ImportSite.edits_of_awaited hr] at hd
  rw [← byteSize_inserted head, ← byteSize_typed cell file]
  refine Draft.source_applyAll_inside hd fun e he => ?_
  obtain ⟨d, hd, rfl⟩ := List.mem_map.mp he
  have hb := bounds_of_mem_ascending hm.imports (List.mem_map_of_mem hd)
  have hbase : (ImportSite.ofCell cell file head importParam).base = head.utf8ByteSize := rfl
  simp only [ImportSite.edit, Edit.range, Span.shift, hbase, byteSize_inserted, byteSize_typed]
  omega

/-- With its imports awaited, a cell in its wrapper has lost what its import declarations do not
keep. -/
theorem source_apply_ofCell : ∃ text, draft.source = inserted head ++ text ++ inserted wrapperTail ∧
    typedPart text = typedWhere m.keeps (typed cell file) := by
  refine ⟨_, source_apply_eq_stretch hm h, ?_⟩
  rw [typedPart_stretch, typedWhere_eq_stretch,
    typedPart_actAll_edits cell file head importParam hm.imports hm.copied]
  rfl

end

end NotebookCell
