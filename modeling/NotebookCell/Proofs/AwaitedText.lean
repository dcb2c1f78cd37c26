import NotebookCell.Proofs.DraftRuns
import NotebookCell.Proofs.ImportOrder
import NotebookCell.Proofs.Refusals
import NotebookCell.Proofs.Splicing

/-!
# The text of awaited imports

Awaiting the imports of a module takes each import declaration out of the text and puts its
rendering there, ended by one semicolon: the one that stands right behind the declaration, or a new
one. The text between the declarations stays as it is, whatever stands before the module.
-/

namespace NotebookCell

open Script TaggedText

/-! ## Pieces of a text -/

/-- The text of a range. -/
def TaggedText.cut (t : TaggedText) (s : Span) : TaggedText :=
  (splitAtByte (s.stop - s.start) (splitAtByte s.start t).2).1

/-- An import declaration with its text and the text behind it, up to the next declaration. -/
structure ImportPiece where
  decl : ImportDecl
  text : TaggedText
  behind : TaggedText

/-- Where the first of the declarations begins, or else the text ends. -/
def firstStart (size : Nat) : List ImportDecl → Nat
  | [] => size
  | d :: _ => d.span.start

def importPieces (t : TaggedText) : List ImportDecl → List ImportPiece
  | [] => []
  | d :: ds =>
    ⟨d, t.cut d.span, t.cut ⟨d.span.stop, firstStart t.byteSize ds⟩⟩ :: importPieces t ds

/-- The semicolon that ends a declaration, and the rest of the text behind it. A declaration
without a semicolon of its own is ended by the one right behind it, if there is one. -/
def terminate (text : TaggedText) : TaggedText → TaggedText × TaggedText
  | [] => (inserted ";", [])
  | c :: behind =>
    if text.chars.getLast? ≠ some ';' ∧ c.char = ';' then ([c], behind)
    else (inserted ";", c :: behind)

def ImportPiece.awaited (importParam : String) (copy : Span → TaggedText) (p : ImportPiece) :
    TaggedText :=
  p.decl.awaited importParam copy ++ (terminate p.text p.behind).1 ++ (terminate p.text p.behind).2

def awaitedText (importParam : String) (t : TaggedText) (ds : List ImportDecl) : TaggedText :=
  t.cut ⟨0, firstStart t.byteSize ds⟩ ++ (importPieces t ds).flatMap (·.awaited importParam t.cut)

theorem chars_terminate (text behind : TaggedText) : (terminate text behind).1.chars = [';'] := by
  cases behind with
  | nil => rfl
  | cons c behind =>
    rw [terminate]
    split
    · rename_i h
      simp [chars, h.2]
    · rfl

/-- The declaration and what it copies go from character to character of the text, and what it
copies is inside of it. It does not begin with a semicolon. -/
structure Script.ImportDecl.StandsIn (d : ImportDecl) (t : TaggedText) : Prop where
  copied : ∀ s ∈ d.copied, d.span.start ≤ s.start ∧ s.start ≤ s.stop ∧ s.stop ≤ d.span.stop
  boundaries : ∀ s ∈ d.span :: d.copied, t.HasBoundary s.start ∧ t.HasBoundary s.stop
  begins : (t.cut d.span).chars.head? ≠ some ';'

/-- The import declarations stand in the text one after the other. -/
structure Script.Module.ImportsStandIn (m : Module) (t : TaggedText) : Prop where
  inOrder : ascending 0 (m.imports.map (·.span)) t.byteSize
  each : ∀ d ∈ m.imports, d.StandsIn t

/-! ## Cutting -/

section
variable {t : TaggedText}

theorem hasBoundary_zero (t : TaggedText) : t.HasBoundary 0 := ⟨[], t, rfl, rfl⟩

theorem hasBoundary_byteSize (t : TaggedText) : t.HasBoundary t.byteSize :=
  ⟨t, [], (List.append_nil t).symm, rfl⟩

@[simp] theorem byteSize_nil : byteSize [] = 0 := rfl

theorem cut_append (s u v : TaggedText) :
    (s ++ u ++ v).cut ⟨s.byteSize, s.byteSize + u.byteSize⟩ = u := by
  rw [cut, List.append_assoc, splitAtByte_append, Nat.add_sub_cancel_left, splitAtByte_append]

/-- Two boundaries cut a text in three. -/
theorem exists_cut {a b : Nat} (ha : t.HasBoundary a) (hb : t.HasBoundary b) (hab : a ≤ b) :
    ∃ s u v : TaggedText, t = s ++ u ++ v ∧ s.byteSize = a ∧ s.byteSize + u.byteSize = b := by
  obtain ⟨s, rest, rfl, rfl⟩ := ha
  obtain ⟨u, v, rfl, rfl⟩ := exists_of_hasBoundary hb hab
  exact ⟨s, u, v, (List.append_assoc ..).symm, rfl, rfl⟩

theorem stretch_eq_cut {a b : Nat} (ha : t.HasBoundary a) (hb : t.HasBoundary b) (hab : a ≤ b) :
    stretch (Draft.ofText t).held a b = t.cut ⟨a, b⟩ := by
  obtain ⟨s, u, v, rfl, rfl, rfl⟩ := exists_cut ha hb hab
  rw [stretch_ofText_piece, cut_append]

/-- At a boundary stands the character that the text goes on with from there. -/
theorem slot?_of_hasBoundary {a : Nat} (ha : t.HasBoundary a) :
    (Draft.ofText t).slot? a = (splitAtByte a t).2.head?.map ([·]) := by
  obtain ⟨s, rest, rfl, rfl⟩ := ha
  rw [splitAtByte_append]
  cases rest with
  | nil =>
    rw [List.append_nil, List.head?_nil, Option.map_none, Draft.slot?, Array.getElem?_eq_none]
    exact Nat.le_of_eq (Draft.size_ofText s)
  | cons c rest => exact (Draft.laysOut_ofText _ s c rest rfl).1

theorem head?_splitAtByte {a b : Nat} (ha : t.HasBoundary a) (hb : t.HasBoundary b) (hab : a < b) :
    (splitAtByte a t).2.head? = (t.cut ⟨a, b⟩).head? := by
  obtain ⟨s, u, v, rfl, rfl, hu⟩ := exists_cut ha hb (Nat.le_of_lt hab)
  rw [← hu, cut_append, List.append_assoc, splitAtByte_append]
  cases u with
  | nil =>
    rw [byteSize_nil] at hu
    omega
  | cons c u => rfl

end

/-! ## Modules read from a text -/

section
variable {t : TaggedText}

theorem exists_of_reaches {n : Nat} {cs : List Char} (h : Reaches t.chars n cs) :
    ∃ s u : TaggedText, t = s ++ u ∧ s.byteSize = n ∧ u.chars = cs := by
  obtain ⟨before, hbefore⟩ := h.suffix
  obtain ⟨s, u, rfl, hs, hu⟩ := List.map_eq_append_iff.mp hbefore.symm
  refine ⟨s, u, rfl, ?_, hu⟩
  have htotal := h.total
  rw [← hbefore, byteLength_append, ← hs] at htotal
  exact (Nat.add_right_cancel htotal).symm

/-- The import declarations of a module stand in the text that it was read from. -/
theorem Script.Module.importsStandIn_of_ofText {m : Module} (h : Module.ofText t.text = .ok m) :
    m.ImportsStandIn t := by
  have hbetween := importsBetween_of_ofText h
  have hbyteSize : t.text.utf8ByteSize = t.byteSize := by
    rw [← byteLength_toList, TaggedText.text, String.toList_ofList, byteSize]
  rw [hbyteSize, TaggedText.text, String.toList_ofList] at hbetween
  have hboundary : ∀ n, IsBoundary t.chars n → t.HasBoundary n := by
    rintro n ⟨cs, hcs⟩
    obtain ⟨s, u, htext, hs, -⟩ := exists_of_reaches hcs
    exact ⟨s, u, htext, hs⟩
  refine ⟨hbetween.imports.ascending, fun d hd => ?_⟩
  have hspelled := hbetween.each d hd
  have hspan : d.span ∈ m.imports.map (·.span) := List.mem_map_of_mem hd
  have hbounds := bounds_of_mem_ascending hbetween.imports.ascending hspan
  have hspan := (hbetween.imports.boundaries d.span hspan).imp (hboundary _) (hboundary _)
  constructor
  case copied =>
    intro s hs
    have hb := bounds_of_mem_ascending hspelled.copied.ascending hs
    exact ⟨hb.1, Nat.le_of_lt hb.2.1, hb.2.2⟩
  case boundaries =>
    intro s hs
    rcases List.mem_cons.mp hs with rfl | hs
    · exact hspan
    · exact (hspelled.copied.boundaries s hs).imp (hboundary _) (hboundary _)
  case begins =>
    obtain ⟨cs, hcs, hne⟩ := hspelled.keyword
    obtain ⟨s, u, htext, hs, rfl⟩ := exists_of_reaches hcs
    have hhead := head?_splitAtByte hspan.1 hspan.2 hbounds.2.1
    rw [← hs, htext, splitAtByte_append, ← htext, hs] at hhead
    rwa [chars, List.head?_map, ← hhead, ← List.head?_map]

end

/-! ## Declarations in a text -/

/-- The imports of a module that stands behind `pre`. -/
def ImportSite.behind (pre t : TaggedText) (importParam : String) : ImportSite :=
  ⟨.ofText (pre ++ t), pre.byteSize, importParam⟩

section
variable {pre t : TaggedText} {importParam : String} {d : ImportDecl}

theorem size_behind : (ImportSite.behind pre t importParam).draft.size = pre.byteSize + t.byteSize := by
  rw [ImportSite.behind, Draft.size_ofText, byteSize_append]

theorem excerpt_behind {s : Span} (ha : t.HasBoundary s.start) (hb : t.HasBoundary s.stop)
    (hs : s.start ≤ s.stop) : (ImportSite.behind pre t importParam).excerpt s = t.cut s := by
  have hstop := byteSize_le_of_hasBoundary hb
  rw [ImportSite.excerpt, Draft.slice_eq_stretch (Nat.add_le_add_right hs _)]
  · simp only [Span.shift, ImportSite.behind, Nat.add_comm _ pre.byteSize]
    rw [Draft.stretch_ofText_add, stretch_eq_cut ha hb hs]
  · rw [size_behind, Nat.add_comm pre.byteSize]
    exact Nat.add_le_add_right hstop _

theorem slot?_behind (i : Nat) : (ImportSite.behind pre t importParam).draft.slot? (i + pre.byteSize) =
    (Draft.ofText t).slot? i := by
  ext s
  rw [Draft.slot?_eq_some_iff, Draft.slot?_eq_some_iff, size_behind, Draft.size_ofText,
    ImportSite.behind, Nat.add_comm i, Draft.held_ofText_append_add, Nat.add_lt_add_iff_left]

theorem text_eq_semicolon_iff {c : TaggedChar} : TaggedText.text [c] = ";" ↔ c.char = ';' := by
  rw [TaggedText.text, ← String.toList_inj, String.toList_ofList]
  simp [chars]

theorem excerpt_copied_behind (hd : d.StandsIn t) : ∀ s ∈ d.copied,
    (ImportSite.behind pre t importParam).excerpt s = t.cut s := by
  intro s hs
  obtain ⟨ha, hb⟩ := hd.boundaries s (List.mem_cons_of_mem _ hs)
  exact excerpt_behind ha hb (hd.copied s hs).2.1

theorem endedOutside_behind (hd : d.StandsIn t) (hspan : d.span.start ≤ d.span.stop) :
    (ImportSite.behind pre t importParam).endedOutside d ↔ (t.cut d.span).chars.getLast? ≠ some ';' ∧
      ∃ c, (splitAtByte d.span.stop t).2.head? = some c ∧ c.char = ';' := by
  obtain ⟨ha, hb⟩ := hd.boundaries d.span (by simp)
  have hexcerpt := @excerpt_behind pre t importParam d.span ha hb hspan
  have hslot := @slot?_behind pre t importParam d.span.stop
  rw [slot?_of_hasBoundary hb] at hslot
  unfold ImportSite.excerpt at hexcerpt
  have hstop : (d.span.shift (ImportSite.behind pre t importParam).base).stop =
      d.span.stop + pre.byteSize := rfl
  simp only [ImportSite.endedOutside, hexcerpt, hstop, hslot, Bool.and_eq_true, Bool.not_eq_true',
    beq_eq_false_iff_ne, Option.any_map, Option.any_eq_true, beq_iff_eq,
    text_eq_semicolon_iff]

theorem firstStart_bounds {ds : List ImportDecl} {lo : Nat}
    (h : ascending lo (ds.map (·.span)) t.byteSize) (hds : ∀ d ∈ ds, d.StandsIn t) :
    lo ≤ firstStart t.byteSize ds ∧ t.HasBoundary (firstStart t.byteSize ds) := by
  cases ds with
  | nil => exact ⟨le_of_ascending h, hasBoundary_byteSize t⟩
  | cons d ds =>
    obtain ⟨h1, -, -⟩ := ascending_cons.mp h
    exact ⟨h1, ((hds d (by simp)).boundaries d.span (by simp)).1⟩

/-- A semicolon that stands at a position stands in the text between it and the next declaration. -/
theorem semicolon_iff {ds : List ImportDecl} {lo : Nat} (hlo : t.HasBoundary lo)
    (h : ascending lo (ds.map (·.span)) t.byteSize) (hds : ∀ d ∈ ds, d.StandsIn t) :
    (∃ c, (splitAtByte lo t).2.head? = some c ∧ c.char = ';') ↔
      ∃ c rest, t.cut ⟨lo, firstStart t.byteSize ds⟩ = c :: rest ∧ c.char = ';' := by
  obtain ⟨hle, hnext⟩ := firstStart_bounds h hds
  rcases Nat.lt_or_eq_of_le hle with hlt | heq
  · rw [head?_splitAtByte hlo hnext hlt]
    simp only [List.head?_eq_some_iff]
    constructor
    · rintro ⟨c, ⟨rest, hrest⟩, hc⟩
      exact ⟨c, rest, hrest, hc⟩
    · rintro ⟨c, rest, hrest, hc⟩
      exact ⟨c, ⟨rest, hrest⟩, hc⟩
  · have hempty : t.cut ⟨lo, firstStart t.byteSize ds⟩ = [] := by
      obtain ⟨s, u, v, rfl, rfl, hu⟩ := exists_cut hlo hnext hle
      rw [← hu, cut_append]
      exact eq_nil_of_byteSize (by omega)
    have hnone : ¬∃ c, (splitAtByte lo t).2.head? = some c ∧ c.char = ';' := by
      rintro ⟨c, hc, hsemicolon⟩
      cases ds with
      | nil =>
        have hall := splitAtByte_append t []
        rw [List.append_nil, show t.byteSize = lo from heq.symm] at hall
        simp [hall] at hc
      | cons d ds =>
        obtain ⟨-, hlt, -⟩ := ascending_cons.mp h
        have hd := hds d (by simp)
        obtain ⟨ha, hb⟩ := hd.boundaries d.span (by simp)
        have hlo : lo = d.span.start := heq
        rw [hlo, head?_splitAtByte ha hb hlt] at hc
        apply hd.begins
        rw [chars, List.head?_map, hc, Option.map_some, hsemicolon]
    simp [hempty, hnone]

/-- Behind the rendering of a declaration stands one semicolon and then the rest of the text up to
the next declaration. -/
theorem rendering_terminated {ds : List ImportDecl} {lo : Nat}
    (h : ascending lo ((d :: ds).map (·.span)) t.byteSize) (hds : ∀ d' ∈ d :: ds, d'.StandsIn t) :
    ((ImportSite.behind pre t importParam).rendering d ++
        if (ImportSite.behind pre t importParam).endedOutside d then [] else inserted ";") ++
      t.cut ⟨d.span.stop, firstStart t.byteSize ds⟩ =
    ImportPiece.awaited importParam t.cut
      ⟨d, t.cut d.span, t.cut ⟨d.span.stop, firstStart t.byteSize ds⟩⟩ := by
  obtain ⟨-, hlt, hrest⟩ := ascending_cons.mp h
  have hd := hds d (by simp)
  obtain ⟨-, hstop⟩ := hd.boundaries d.span (by simp)
  have hrendering :
      (ImportSite.behind pre t importParam).rendering d = d.awaited importParam t.cut := by
    rw [ImportSite.rendering_eq]
    exact ImportDecl.awaited_congr (excerpt_copied_behind hd) importParam
  have hended := @endedOutside_behind pre t importParam d hd (Nat.le_of_lt hlt)
  rw [semicolon_iff hstop hrest fun d' hd' => hds d' (by simp [hd'])] at hended
  rw [ImportPiece.awaited, hrendering]
  cases hbehind : t.cut ⟨d.span.stop, firstStart t.byteSize ds⟩ with
  | nil =>
    rw [if_neg (by simp [hended, hbehind])]
    rfl
  | cons c behind =>
    have hended : (ImportSite.behind pre t importParam).endedOutside d ↔
        (t.cut d.span).chars.getLast? ≠ some ';' ∧ c.char = ';' := by
      rw [hended, hbehind]
      simp
    by_cases hsemicolon : (t.cut d.span).chars.getLast? ≠ some ';' ∧ c.char = ';'
    · simp [terminate, hended.mpr hsemicolon, hsemicolon]
    · simp [terminate, mt hended.mp hsemicolon, hsemicolon]

end

/-! ## All declarations -/

section
variable {pre t : TaggedText} {importParam : String}

/-- Behind a position, the declarations there are exchanged and the text between them is left. -/
theorem stretch_awaited {ds : List ImportDecl} {lo : Nat} (hlo : t.HasBoundary lo)
    (h : ascending lo (ds.map (·.span)) t.byteSize) (hds : ∀ d ∈ ds, d.StandsIn t) :
    stretch (fun i => actAll (ds.map (ImportSite.behind pre t importParam).edit) (pre.byteSize + i)
        ((Draft.ofText t).held i)) lo t.byteSize =
      t.cut ⟨lo, firstStart t.byteSize ds⟩ ++
        (importPieces t ds).flatMap (·.awaited importParam t.cut) := by
  induction ds generalizing lo with
  | nil =>
    simp only [List.map_nil, actAll_nil, importPieces, List.flatMap_nil, List.append_nil, firstStart]
    exact stretch_eq_cut hlo (hasBoundary_byteSize t) (le_of_ascending h)
  | cons d ds ih =>
    obtain ⟨h1, h2, h3⟩ : lo ≤ d.span.start ∧ d.span.start < d.span.stop ∧ _ := ascending_cons.mp h
    obtain ⟨hstart, hstop⟩ := (hds d (by simp)).boundaries d.span (by simp)
    have hle := le_of_ascending h3
    have hbase : (ImportSite.behind pre t importParam).base = pre.byteSize := rfl
    have hall : ascending d.span.start ((d :: ds).map (·.span)) t.byteSize :=
      ascending_cons.mpr ⟨Nat.le_refl _, h2, h3⟩
    have hbefore : stretch (fun i => actAll ((d :: ds).map (ImportSite.behind pre t importParam).edit)
        (pre.byteSize + i) ((Draft.ofText t).held i)) lo d.span.start = t.cut ⟨lo, d.span.start⟩ := by
      rw [← stretch_eq_cut hlo hstart h1]
      refine stretch_congr fun i _ hi => ?_
      rw [← hbase, actAll_edits_of_lt hall hi]
    have hinside : stretch (fun i => actAll ((d :: ds).map (ImportSite.behind pre t importParam).edit)
        (pre.byteSize + i) ((Draft.ofText t).held i)) d.span.start d.span.stop =
          (ImportSite.behind pre t importParam).rendering d ++
            if (ImportSite.behind pre t importParam).endedOutside d then [] else inserted ";" := by
      rw [stretch_eq_first h2]
      · rw [List.map_cons, actAll_cons, ← hbase, actAll_edits_of_lt h3 h2, act_edit, if_pos rfl]
      · intro i hi hi'
        rw [List.map_cons, actAll_cons, ← hbase, actAll_edits_of_lt h3 hi', act_edit, if_neg (by omega),
          if_pos ⟨hi, hi'⟩]
    have hbehind : stretch (fun i => actAll ((d :: ds).map (ImportSite.behind pre t importParam).edit)
        (pre.byteSize + i) ((Draft.ofText t).held i)) d.span.stop t.byteSize =
          t.cut ⟨d.span.stop, firstStart t.byteSize ds⟩ ++
            (importPieces t ds).flatMap (·.awaited importParam t.cut) := by
      rw [← ih hstop h3 fun d' hd' => hds d' (by simp [hd'])]
      refine stretch_congr fun i hi _ => ?_
      rw [List.map_cons, actAll_cons, ← hbase, act_edit, if_neg (by omega), if_neg (by omega)]
    rw [← stretch_append h1 (by omega), ← stretch_append (Nat.le_of_lt h2) hle, hbefore, hinside,
      hbehind, ← List.append_assoc _ (t.cut _), rendering_terminated h hds]
    rfl

/-- The pieces of a text are the whole of it. -/
theorem cut_append_pieces {ds : List ImportDecl} {lo : Nat} (hlo : t.HasBoundary lo)
    (h : ascending lo (ds.map (·.span)) t.byteSize) (hds : ∀ d ∈ ds, d.StandsIn t) :
    t.cut ⟨lo, firstStart t.byteSize ds⟩ ++ (importPieces t ds).flatMap (fun p => p.text ++ p.behind) =
      t.cut ⟨lo, t.byteSize⟩ := by
  induction ds generalizing lo with
  | nil => simp [importPieces, firstStart]
  | cons d ds ih =>
    obtain ⟨h1, h2, h3⟩ : lo ≤ d.span.start ∧ d.span.start < d.span.stop ∧ _ := ascending_cons.mp h
    obtain ⟨hstart, hstop⟩ := (hds d (by simp)).boundaries d.span (by simp)
    have hle := le_of_ascending h3
    have hend := hasBoundary_byteSize t
    rw [importPieces, List.flatMap_cons, List.append_assoc,
      ih hstop h3 fun d' hd' => hds d' (by simp [hd']), firstStart,
      ← stretch_eq_cut hlo hstart h1, ← stretch_eq_cut hstart hstop (Nat.le_of_lt h2),
      ← stretch_eq_cut hstop hend hle, ← stretch_eq_cut hlo hend (by omega),
      stretch_append (Nat.le_of_lt h2) hle, stretch_append h1 (by omega)]

end

/-! ## Modules -/

section
variable {m : Module} {pre t : TaggedText} (hm : m.ImportsStandIn t) (importParam : String)
include hm

theorem exists_applyAll_behind : ∃ draft, (ImportSite.behind pre t importParam).draft.applyAll
    (m.imports.map (ImportSite.behind pre t importParam).edit) = .ok draft ∧
      draft.source = pre ++ awaitedText importParam t m.imports := by
  have hedits : ∀ e ∈ m.imports.map (ImportSite.behind pre t importParam).edit,
      pre.byteSize ≤ e.range.start ∧ e.range.start < e.range.stop ∧
        e.range.stop ≤ pre.byteSize + t.byteSize := by
    intro e he
    obtain ⟨d, hd, rfl⟩ := List.mem_map.mp he
    have hb := bounds_of_mem_ascending hm.inOrder (List.mem_map_of_mem hd)
    have hbase : (ImportSite.behind pre t importParam).base = pre.byteSize := rfl
    simp only [ImportSite.edit, Edit.range, Span.shift, hbase]
    omega
  have hfit : ∀ e ∈ m.imports.map (ImportSite.behind pre t importParam).edit,
      e.range.start < e.range.stop ∧ e.range.stop ≤ (ImportSite.behind pre t importParam).draft.size := by
    intro e he
    rw [size_behind]
    exact (hedits e he).2
  obtain ⟨draft, hdraft⟩ := Draft.exists_applyAll_eq_ok hfit
  refine ⟨draft, hdraft, ?_⟩
  have hofText : (ImportSite.behind pre t importParam).draft = .ofText (pre ++ t ++ []) := by
    rw [List.append_nil]
    rfl
  rw [hofText] at hdraft
  rw [Draft.source_applyAll_inside hdraft hedits, List.append_nil, awaitedText,
    stretch_awaited (hasBoundary_zero t) hm.inOrder hm.each]

theorem bindings_behind : m.imports.flatMap (·.bindings (ImportSite.behind pre t importParam).excerpt) =
    m.imports.flatMap (·.bindings t.cut) :=
  List.flatMap_congr fun d hd => ImportDecl.bindings_congr (excerpt_copied_behind (hm.each d hd))

theorem effects_behind : m.imports.flatMap (·.effects (ImportSite.behind pre t importParam).excerpt) =
    m.imports.flatMap (·.effects t.cut) :=
  List.flatMap_congr fun d hd => ImportDecl.effects_congr (excerpt_copied_behind (hm.each d hd))

end

theorem ImportSite.rows_of_awaited {site : ImportSite} {m : Module} {r : AwaitedImports}
    (h : site.awaited m = .ok r) : r.rows = m.imports.flatMap (·.bindings site.excerpt) ∧
      r.effects = m.imports.flatMap (·.effects site.excerpt) := by
  have heffects : ∀ ds : List ImportDecl, (ds.filter (·.specifiers.isEmpty)).map
      (fun d => (site.excerpt d.source).text) = ds.flatMap (·.effects site.excerpt) := by
    intro ds
    induction ds with
    | nil => rfl
    | cons d ds ih =>
      rw [List.flatMap_cons, ← ih, ImportDecl.effects]
      cases hd : d.specifiers.isEmpty <;> simp [hd]
  unfold ImportSite.awaited at h
  split at h
  · cases h
  · cases h
    simp only [heffects, ImportSite.map_row_eq, and_self]

/-- What comes of awaiting the imports of a module that stands behind `pre` in a text: the edits and
the rows that were read at once, the draft, and what work in turn makes of the text and a summary. -/
structure ImportsAwaited (pre t : TaggedText) (importParam : String) (m : Module) (summary : Summary)
    (r : AwaitedImports) (draft : Draft) : Prop where
  atOnce : (ImportSite.behind pre t importParam).apply m = .ok (r, draft)
  inTurn : (ImportWork.mk (.ofText (pre ++ t)) summary).awaitImports pre.byteSize importParam m =
    (.ok r.count, ⟨draft, { summary with
      imports := summary.imports ++ r.rows, effects := summary.effects ++ r.effects }⟩)
  source_eq : draft.source = pre ++ awaitedText importParam t m.imports
  count_eq : r.count = m.imports.length
  rows_eq : r.rows = m.imports.flatMap (·.bindings t.cut)
  effects_eq : r.effects = m.imports.flatMap (·.effects t.cut)
  /-- Nothing of the text is in none of its pieces. -/
  pieces_eq : t.cut ⟨0, firstStart t.byteSize m.imports⟩ ++
    (importPieces t m.imports).flatMap (fun p => p.text ++ p.behind) = t
  ended : ∀ p ∈ importPieces t m.imports, (terminate p.text p.behind).1.chars = [';']

theorem exists_importsAwaited_of_importsStandIn {m : Module} {t : TaggedText}
    (hm : m.ImportsStandIn t) (hexport : ∀ item ∈ m.items, ¬item.IsExport)
    (hmeta : ∀ n, ¬m.HasImportMeta n) (pre : TaggedText) (importParam : String) (summary : Summary) :
    ∃ r draft, ImportsAwaited pre t importParam m summary r draft := by
  have hu := unsupported?_eq_none_iff.mpr ⟨hexport, hmeta⟩
  obtain ⟨draft, hdraft, hsource⟩ := @exists_applyAll_behind m pre t hm importParam
  obtain ⟨r, hr⟩ : ∃ r, (ImportSite.behind pre t importParam).awaited m = .ok r := by
    rw [ImportSite.awaited, hu]
    exact ⟨_, rfl⟩
  have hedits := ImportSite.edits_of_awaited hr
  obtain ⟨hrows, heffects⟩ := ImportSite.rows_of_awaited hr
  have hinTurn := @ImportWork.exchangeAll_eq pre.byteSize importParam (.ofText (pre ++ t)) m.imports 0
    t.byteSize 0 ⟨.ofText (pre ++ t), summary⟩ ⟨rfl, fun _ _ => rfl⟩ hm.inOrder
    (fun d hd s hs => ((hm.each d hd).copied s hs).1) draft hdraft
  have hwhole : t.cut ⟨0, t.byteSize⟩ = t := by
    rw [← stretch_eq_cut (hasBoundary_zero t) (hasBoundary_byteSize t) (Nat.zero_le _),
      Draft.stretch_ofText]
  refine ⟨r, draft, ?_⟩
  constructor
  case atOnce => exact ImportSite.apply_eq_ok.mpr ⟨hr, hedits ▸ hdraft⟩
  case inTurn =>
    rw [ImportWork.awaitImports, hu, hrows, heffects, AwaitedImports.count, hedits, List.length_map]
    rw [Nat.zero_add] at hinTurn
    exact hinTurn
  case source_eq => exact hsource
  case count_eq => rw [AwaitedImports.count, hedits, List.length_map]
  case rows_eq => rw [hrows, bindings_behind hm]
  case effects_eq => rw [heffects, effects_behind hm]
  case pieces_eq => rw [cut_append_pieces (hasBoundary_zero t) hm.inOrder hm.each, hwhole]
  case ended => exact fun p _ => chars_terminate p.text p.behind

/-- Awaiting the imports of a module without export declarations and `import.meta` never fails, and
the text that it gives is the text in which each import declaration is exchanged for its
rendering. -/
theorem exists_importsAwaited {m : Module} {t : TaggedText} (hm : Module.ofText t.text = .ok m)
    (hexport : ∀ item ∈ m.items, ¬item.IsExport) (hmeta : ∀ n, ¬m.HasImportMeta n)
    (pre : TaggedText) (importParam : String) (summary : Summary) :
    ∃ r draft, ImportsAwaited pre t importParam m summary r draft :=
  exists_importsAwaited_of_importsStandIn (Module.importsStandIn_of_ofText hm) hexport hmeta pre
    importParam summary

/-- Declarations side by side, the first with a semicolon of its own behind a comment, the last at
the end of the text without one. -/
def importingCell : TaggedText :=
  typed "import é, \x7b'a-b' as c\x7d from 'm'/**/;import * as n from 'n' with \x7bk: 'v'\x7d\nimport 'o'"
    none

theorem importsAwaited_importingCell : ∃ m r draft,
    (Module.ofText importingCell.text = .ok m ∧ (∀ item ∈ m.items, ¬item.IsExport) ∧
      ∀ n, ¬m.HasImportMeta n) ∧
    ImportsAwaited (inserted "\x7b") importingCell "I" m ⟨[], [], []⟩ r draft ∧
    (awaitedText "I" importingCell m.imports).text =
      "var \x7b_:\x7bdefault:é\x7d, _:\x7b'a-b':c\x7d\x7d = \x7b_: await I('m')\x7d;" ++
      "var \x7b_:n\x7d = \x7b_: await I('n', \x7b with: \x7bk: 'v'\x7d \x7d)\x7d;" ++
      "\nawait I('o');" := by
  have hread : (Module.ofText importingCell.text).toOption.any fun m => unsupported? m = none ∧
      (awaitedText "I" importingCell m.imports).text =
        "var \x7b_:\x7bdefault:é\x7d, _:\x7b'a-b':c\x7d\x7d = \x7b_: await I('m')\x7d;" ++
        "var \x7b_:n\x7d = \x7b_: await I('n', \x7b with: \x7bk: 'v'\x7d \x7d)\x7d;" ++
        "\nawait I('o');" := by
    decide +kernel
  obtain ⟨m, hm, hread⟩ := (Option.any_eq_true _ _).mp hread
  obtain ⟨hu, htext⟩ := of_decide_eq_true hread
  have hm := eq_ok_of_toOption hm
  obtain ⟨hexport, hmeta⟩ := unsupported?_eq_none_iff.mp hu
  obtain ⟨r, draft, h⟩ := exists_importsAwaited hm hexport hmeta (inserted "\x7b") "I" ⟨[], [], []⟩
  exact ⟨m, r, draft, ⟨hm, hexport, hmeta⟩, h, htext⟩

end NotebookCell
