import NotebookCell.Proofs.CellText
import NotebookCell.Proofs.ImportOrder
import NotebookCell.Proofs.Splicing

/-!
# Offsets behind positions

A fault of the second reading is at a position of a text in which inserted and typed characters
stand side by side. It is reported at the offset of the last typed character that starts at or
before the position. Behind the head of a wrapper that is the character which covers the position,
and behind the cell its last one. With the imports awaited the offsets still grow along the text, so
a later position is never reported at an earlier offset, and never outside of the cell.
-/

namespace NotebookCell

open Script TaggedText

/-! ## Typed characters up to a position -/

namespace TaggedText

/-- The characters with the positions of their first bytes, for a text that begins at a position. -/
def positioned : Nat → TaggedText → List (Nat × TaggedChar)
  | _, [] => []
  | i, c :: t => (i, c) :: positioned (i + c.char.utf8Size) t

/-- The offsets of the typed characters whose first bytes are at or before the position `n`, for a
text that begins at the position `i`. -/
def offsetsUpTo (i n : Nat) (t : TaggedText) : List Nat :=
  ((positioned i t).filter fun x => x.1 ≤ n).filterMap fun x => x.2.offset

/-- The offset of the last typed character whose first byte is at or before the position. -/
def lastOffset? (t : TaggedText) (n : Nat) : Option Nat := (offsetsUpTo 0 n t).getLast?

variable {t u : TaggedText} {i n off : Nat}

theorem offsetsUpTo_cons (c : TaggedChar) (t : TaggedText) (i n : Nat) : offsetsUpTo i n (c :: t) =
    (if i ≤ n then c.offset.toList else []) ++ offsetsUpTo (i + c.char.utf8Size) n t := by
  rw [offsetsUpTo, positioned, List.filter_cons]
  by_cases h : i ≤ n
  · cases hc : c.offset with
    | none => simp [h, hc, offsetsUpTo]
    | some off => simp [h, hc, offsetsUpTo]
  · simp [h, offsetsUpTo]

theorem offsetsUpTo_append (t u : TaggedText) (i n : Nat) :
    offsetsUpTo i n (t ++ u) = offsetsUpTo i n t ++ offsetsUpTo (i + byteSize t) n u := by
  induction t generalizing i with
  | nil => rfl
  | cons c t ih =>
    have hsize : byteSize (c :: t) = c.char.utf8Size + byteSize t := rfl
    rw [List.cons_append, offsetsUpTo_cons, offsetsUpTo_cons, ih, hsize, List.append_assoc,
      Nat.add_assoc]

theorem offsetsUpTo_eq_nil (h : n < i) (t : TaggedText) : offsetsUpTo i n t = [] := by
  induction t generalizing i with
  | nil => rfl
  | cons c t ih => rw [offsetsUpTo_cons, if_neg (by omega), ih (by omega), List.append_nil]

theorem offsetsUpTo_sublist_offsets (i n : Nat) (t : TaggedText) :
    (offsetsUpTo i n t).Sublist (offsets t) := by
  induction t generalizing i with
  | nil => exact List.Sublist.refl _
  | cons c t ih =>
    have hcons : offsets (c :: t) = c.offset.toList ++ offsets t := by
      cases hc : c.offset <;> simp [offsets, hc]
    rw [offsetsUpTo_cons, hcons]
    apply List.Sublist.append _ (ih _)
    split
    · exact List.Sublist.refl _
    · exact List.nil_sublist _

theorem offsetsUpTo_sublist_offsetsUpTo {m : Nat} (h : n ≤ m) (i : Nat) (t : TaggedText) :
    (offsetsUpTo i n t).Sublist (offsetsUpTo i m t) := by
  induction t generalizing i with
  | nil => exact List.Sublist.refl _
  | cons c t ih =>
    rw [offsetsUpTo_cons, offsetsUpTo_cons]
    apply List.Sublist.append _ (ih _)
    by_cases hi : i ≤ n
    · rw [if_pos hi, if_pos (by omega)]
    · rw [if_neg hi]
      exact List.nil_sublist _

/-- A typed character is the last one up to a position which it covers, or which no other typed
character stands before. -/
theorem lastOffset?_append_cons {c : TaggedChar} (hc : c.offset = some off) (hle : t.byteSize ≤ n)
    (hu : n < t.byteSize + c.char.utf8Size ∨ offsets u = []) :
    lastOffset? (t ++ c :: u) n = some off := by
  have hnil : offsetsUpTo (t.byteSize + c.char.utf8Size) n u = [] := by
    rcases hu with hlt | hnil
    · exact offsetsUpTo_eq_nil hlt u
    · exact List.sublist_nil.mp (hnil ▸ offsetsUpTo_sublist_offsets _ n u)
  rw [lastOffset?, offsetsUpTo_append, offsetsUpTo_cons, Nat.zero_add, if_pos hle, hnil, hc]
  simp

theorem lastOffset?_eq_none (h : offsets t = []) (n : Nat) : lastOffset? t n = none := by
  have hnil := List.sublist_nil.mp (h ▸ offsetsUpTo_sublist_offsets 0 n t)
  rw [lastOffset?, hnil]
  rfl

theorem lastOffset?_append_of_lt (h : offsets t = []) (hn : n < t.byteSize) (u : TaggedText) :
    lastOffset? (t ++ u) n = none := by
  have hnil := List.sublist_nil.mp (h ▸ offsetsUpTo_sublist_offsets 0 n t)
  rw [lastOffset?, offsetsUpTo_append, hnil, Nat.zero_add, offsetsUpTo_eq_nil hn]
  rfl

theorem mem_offsets_of_lastOffset? (h : lastOffset? t n = some off) : off ∈ offsets t :=
  (offsetsUpTo_sublist_offsets 0 n t).subset (List.mem_of_getLast? h)

/-- Where the offsets grow along the text, so does the last one up to a position. -/
theorem lastOffset?_mono (ht : (offsets t).Pairwise (· < ·)) {m : Nat} (hnm : n ≤ m)
    (h : lastOffset? t n = some off) : ∃ off', lastOffset? t m = some off' ∧ off ≤ off' := by
  have hmem : off ∈ offsetsUpTo 0 m t :=
    (offsetsUpTo_sublist_offsetsUpTo hnm 0 t).subset (List.mem_of_getLast? h)
  have hsorted := ht.sublist (offsetsUpTo_sublist_offsets 0 m t)
  rw [lastOffset?]
  rcases List.eq_nil_or_concat (offsetsUpTo 0 m t) with hnil | ⟨front, off', hfront⟩
  · rw [hnil] at hmem
    cases hmem
  · rw [List.concat_eq_append] at hfront
    rw [hfront] at hmem hsorted ⊢
    refine ⟨off', by simp, ?_⟩
    rcases List.mem_append.mp hmem with hmem | hmem
    · exact Nat.le_of_lt ((List.pairwise_append.mp hsorted).2.2 off hmem off' (by simp))
    · exact Nat.le_of_eq (List.mem_singleton.mp hmem)

/-! ## Slots -/

theorem filterMap_take_slotsOf (t : TaggedText) (i n : Nat) :
    ((Draft.slotsOf t).take (n + 1)).filterMap firstOffset? = offsetsUpTo i (i + n) t := by
  induction t generalizing i n with
  | nil => rfl
  | cons c t ih =>
    have hpos := c.char.utf8Size_pos
    have hempty : ∀ k, (List.replicate k ([] : Slot)).filterMap firstOffset? = [] := by
      intro k
      rw [List.filterMap_replicate_of_none rfl]
    have hfirst : firstOffset? [c] = c.offset := by
      cases hc : c.offset <;> simp [firstOffset?, hc]
    have hrest : ((Draft.slotsOf t).take (n - (c.char.utf8Size - 1))).filterMap firstOffset? =
        offsetsUpTo (i + c.char.utf8Size) (i + n) t := by
      by_cases hn : c.char.utf8Size ≤ n
      · have := ih (i + c.char.utf8Size) (n - c.char.utf8Size)
        rwa [show n - c.char.utf8Size + 1 = n - (c.char.utf8Size - 1) by omega,
          show i + c.char.utf8Size + (n - c.char.utf8Size) = i + n by omega] at this
      · rw [show n - (c.char.utf8Size - 1) = 0 by omega, offsetsUpTo_eq_nil (by omega)]
        rfl
    rw [Draft.slotsOf, List.take_succ_cons, List.take_append, List.take_replicate,
      List.length_replicate, List.filterMap_cons, hfirst, List.filterMap_append, hempty, hrest,
      offsetsUpTo_cons, if_pos (Nat.le_add_right i n)]
    cases c.offset <;> rfl

end TaggedText

/-- The backward search of a fresh draft finds the last typed character up to the position. -/
theorem Draft.offsetBehind?_ofText (t : TaggedText) (n : Nat) :
    (ofText t).offsetBehind? n = t.lastOffset? (min n (t.byteSize - 1)) := by
  have hslots := filterMap_take_slotsOf t 0 (min n (t.byteSize - 1))
  rw [Nat.zero_add] at hslots
  rw [offsetBehind?, size_ofText, ← List.getLast?_filterMap, lastOffset?, ← hslots, ofText]

/-! ## Characters of a cell -/

/-- The character of the cell whose first byte is at the offset. -/
def CharacterAt (cell : String) (offset : Nat) (c : Char) : Prop :=
  ∃ before after, cell.toList = before ++ c :: after ∧ byteLength before = offset

section
variable {cell : String} {file : Option String} {off : Nat} {c : Char}

theorem CharacterAt.le_size (h : CharacterAt cell off c) : off + c.utf8Size ≤ cell.utf8ByteSize := by
  obtain ⟨before, after, hcell, rfl⟩ := h
  rw [← byteLength_toList, hcell, byteLength_append, byteLength_cons]
  omega

theorem characterAt_of_mem_offsets (h : off ∈ offsets (typed cell file)) :
    ∃ c, CharacterAt cell off c := by
  obtain ⟨ch, hmem, ho⟩ := List.mem_filterMap.mp h
  obtain ⟨before, after, hcell, horigin⟩ := exists_of_mem_tagFrom hmem
  rw [TaggedChar.offset, horigin] at ho
  cases ho
  exact ⟨ch.char, before, after, hcell, by simp⟩

theorem exists_covering {cs : List Char} {n : Nat} (h : n < byteLength cs) : ∃ before c after,
    cs = before ++ c :: after ∧ byteLength before ≤ n ∧ n < byteLength before + c.utf8Size := by
  induction cs generalizing n with
  | nil => exact absurd h (Nat.not_lt_zero n)
  | cons c cs ih =>
    by_cases hn : n < c.utf8Size
    · exact ⟨[], c, cs, rfl, Nat.zero_le n, by simpa using hn⟩
    · rw [byteLength_cons] at h
      obtain ⟨before, d, after, rfl, h1, h2⟩ := ih (n := n - c.utf8Size) (by omega)
      refine ⟨c :: before, d, after, rfl, ?_, ?_⟩
      · rw [byteLength_cons]
        omega
      · rw [byteLength_cons]
        omega

end

/-! ## A cell between two other texts -/

section
variable {head cell tail : String} {file : Option String} {n : Nat}

/-- A character of the cell is found from a position which it covers, and from every position behind
it where it is the last one. -/
theorem lastOffset?_between {off : Nat} {c : Char} (hc : CharacterAt cell off c)
    (hle : head.utf8ByteSize + off ≤ n)
    (hn : n < head.utf8ByteSize + off + c.utf8Size ∨ off + c.utf8Size = cell.utf8ByteSize) :
    lastOffset? (inserted head ++ typed cell file ++ inserted tail) n = some off := by
  obtain ⟨before, after, hcell, rfl⟩ := hc
  have htext : inserted head ++ typed cell file ++ inserted tail =
      (inserted head ++ tagFrom file 0 before) ++ ⟨c, some ⟨byteLength before, file⟩⟩ ::
        (tagFrom file (byteLength before + c.utf8Size) after ++ inserted tail) := by
    rw [typed, hcell, tagFrom_append, tagFrom]
    simp
  have hsize : (inserted head ++ tagFrom file 0 before).byteSize =
      head.utf8ByteSize + byteLength before := by
    rw [byteSize_append, byteSize_inserted, byteSize, chars_tagFrom]
  rw [htext]
  apply lastOffset?_append_cons rfl (by rwa [hsize])
  rw [hsize]
  refine hn.imp id fun hlast => ?_
  -- nothing of the cell is left behind its last character
  have hafter : after = [] := by
    have htotal := byteLength_toList cell
    rw [hcell] at htotal
    simp only [byteLength_append, byteLength_cons] at htotal
    cases after with
    | nil => rfl
    | cons d after =>
      have := d.utf8Size_pos
      rw [byteLength_cons] at htotal
      omega
  rw [hafter]
  exact offsets_inserted tail

theorem offsetBehind?_before_cell (h : n < head.utf8ByteSize) :
    (Draft.ofText (inserted head ++ typed cell file ++ inserted tail)).offsetBehind? n = none := by
  rw [Draft.offsetBehind?_ofText, List.append_assoc]
  apply lastOffset?_append_of_lt (offsets_inserted head)
  rw [byteSize_inserted]
  omega

theorem size_between : (inserted head ++ typed cell file ++ inserted tail).byteSize =
    head.utf8ByteSize + cell.utf8ByteSize + tail.utf8ByteSize := by
  simp [byteSize_typed, Nat.add_assoc]

theorem offsetBehind?_in_cell (h : n < cell.utf8ByteSize) : ∃ off c, CharacterAt cell off c ∧
    off ≤ n ∧ n < off + c.utf8Size ∧
      (Draft.ofText (inserted head ++ typed cell file ++ inserted tail)).offsetBehind?
        (head.utf8ByteSize + n) = some off := by
  obtain ⟨before, c, after, hcell, h1, h2⟩ := exists_covering (by rwa [byteLength_toList])
  refine ⟨_, c, ⟨before, after, hcell, rfl⟩, h1, h2, ?_⟩
  rw [Draft.offsetBehind?_ofText, size_between]
  apply lastOffset?_between ⟨before, after, hcell, rfl⟩
  · omega
  · left
    omega

theorem offsetBehind?_behind_cell (h : head.utf8ByteSize + cell.utf8ByteSize ≤ n)
    (hcell : 0 < cell.utf8ByteSize) : ∃ off c, CharacterAt cell off c ∧
      off + c.utf8Size = cell.utf8ByteSize ∧
        (Draft.ofText (inserted head ++ typed cell file ++ inserted tail)).offsetBehind? n =
          some off := by
  obtain ⟨before, c, hchars⟩ : ∃ before c, cell.toList = before ++ [c] := by
    rcases List.eq_nil_or_concat cell.toList with hnil | ⟨before, c, hconcat⟩
    · rw [← byteLength_toList, hnil] at hcell
      exact absurd hcell (Nat.lt_irrefl 0)
    · exact ⟨before, c, by rw [hconcat, List.concat_eq_append]⟩
  have hc : CharacterAt cell (byteLength before) c := ⟨before, [], hchars, rfl⟩
  have hlast : byteLength before + c.utf8Size = cell.utf8ByteSize := by
    rw [← byteLength_toList, hchars]
    simp
  have hpos := c.utf8Size_pos
  refine ⟨_, c, hc, hlast, ?_⟩
  rw [Draft.offsetBehind?_ofText, size_between]
  exact lastOffset?_between hc (by omega) (.inr hlast)

theorem offsetBehind?_of_empty_cell (h : cell.utf8ByteSize = 0) :
    (Draft.ofText (inserted head ++ typed cell file ++ inserted tail)).offsetBehind? n = none := by
  have hnil : typed cell file = [] := eq_nil_of_byteSize (by rw [byteSize_typed, h])
  rw [Draft.offsetBehind?_ofText, hnil]
  apply lastOffset?_eq_none
  rw [List.append_nil, offsets, List.filterMap_append]
  exact congrArg₂ _ (offsets_inserted head) (offsets_inserted tail)

end

/-! ## A cell with its imports awaited -/

namespace ImportSite

variable {site : ImportSite} {off : Nat}

theorem mem_offsets_excerpt {span : Span} (h : off ∈ offsets (site.excerpt span)) :
    off ∈ offsets site.draft.source := by
  rw [offsets, List.mem_filterMap] at h ⊢
  obtain ⟨ch, hch, ho⟩ := h
  refine ⟨ch, ?_, ho⟩
  rw [excerpt, Draft.slice, Draft.slice?] at hch
  split at hch
  · rw [Option.getD_some, List.mem_flatten] at hch
    obtain ⟨slot, hslot, hch⟩ := hch
    rw [Array.toList_extract] at hslot
    exact List.mem_flatten.mpr ⟨slot, List.mem_of_mem_drop (List.mem_of_mem_take hslot), hch⟩
  · cases hch

theorem mem_offsets_rendering {d : ImportDecl} (h : off ∈ offsets (site.rendering d)) :
    off ∈ offsets site.draft.source := by
  rw [← offsets_typedPart, typedPart_rendering, offsets, List.mem_filterMap] at h
  obtain ⟨ch, hch, ho⟩ := h
  obtain ⟨span, -, hch⟩ := List.mem_flatMap.mp hch
  exact mem_offsets_excerpt (List.mem_filterMap.mpr ⟨ch, (mem_typedPart.mp hch).1, ho⟩)

theorem mem_offsets_actAll {ds : List ImportDecl} {i : Nat} {s : Slot}
    (h : off ∈ offsets (actAll (ds.map site.edit) i s)) :
    off ∈ offsets site.draft.source ∨ off ∈ offsets s := by
  induction ds generalizing s with
  | nil => exact .inr h
  | cons d ds ih =>
    rw [List.map_cons, actAll_cons, edit, Edit.act] at h
    rcases ih h with h | h
    · exact .inl h
    split at h
    · rw [← offsets_typedPart, typedPart_edit_text, offsets_typedPart] at h
      exact .inl (mem_offsets_rendering h)
    split at h
    · cases h
    · exact .inr h

/-- Awaiting the imports brings no character that was not there before. -/
theorem mem_offsets_of_apply {m : Module} {r : AwaitedImports} {draft : Draft}
    (h : site.apply m = .ok (r, draft)) (hoff : off ∈ offsets draft.source) :
    off ∈ offsets site.draft.source := by
  obtain ⟨hr, hd⟩ := apply_eq_ok.mp h
  rw [edits_of_awaited hr] at hd
  obtain ⟨-, hsize, hheld⟩ := Draft.applyAll_eq_ok hd
  rw [Draft.source_eq_stretch, mem_offsets_stretch] at hoff
  obtain ⟨i, h0, hi, hoff⟩ := hoff
  rw [hheld] at hoff
  rcases mem_offsets_actAll hoff with hoff | hoff
  · exact hoff
  · rw [Draft.source_eq_stretch, mem_offsets_stretch]
    exact ⟨i, h0, by omega, hoff⟩

end ImportSite

namespace AwaitingCell

variable {o : Options} {cell : String} {m : Module} {c : AwaitingCell}

theorem characterAt_of_offsetBehind? {n off : Nat} (hc : ofModule o cell m = .ok c)
    (h : c.draft.offsetBehind? n = some off) : ∃ ch, CharacterAt cell off ch := by
  obtain ⟨draft, happly, hdraft, -⟩ := exists_of_ofModule hc
  rw [hdraft, Draft.settle, Draft.offsetBehind?_ofText] at h
  have hmem := ImportSite.mem_offsets_of_apply happly (mem_offsets_of_lastOffset? h)
  rw [ImportSite.ofCell, Draft.source_ofText, cellInWrapper, offsets, List.filterMap_append,
    List.filterMap_append] at hmem
  have hhead := offsets_inserted (wrapperHead c.globalParam c.importParam)
  have htail := offsets_inserted wrapperTail
  rw [offsets] at hhead htail
  rw [head, hhead, htail, List.nil_append, List.append_nil] at hmem
  exact characterAt_of_mem_offsets hmem

/-- The typed characters that are left of the cell are in the order in which they were typed. -/
theorem offsetBehind?_mono {i j off : Nat} (hc : ofModule o cell m = .ok c)
    (hm : m.Ordered cell.utf8ByteSize) (hij : i ≤ j) (h : c.draft.offsetBehind? i = some off) :
    ∃ off', c.draft.offsetBehind? j = some off' ∧ off ≤ off' := by
  obtain ⟨draft, happly, hdraft, -⟩ := exists_of_ofModule hc
  obtain ⟨text, hsource, htyped⟩ := source_apply_ofCell hm happly
  have hsorted : (offsets draft.source).Pairwise (· < ·) := by
    rw [← offsets_typedPart, hsource, typedPart_append, typedPart_append, typedPart_inserted,
      typedPart_inserted, List.nil_append, List.append_nil, htyped]
    exact (pairwise_offsets_tagFrom o.file 0 cell.toList).sublist
      (offsets_typedWhere_sublist m.keeps (typed cell o.file))
  rw [hdraft, Draft.settle, Draft.offsetBehind?_ofText] at h ⊢
  exact lastOffset?_mono hsorted (by omega) h

theorem syntaxFault_of_statements {position : Option Nat} {error : SyntaxError}
    (h : c.statements = .error (.syntaxFault position error)) :
    ∃ n, position = c.draft.offsetBehind? n := by
  rw [statements, readWrapped, bind_eq_error] at h
  rcases h with h | ⟨script, -, h⟩
  · obtain ⟨f, -, hf⟩ := mapError_eq_error.mp h
    cases hf
    exact ⟨f.position, rfl⟩
  · obtain ⟨f, -, hf⟩ := mapError_eq_error.mp h
    cases hf

end AwaitingCell

/-- Behind the first reading, only the second one gives a syntax fault. -/
theorem AsyncCell.statements_of_syntaxFault {o : ValidOptions} {cell : String} {m : Module}
    {c : AwaitingCell} {position : Option Nat} {error : SyntaxError}
    (hm : Module.ofText cell = .ok m) (hc : AwaitingCell.ofModule o.options cell m = .ok c)
    (h : AsyncCell.ofText o cell = .error (.syntaxFault position error)) :
    c.statements = .error (.syntaxFault position error) := by
  have hrest : (do let body ← c.statements; c.publish body) =
      .error (.syntaxFault position error) := by
    simpa only [AsyncCell.ofText, hm, mapError_ok, bind, Except.bind, hc] using h
  rcases bind_eq_error.mp hrest with h | ⟨body, -, h⟩
  · exact h
  rcases bind_eq_error.mp h with h | ⟨draft, -, h⟩
  · obtain ⟨f, -, hf⟩ := mapError_eq_error.mp h
    cases hf
  · cases h

/-- A fresh draft reports a position at the last typed character that starts at or before it: in front
of a cell at none, in it at the one that covers the position, behind it at the last one. With the
imports awaited, what is reported is a character of the cell, and a later one for a later position,
so a syntax fault of the second reading lies in the cell or has no offset. -/
theorem offsetBehind?_exact :
    (∀ (t : TaggedText) (n : Nat),
      (Draft.ofText t).offsetBehind? n = t.lastOffset? (min n (t.byteSize - 1))) ∧
    (∀ (d : Draft) (n : Nat),
      d.settle.offsetBehind? n = d.source.lastOffset? (min n (d.source.byteSize - 1))) ∧
    (∀ (head cell tail : String) (file : Option String) (d : Draft),
      d = .ofText (inserted head ++ typed cell file ++ inserted tail) →
        (∀ n < head.utf8ByteSize, d.offsetBehind? n = none) ∧
        (∀ n < cell.utf8ByteSize, ∃ off ch, CharacterAt cell off ch ∧ off ≤ n ∧ n < off + ch.utf8Size ∧
          d.offsetBehind? (head.utf8ByteSize + n) = some off) ∧
        (∀ n, head.utf8ByteSize + cell.utf8ByteSize ≤ n → 0 < cell.utf8ByteSize →
          ∃ off ch, CharacterAt cell off ch ∧ off + ch.utf8Size = cell.utf8ByteSize ∧
            d.offsetBehind? n = some off) ∧
        (cell.utf8ByteSize = 0 → ∀ n, d.offsetBehind? n = none)) ∧
    (∀ (o : ValidOptions) (cell : String) (m : Module) (c : AwaitingCell),
      Module.ofText cell = .ok m → AwaitingCell.ofModule o.options cell m = .ok c →
        (∀ i j off, i ≤ j → c.draft.offsetBehind? i = some off →
          ∃ off', c.draft.offsetBehind? j = some off' ∧ off ≤ off') ∧
        (∀ n off, c.draft.offsetBehind? n = some off →
          off < cell.utf8ByteSize ∧ ∃ ch, CharacterAt cell off ch) ∧
        (∀ off error, AsyncCell.ofText o cell = .error (.syntaxFault (some off) error) →
          off < cell.utf8ByteSize ∧ ∃ ch, CharacterAt cell off ch)) := by
  refine ⟨Draft.offsetBehind?_ofText, fun d => Draft.offsetBehind?_ofText d.source, ?_, ?_⟩
  · rintro head cell tail file d rfl
    exact ⟨fun n hn => offsetBehind?_before_cell hn, fun n hn => offsetBehind?_in_cell hn,
      fun n hn hcell => offsetBehind?_behind_cell hn hcell,
      fun hcell n => offsetBehind?_of_empty_cell hcell⟩
  · intro o cell m c hm hc
    have hinside : ∀ n off, c.draft.offsetBehind? n = some off →
        off < cell.utf8ByteSize ∧ ∃ ch, CharacterAt cell off ch := by
      intro n off h
      obtain ⟨ch, hch⟩ := AwaitingCell.characterAt_of_offsetBehind? hc h
      have := hch.le_size
      have := ch.utf8Size_pos
      exact ⟨by omega, ch, hch⟩
    have hordered := Module.ordered_of_ofText hm
    refine ⟨fun i j off => AwaitingCell.offsetBehind?_mono hc hordered, hinside, ?_⟩
    intro off error h
    obtain ⟨n, hn⟩ := AwaitingCell.syntaxFault_of_statements
      (AsyncCell.statements_of_syntaxFault hm hc h)
    exact hinside n off hn.symm

/-- The line that begins with `#!` is read as a comment of the module, but no longer behind the head of
the wrapper. -/
def markedCell : String := "#!é\nimport \x7ba\x7d from 'm'\na"

theorem offsetBehind?_markedCell : ∃ m c, Module.ofText markedCell = .ok m ∧
    AwaitingCell.ofModule sampleOptions.options markedCell m = .ok c ∧
    c.draft.offsetBehind? 100 = some 25 ∧
    (∀ n, 100 ≤ n → ∃ off, c.draft.offsetBehind? n = some off ∧ 25 ≤ off) ∧
    AsyncCell.ofText sampleOptions markedCell =
      .error (.syntaxFault (some 1) .identifierExpected) ∧
    1 < markedCell.utf8ByteSize ∧ ∃ ch, CharacterAt markedCell 1 ch := by
  have hread : (Module.ofText markedCell).toOption.any fun m =>
      (AwaitingCell.ofModule sampleOptions.options markedCell m).toOption.any fun c =>
        c.draft.offsetBehind? 100 == some 25 := by
    decide +kernel
  have hfault : AsyncCell.ofText sampleOptions markedCell =
      .error (.syntaxFault (some 1) .identifierExpected) := by
    decide +kernel
  obtain ⟨m, hm, hread⟩ := (Option.any_eq_true _ _).mp hread
  obtain ⟨c, hc, hoff⟩ := (Option.any_eq_true _ _).mp hread
  have hoff := eq_of_beq hoff
  have hm := eq_ok_of_toOption hm
  have hc := eq_ok_of_toOption hc
  obtain ⟨hmono, -, hinside⟩ := offsetBehind?_exact.2.2.2 sampleOptions markedCell m c hm hc
  exact ⟨m, c, hm, hc, hoff, fun n hn => hmono 100 n 25 hn hoff, hfault, hinside 1 _ hfault⟩

end NotebookCell
