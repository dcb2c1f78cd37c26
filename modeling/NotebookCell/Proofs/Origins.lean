import NotebookCell.Proofs.Slots
import Mathlib.Data.List.Nodup

/-!
# Origins

The typed characters of a text and where they stood in the cell. An untouched cell holds each of
its characters in the slot of its own offset, so a selection of its characters by offset is a
stretch of some of its slots.
-/

namespace NotebookCell

theorem byteLength_toList (s : String) : byteLength s.toList = s.utf8ByteSize := by
  have h : ∀ cs : List Char, byteLength cs = (String.ofList cs).utf8ByteSize := by
    intro cs
    induction cs with
    | nil => rfl
    | cons c cs ih => simp [String.ofList_cons, String.utf8ByteSize_append, ih]
  rw [h, String.ofList_toList]

namespace TaggedText

def offsets (t : TaggedText) : List Nat := t.filterMap (·.offset)

/-- The typed characters whose offset satisfies the test. -/
def typedWhere (p : Nat → Bool) (t : TaggedText) : TaggedText := t.filter (·.offset.any p)

@[simp] theorem typedPart_nil : typedPart [] = [] := rfl

@[simp] theorem typedPart_append (s t : TaggedText) : typedPart (s ++ t) = s.typedPart ++ t.typedPart :=
  List.filter_append s t

@[simp] theorem typedPart_inserted (text : String) : typedPart (inserted text) = [] := by
  simp [typedPart, inserted, TaggedChar.isInserted]

@[simp] theorem byteSize_inserted (text : String) : byteSize (inserted text) = text.utf8ByteSize := by
  rw [byteSize, chars_inserted, byteLength_toList]

theorem byteSize_typed (cell : String) (file : Option String) :
    byteSize (typed cell file) = cell.utf8ByteSize := by
  rw [byteSize, typed, chars_tagFrom, byteLength_toList]

theorem typedPart_stretch (f : Nat → Slot) (a b : Nat) :
    typedPart (stretch f a b) = stretch (fun i => typedPart (f i)) a b :=
  filter_stretch _

theorem offset_eq_none {ch : TaggedChar} : ch.offset = none ↔ ch.isInserted := by
  simp [TaggedChar.offset, TaggedChar.isInserted]

theorem mem_typedPart {ch : TaggedChar} {t : TaggedText} :
    ch ∈ t.typedPart ↔ ch ∈ t ∧ ∃ off, ch.offset = some off := by
  rw [← Option.ne_none_iff_exists', Ne, offset_eq_none, typedPart, List.mem_filter]
  simp

theorem offsets_typedPart (t : TaggedText) : offsets t.typedPart = offsets t := by
  rw [offsets, typedPart, List.filterMap_filter, offsets]
  congr 1
  funext ch
  cases h : ch.isInserted with
  | true => simp [offset_eq_none.mpr h]
  | false => rfl

theorem offsets_inserted (text : String) : offsets (inserted text) = [] := by
  rw [← offsets_typedPart, typedPart_inserted]
  rfl

theorem mem_offsets_stretch {f : Nat → Slot} {a b off : Nat} :
    off ∈ offsets (stretch f a b) ↔ ∃ i, a ≤ i ∧ i < b ∧ off ∈ offsets (f i) := by
  simp only [offsets, List.mem_filterMap, mem_stretch]
  constructor
  · rintro ⟨ch, ⟨i, ha, hb, hm⟩, ho⟩
    exact ⟨i, ha, hb, ch, hm, ho⟩
  · rintro ⟨i, ha, hb, ch, hm, ho⟩
    exact ⟨ch, ⟨i, ha, hb, hm⟩, ho⟩

theorem typedWhere_typedWhere (p q : Nat → Bool) (t : TaggedText) :
    typedWhere q (typedWhere p t) = typedWhere (fun off => p off && q off) t := by
  rw [typedWhere, typedWhere, List.filter_filter, typedWhere]
  refine List.filter_congr fun ch _ => ?_
  cases ch.offset <;> simp [Bool.and_comm]

theorem offsets_typedWhere_sublist (p : Nat → Bool) (t : TaggedText) :
    (offsets (typedWhere p t)).Sublist (offsets t) :=
  List.filter_sublist.filterMap _

/-! ## The text of a cell -/

theorem tagFrom_append (file : Option String) (k : Nat) (cs ds : List Char) :
    tagFrom file k (cs ++ ds) = tagFrom file k cs ++ tagFrom file (k + byteLength cs) ds := by
  induction cs generalizing k with
  | nil => rfl
  | cons c cs ih => simp [tagFrom, ih, Nat.add_assoc]

theorem exists_of_mem_tagFrom {file : Option String} {k : Nat} {cs : List Char} {ch : TaggedChar}
    (h : ch ∈ tagFrom file k cs) : ∃ before after, cs = before ++ ch.char :: after ∧
      ch.origin = some ⟨k + byteLength before, file⟩ := by
  induction cs generalizing k with
  | nil => cases h
  | cons c cs ih =>
    rcases List.mem_cons.mp h with rfl | h
    · exact ⟨[], cs, rfl, rfl⟩
    · obtain ⟨before, after, rfl, ho⟩ := ih h
      exact ⟨c :: before, after, rfl, by rw [ho, byteLength_cons, Nat.add_assoc]⟩

theorem pairwise_offsets_tagFrom (file : Option String) (k : Nat) (cs : List Char) :
    (offsets (tagFrom file k cs)).Pairwise (· < ·) := by
  induction cs generalizing k with
  | nil => exact .nil
  | cons c cs ih =>
    refine .cons (fun off h => ?_) (ih _)
    obtain ⟨ch, hm, ho⟩ := List.mem_filterMap.mp h
    obtain ⟨before, after, -, ho'⟩ := exists_of_mem_tagFrom hm
    have hpos := c.utf8Size_pos
    rw [TaggedChar.offset, ho'] at ho
    cases ho
    show k < k + c.utf8Size + byteLength before
    omega

theorem held_singleton (c : TaggedChar) (i : Nat) :
    (Draft.ofText [c]).held i = if i = 0 then [c] else [] := by
  rw [Draft.held_ofText]
  cases i with
  | zero => rfl
  | succ i =>
    simp only [Draft.slotsOf, List.append_nil, List.getElem?_cons_succ, List.getElem?_replicate]
    split <;> rfl

theorem offset_of_mem_held {file : Option String} {k : Nat} {cs : List Char} {i : Nat} {ch : TaggedChar}
    (h : ch ∈ (Draft.ofText (tagFrom file k cs)).held i) : ch.offset = some (k + i) := by
  induction cs generalizing k i with
  | nil => simp [tagFrom, Draft.held_ofText, Draft.slotsOf] at h
  | cons c cs ih =>
    have hs : byteSize [⟨c, some ⟨k, file⟩⟩] = c.utf8Size := by simp [byteSize, chars]
    rw [tagFrom, ← List.singleton_append] at h
    by_cases hi : i < c.utf8Size
    · rw [Draft.held_ofText_append_of_lt (by rwa [hs]), held_singleton] at h
      split at h
      · rename_i h0
        rw [List.mem_singleton.mp h, h0]
        rfl
      · cases h
    · obtain ⟨j, rfl⟩ := Nat.exists_eq_add_of_le (Nat.le_of_not_lt hi)
      rw [← hs, Draft.held_ofText_append_add] at h
      rw [ih h, hs, Nat.add_assoc]

/-- Characters that are selected by their offsets fill some of the slots of the cell. -/
theorem typedWhere_eq_stretch (p : Nat → Bool) (cell : String) (file : Option String) :
    typedWhere p (typed cell file) =
      stretch (fun i => if p i then (Draft.ofText (typed cell file)).held i else []) 0
        cell.utf8ByteSize := by
  conv_lhs => rw [← Draft.stretch_ofText (typed cell file)]
  rw [typedWhere, filter_stretch, byteSize_typed]
  refine stretch_congr fun i _ _ => ?_
  have h : ∀ ch ∈ (Draft.ofText (typed cell file)).held i, ch.offset.any p = p i := by
    intro ch hch
    rw [offset_of_mem_held hch, Option.any_some, Nat.zero_add]
  rw [List.filter_congr h]
  cases p i <;> simp

end TaggedText

end NotebookCell
