import NotebookCell.Text.Tagged

/-!
# Drafts: text under position-stable edits

A `Draft` holds one slot per byte of the text that it was made from. The slot at the first byte of
a character starts with that character, the slots of its other bytes start empty. An edit changes
the contents of slots and never their number, so the positions that one reading of the text gave
stay right while its edits are applied. `settle` makes the edited text the new base.
-/

namespace NotebookCell

/-- What stands in the place of one byte. -/
abbrev Slot := TaggedText

namespace Slot

def prepend (text : TaggedText) (s : Slot) : Slot := text ++ s

def append (text : TaggedText) (s : Slot) : Slot := s ++ text

end Slot

inductive Edit where
  /-- The range is exchanged for the text. -/
  | replace (range : Span) (text : TaggedText)
  /-- The text goes before the first byte of the range. -/
  | prepend (range : Span) (text : TaggedText)
  /-- The text goes after the last byte of the range. -/
  | append (range : Span) (text : TaggedText)
  deriving DecidableEq, Repr

def Edit.range : Edit → Span
  | .replace range _ => range
  | .prepend range _ => range
  | .append range _ => range

inductive EditFault where
  | outside (range : Span) (size : Nat)
  | emptyAppend (range : Span)
  deriving DecidableEq, Repr

def EditFault.message : EditFault → String
  | .outside range size =>
    "edit range " ++ toString range.start ++ ".." ++ toString range.stop ++
      " outside index of length " ++ toString size
  | .emptyAppend range =>
    "append needs a non-empty range, got " ++ toString range.start ++ ".." ++ toString range.stop

structure Draft where
  slots : Array Slot
  deriving DecidableEq, Repr

namespace Draft

/-- One slot for each byte of the text. -/
def slotsOf : TaggedText → List Slot
  | [] => []
  | c :: cs => [c] :: (List.replicate (c.char.utf8Size - 1) [] ++ slotsOf cs)

def ofText (t : TaggedText) : Draft := ⟨(slotsOf t).toArray⟩

def empty : Draft := ⟨#[]⟩

def size (d : Draft) : Nat := d.slots.size

def source (d : Draft) : TaggedText := d.slots.toList.flatten

def text (d : Draft) : String := d.source.text

/-- The contents of the slots of a range, or `none` if the range leaves the draft. -/
def slice? (d : Draft) (range : Span) : Option TaggedText :=
  if range.start ≤ range.stop ∧ range.stop ≤ d.size then
    some (d.slots.extract range.start range.stop).toList.flatten
  else none

def slice (d : Draft) (range : Span) : TaggedText := (d.slice? range).getD []

def slot? (d : Draft) (i : Nat) : Option Slot := d.slots[i]?

/-- An edit needs a range that lies in the draft and starts before its end. -/
def admits (d : Draft) (range : Span) : Bool :=
  range.start ≤ range.stop && range.stop ≤ d.size && range.start < d.size

/-- The draft in which the first slot of the range holds the text and its other slots are empty. -/
def overwrite (d : Draft) (range : Span) (text : TaggedText) : Draft :=
  ⟨d.slots.mapIdx fun i s =>
    if i = range.start then text else if range.start < i ∧ i < range.stop then [] else s⟩

def apply (d : Draft) (e : Edit) : Except EditFault Draft :=
  if !d.admits e.range then .error (.outside e.range d.size)
  else match e with
    | .replace range text => .ok (d.overwrite range text)
    | .prepend range text => .ok ⟨d.slots.modify range.start (Slot.prepend text)⟩
    | .append range text =>
      if range.start < range.stop then
        .ok ⟨d.slots.modify (range.stop - 1) (Slot.append text)⟩
      else .error (.emptyAppend range)

/-- Applies the edits from the first to the last. -/
def applyAll (d : Draft) (es : List Edit) : Except EditFault Draft := es.foldlM apply d

/-- The draft whose base is the edited text. -/
def settle (d : Draft) : Draft := ofText d.source

/-- The offset in the cell behind a position of the base text: that of the last slot at or before
the position that holds a typed character. -/
def offsetBehind? (d : Draft) (position : Nat) : Option Nat :=
  (d.slots.toList.take (min position (d.size - 1) + 1)).reverse.findSome? TaggedText.firstOffset?

theorem size_ofText (t : TaggedText) : (ofText t).size = t.byteSize := by
  have h : ∀ t : TaggedText, (slotsOf t).length = t.byteSize := by
    intro t
    induction t with
    | nil => rfl
    | cons c cs ih =>
      have := c.char.utf8Size_pos
      have e : TaggedText.byteSize (c :: cs) = c.char.utf8Size + TaggedText.byteSize cs := rfl
      simp only [slotsOf, List.length_cons, List.length_append, List.length_replicate, ih, e]
      omega
  simp [size, ofText, h]

theorem source_ofText (t : TaggedText) : (ofText t).source = t := by
  simp only [source, ofText]
  induction t with
  | nil => rfl
  | cons c cs ih =>
    have h : ∀ n, (List.replicate n ([] : Slot)).flatten = [] := by
      intro n
      induction n with
      | zero => rfl
      | succ n ih => simp [List.replicate_succ]
    simpa [slotsOf, h] using ih

end Draft

end NotebookCell
