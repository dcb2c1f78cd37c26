import NotebookCell.Span

/-!
# Tagged text

A text in which each character remembers where it came from: the byte offset in the cell that the
user typed and the file it was typed in, or nothing when an edit inserted it.
-/

namespace NotebookCell

structure Origin where
  offset : Nat
  file : Option String
  deriving DecidableEq, Repr

/-- A character with its origin; an inserted character has none. -/
structure TaggedChar where
  char : Char
  origin : Option Origin
  deriving DecidableEq, Repr

def TaggedChar.isInserted (c : TaggedChar) : Bool := c.origin.isNone

def TaggedChar.offset (c : TaggedChar) : Option Nat := c.origin.map (·.offset)

def TaggedChar.file (c : TaggedChar) : Option String := c.origin.bind (·.file)

abbrev TaggedText := List TaggedChar

namespace TaggedText

/-- Tags the characters with consecutive byte offsets, the first one with `offset`. -/
def tagFrom (file : Option String) : Nat → List Char → TaggedText
  | _, [] => []
  | offset, c :: cs => ⟨c, some ⟨offset, file⟩⟩ :: tagFrom file (offset + c.utf8Size) cs

/-- The text of a cell: each character is tagged with its own byte offset. -/
def typed (text : String) (file : Option String) : TaggedText := tagFrom file 0 text.toList

def inserted (text : String) : TaggedText := text.toList.map (⟨·, none⟩)

def chars (t : TaggedText) : List Char := t.map (·.char)

def text (t : TaggedText) : String := String.ofList t.chars

def byteSize (t : TaggedText) : Nat := byteLength t.chars

/-- The offset in the cell of the first character that has one. -/
def firstOffset? (t : TaggedText) : Option Nat := t.findSome? (·.offset)

def typedPart (t : TaggedText) : TaggedText := t.filter (!·.isInserted)

@[simp] theorem chars_append (s t : TaggedText) : chars (s ++ t) = s.chars ++ t.chars := by
  simp [chars]

@[simp] theorem byteSize_append (s t : TaggedText) :
    byteSize (s ++ t) = s.byteSize + t.byteSize := by
  simp [byteSize]

theorem chars_tagFrom (file : Option String) (offset : Nat) (cs : List Char) :
    chars (tagFrom file offset cs) = cs := by
  induction cs generalizing offset with
  | nil => rfl
  | cons c cs ih => simpa [tagFrom, chars] using ih (offset + c.utf8Size)

theorem chars_inserted (text : String) : chars (inserted text) = text.toList := by
  simp [chars, inserted, Function.comp_def]

end TaggedText

end NotebookCell
