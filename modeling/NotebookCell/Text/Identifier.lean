import NotebookCell.Text.IdentifierRanges

/-!
# Characters of identifiers

ASCII letters, `$` and `_` begin an identifier and digits continue one; beyond ASCII the Unicode
tables decide.
-/

namespace NotebookCell.Identifier

def inRanges (ranges : List (Nat × Nat)) (code : Nat) : Bool :=
  ranges.any fun (low, high) => low ≤ code && code ≤ high

/-- An ASCII letter, `$` or `_`. -/
def isPlainStart (c : Char) : Bool := c.isAlpha || c == '$' || c == '_'

/-- An ASCII letter or digit, `$` or `_`. -/
def isPlainPart (c : Char) : Bool := isPlainStart c || c.isDigit

def isStart (c : Char) : Bool :=
  if c.toNat < 0x80 then isPlainStart c
  else if c.toNat < 0x10000 then inRanges startRangesBasic c.toNat
  else inRanges startRangesBeyond c.toNat

def isPart (c : Char) : Bool :=
  if c.toNat < 0x80 then isPlainPart c
  else isStart c ||
    if c.toNat < 0x10000 then inRanges continueRangesBasic c.toNat
    else inRanges continueRangesBeyond c.toNat

/-- A name made of ASCII identifier characters only. -/
def isPlain (name : String) : Bool :=
  match name.toList with
  | [] => false
  | c :: cs => isPlainStart c && cs.all isPlainPart

theorem isPart_of_isStart {c : Char} (h : isStart c = true) : isPart c = true := by
  unfold isPart
  split
  · rename_i hc
    simp only [isStart, hc, ite_true] at h
    simp [isPlainPart, h]
  · simp [h]

end NotebookCell.Identifier
