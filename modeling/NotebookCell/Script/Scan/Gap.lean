import NotebookCell.Script.Scan.Basic

/-!
# Between tokens

`skipGap` skips blanks and comments. `<!--`, `-->` at the start of a line and the markers of a merge
conflict begin line comments too; the token behind such a comment spans the comment as well.
-/

namespace NotebookCell.Script

def isBlank (c : Char) : Bool :=
  let n := c.toNat
  n == 0x20 || n == 0x09 || n == 0x0b || n == 0x0c || n == 0x85 || n == 0xa0 || n == 0xfeff ||
    n == 0x1680 || (0x2000 ≤ n && n ≤ 0x200a) || n == 0x202f || n == 0x205f || n == 0x3000

inductive Gap where
  | blank
  | lineComment
  | blockComment

/-- The text after a gap between tokens. -/
structure AfterGap where
  rest : List Char
  position : Nat
  newline : Bool
  /-- where the first comment starts that belongs to the token behind the gap -/
  start : Option Nat
  faults : List Fault

/-- The text continues with a line that a merge left behind, and that reading goes on after. -/
def startsConflict (cs : List Char) : Bool :=
  "<<<<<<< ".toList.isPrefixOf cs || ">>>>>>> ".toList.isPrefixOf cs ||
    "=======".toList.isPrefixOf cs

/-- Skips blanks and comments. `start` is where the token begins if a comment that belongs to it was
skipped. Modules have no `<!--` and no `-->`; the fault of a `<!--` is noted when the blanks behind
it are skipped, and waits in `late`. -/
def skipGap (inModule : Bool) : Gap → List Char → Nat → (newline : Bool) → (start : Option Nat) →
    (late faults : List Fault) → AfterGap
  | .blank, '/' :: '/' :: cs, p, nl, s, late, fs =>
    skipGap inModule .lineComment cs (p + 2) nl s late fs
  | .blank, '/' :: '*' :: cs, p, nl, s, late, fs =>
    skipGap inModule .blockComment cs (p + 2) nl s late fs
  | .blank, '<' :: '!' :: '-' :: '-' :: cs, p, nl, s, late, fs =>
    skipGap inModule .lineComment cs (p + 4) nl (s <|> some p)
      (if inModule then [lexicalFault p .htmlComment] else []) (late ++ fs)
  | .blank, '-' :: '-' :: '>' :: cs, p, nl, s, late, fs =>
    if nl then
      skipGap inModule .lineComment cs (p + 3) nl (s <|> some p) []
        ((if inModule then [lexicalFault p .htmlComment] else []) ++ late ++ fs)
    else ⟨'-' :: '-' :: '>' :: cs, p, nl, s, late ++ fs⟩
  | .blank, c :: cs, p, nl, s, late, fs =>
    if isLineBreak c then skipGap inModule .blank cs (p + c.utf8Size) true s late fs
    else if isBlank c then skipGap inModule .blank cs (p + c.utf8Size) nl s late fs
    else if nl && startsConflict (c :: cs) then
      skipGap inModule .lineComment cs (p + c.utf8Size) nl (s <|> some p) []
        (lexicalFault p .conflictMarker :: (late ++ fs))
    else ⟨c :: cs, p, nl, s, late ++ fs⟩
  | .lineComment, c :: cs, p, nl, s, late, fs =>
    if isLineBreak c then skipGap inModule .blank cs (p + c.utf8Size) true s late fs
    else skipGap inModule .lineComment cs (p + c.utf8Size) nl s late fs
  | .blockComment, '*' :: '/' :: cs, p, nl, s, late, fs =>
    skipGap inModule .blank cs (p + 2) nl s late fs
  | .blockComment, c :: cs, p, nl, s, late, fs =>
    skipGap inModule .blockComment cs (p + c.utf8Size) (nl || isLineBreak c) s late fs
  | .blockComment, [], p, nl, s, late, fs =>
    ⟨[], p, nl, s, late ++ lexicalFault p .unterminatedComment :: fs⟩
  | _, [], p, nl, s, late, fs => ⟨[], p, nl, s, late ++ fs⟩

end NotebookCell.Script
