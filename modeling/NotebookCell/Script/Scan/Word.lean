import NotebookCell.Script.Scan.Basic
import NotebookCell.Text.Identifier

/-!
# Escapes and words
-/

namespace NotebookCell.Script

/-! ## Unicode escapes -/

/-- The hexadecimal digits of an escape. -/
structure HexRun where
  value : Nat
  count : Nat
  /-- a separator does not stand before a digit -/
  misplaced : Bool
  rest : List Char

/-- The values from which on digits are no longer read. -/
def hexBound : Nat := Nat.pow 2 32

/-- Reads at most `room` hexadecimal digits and the separators before them. -/
def readHex : (room : Nat) → List Char → (value count : Nat) → (misplaced : Bool) → HexRun
  | 0, cs, value, count, misplaced => ⟨value, count, misplaced, cs⟩
  | room + 1, c :: cs, value, count, misplaced =>
    if c == '_' then
      readHex (room + 1) cs value count (misplaced || !cs.head?.any (isDigitOf 16))
    else match hexValue? c with
      | none => ⟨value, count, misplaced, c :: cs⟩
      | some d =>
        if hexBound ≤ value * 16 + d then ⟨value * 16 + d, count + 1, misplaced, cs⟩
        else readHex room cs (value * 16 + d) (count + 1) misplaced
  | _, [], value, count, misplaced => ⟨value, count, misplaced, []⟩

/-- A misplaced separator is at fault from the start of its digits on. -/
def HexRun.faults (run : HexRun) (start : Nat) : List Fault :=
  if run.misplaced then [lexicalFault start .misplacedSeparator] else []

def isSurrogate (code : Nat) : Bool := 0xd800 ≤ code && code < 0xe000

/-- The code of an escape in braces, at `start` behind the opening one. That of a surrogate stands
for its own spelling. -/
def readBracedEscape (cs : List Char) (start : Nat) : Reading (Except TokenFault (List Char)) :=
  let run := readHex (cs.length + 1) cs 0 0 false
  let stop := start + consumedBytes cs run.rest
  let faults := run.faults start
  if run.count = 0 || hexBound ≤ run.value then
    ⟨.error ⟨⟨stop, stop⟩, .badEscape "1-6 hex characters"⟩, run.rest, stop, faults⟩
  else if 0x10ffff < run.value then
    ⟨.error ⟨⟨stop, stop⟩, .badEscape "1-6 hex characters in the range 0 to 10FFFF."⟩,
      run.rest, stop, faults⟩
  else
    let spelled := (cs.takeWhile (· != '\x7d')).take 5
    let (chars, rest) :=
      if isSurrogate run.value then
        ("\\u\x7b".toList ++ spelled ++ ['\x7d'], cs.drop spelled.length)
      else ([Char.ofNat run.value], run.rest)
    let stop := start + consumedBytes cs rest
    match rest with
    | '\x7d' :: rest => ⟨.ok chars, rest, stop + 1, faults⟩
    | rest => ⟨.error ⟨⟨start, stop⟩, .invalidUnicodeEscape⟩, rest, stop, faults⟩

/-- The characters that a Unicode escape stands for; `cs` follows its `\u`. -/
def readUnicodeEscape (cs : List Char) (p : Nat) : Reading (Except TokenFault (List Char)) :=
  match cs with
  | '\x7b' :: cs => readBracedEscape cs (p + 1)
  | _ =>
    let run := readHex 4 cs 0 0 false
    let stop := p + consumedBytes cs run.rest
    if run.count < 4 then
      ⟨.error ⟨⟨stop, stop⟩, .badEscape "4 hex characters"⟩, run.rest, stop, run.faults p⟩
    else if isSurrogate run.value then
      let rest := cs.drop 4
      ⟨.ok ('\\' :: 'u' :: cs.take 4), rest, p + consumedBytes cs rest, run.faults p⟩
    else ⟨.ok [Char.ofNat run.value], run.rest, stop, run.faults p⟩

/-! ## Words -/

/-- The characters of a word, the last one first. -/
structure WordChars where
  chars : List Char
  escaped : Bool

/-- Reads the characters of a word; `fuel` bounds their number. -/
def readWord : (fuel : Nat) → List Char → Nat → WordChars → List Fault →
    Reading (Except TokenFault WordChars)
  | fuel + 1, '\\' :: cs, p, w, fs =>
    match cs with
    | 'u' :: cs =>
      let e := readUnicodeEscape cs (p + 2)
      match e.result with
      | .ok chars =>
        let fs := e.faults ++ fs
        readWord fuel e.rest e.position ⟨chars.reverse ++ w.chars, true⟩
          (if chars.head?.any Identifier.isPart then fs
            else lexicalFault p .invalidIdentifierCharacter :: fs)
      | .error f => ⟨.error f, e.rest, e.position, e.faults ++ fs⟩
    | cs => ⟨.error ⟨⟨p, p⟩, .unicodeEscapeExpected⟩, cs, p + 1, fs⟩
  | fuel + 1, c :: cs, p, w, fs =>
    if Identifier.isPart c then readWord fuel cs (p + c.utf8Size) ⟨c :: w.chars, w.escaped⟩ fs
    else ⟨.ok w, c :: cs, p, fs⟩
  | _, cs, p, w, fs => ⟨.ok w, cs, p, fs⟩

/-- Reads a word. Keywords are told by words that begin with a letter of their own; `reserved` are
those that no identifier may spell with escapes. -/
def scanWord (reserved : String → Bool) (cs : List Char) (p : Nat) : Reading Token :=
  let r := readWord (cs.length + 1) cs p ⟨[], false⟩ []
  match r.result with
  | .error f => { r with result := .fault f }
  | .ok w =>
    let name := String.ofList w.chars.reverse
    let bare := cs.head? != some '\\'
    let token : Token :=
      if bare && w.escaped && reserved name then
        .fault ⟨⟨p, r.position⟩, .escapeInReservedWord name⟩
      else .word name bare
    { r with result := token }

end NotebookCell.Script
