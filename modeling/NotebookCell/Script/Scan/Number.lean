import NotebookCell.Script.Scan.Basic
import NotebookCell.Text.Decimal
import NotebookCell.Text.Identifier

/-!
# Numbers
-/

namespace NotebookCell.Script

/-! ## Digits -/

/-- Reads digits and the separators before them: the digits, the last one first, and whether a
separator does not stand before a digit. -/
def readDigits (base : Nat) : List Char → (digits : List Char) → (misplaced : Bool) →
    List Char × Bool × List Char
  | c :: cs, digits, misplaced =>
    if c == '_' then readDigits base cs digits (misplaced || !cs.head?.any (isDigitOf base))
    else if isDigitOf base c then readDigits base cs (c :: digits) misplaced
    else (digits, misplaced, c :: cs)
  | [], digits, misplaced => (digits, misplaced, [])

/-- Digits as a reading; a misplaced separator is at fault from their start on. -/
def digits (base : Nat) (cs : List Char) (p : Nat) : Reading (List Char) :=
  let (ds, misplaced, rest) := readDigits base cs [] false
  ⟨ds, rest, p + consumedBytes cs rest,
    if misplaced then [lexicalFault p .misplacedSeparator] else []⟩

/-- Digits, of which there has to be one. -/
def someDigits (base : Nat) (cs : List Char) (p : Nat) : Reading (Except TokenFault (List Char)) :=
  let d := digits base cs p
  { d with
    result :=
      if d.result.isEmpty then .error ⟨⟨p, d.position⟩, .digitExpected base⟩ else .ok d.result }

/-! ## The end of a number -/

/-- A number may not touch a word. -/
def endNumber (cs : List Char) (token : String → Token) (r : Reading Unit) : Reading Token :=
  let touches := r.rest.head?.any Identifier.isStart
  { r with
    result :=
      if touches then .fault ⟨⟨r.position, r.position⟩, .identifierAfterNumber⟩
      else token (consumed cs r.rest) }

/-- The text of `whole.fraction * 10 ^ exponent`, digits being given last one first. -/
def decimalValue (whole fraction : List Char) (exponent : Int) : String :=
  Decimal.text
    (Decimal.nearestDecimal? (digitsValue 10 (fraction ++ whole)) (exponent - fraction.length))

/-- The text of a whole number in another base than ten. It is rounded after every digit. -/
def basedValue (base : Nat) (digits : List Char) : String :=
  let append (c : Char) (v : Option Decimal.Binary64) := do
    (← v).append? base ((hexValue? c).getD 0)
  Decimal.text (digits.foldr append (some ⟨0, 0⟩))

/-! ## Exponents -/

/-- Reads an exponent after its `e`. -/
def readExponent (cs : List Char) (p : Nat) : Reading (Except TokenFault Int) :=
  match cs with
  | [] => ⟨.error ⟨⟨p, p⟩, .exponentExpected⟩, [], p, []⟩
  | c :: tail =>
    let signed := c == '+' || c == '-'
    let d := if signed then someDigits 10 tail (p + 1) else someDigits 10 cs p
    { d with result := d.result.map fun ds =>
        if c == '-' then -(digitsValue 10 ds : Int) else digitsValue 10 ds }

structure Mantissa where
  whole : List Char
  fraction : List Char
  faults : List Fault

def scanExponent (cs : List Char) (m : Mantissa) (rest : List Char) (p : Nat) : Reading Token :=
  let plain := endNumber cs (.number (decimalValue m.whole m.fraction 0)) ⟨(), rest, p, m.faults⟩
  match rest with
  | c :: tail =>
    if c == 'e' || c == 'E' then
      let x := readExponent tail (p + 1)
      match x.result with
      | .error f => ⟨.fault f, x.rest, x.position, x.faults ++ m.faults⟩
      | .ok exponent =>
        endNumber cs (.number (decimalValue m.whole m.fraction exponent))
          ⟨(), x.rest, x.position, x.faults ++ m.faults⟩
    else plain
  | [] => plain

/-! ## Whole numbers -/

def scanBased (base : Nat) (cs tail : List Char) (p : Nat) : Reading Token :=
  let d := someDigits base tail (p + 2)
  match d.result with
  | .error f => { d with result := .fault f }
  | .ok ds =>
    match d.rest with
    | 'n' :: rest =>
      ⟨.bigint (digitsValue base ds) (consumed cs rest), rest, d.position + 1, d.faults⟩
    | _ => endNumber cs (.number (basedValue base ds)) ⟨(), d.rest, d.position, d.faults⟩

/-- A number with leading zeros and no higher digit than a seven, which is octal. -/
def endOctal (strict : Bool) (cs : List Char) (p : Nat) (d : Reading (List Char)) : Reading Token :=
  let r := endNumber cs (.number (basedValue 8 d.result)) ⟨(), d.rest, d.position, d.faults⟩
  match r.result with
  | .fault _ => r
  | _ => if strict then { r with faults := lexicalFault p .legacyOctal :: r.faults } else r

/-- Reads a number that begins with a digit. Leading zeros make it octal or, with an eight or a
nine, are out of date; strict code has neither. -/
def scanDecimal (strict : Bool) (cs : List Char) (p : Nat) : Reading Token :=
  let d := digits 10 cs p
  let leadingZero := cs.head? == some '0' && p + 1 < d.position
  match d.rest with
  | 'n' :: rest =>
    ⟨.bigint (digitsValue 10 d.result) (consumed cs rest), rest, d.position + 1, d.faults⟩
  | _ =>
    if leadingZero && d.result.all (isDigitOf 8) then endOctal strict cs p d
    else
      let faults :=
        if strict && leadingZero then lexicalFault p .legacyDecimal :: d.faults else d.faults
      match d.rest with
      | '.' :: rest =>
        let f := digits 10 rest (d.position + 1)
        scanExponent cs ⟨d.result, f.result, f.faults ++ faults⟩ f.rest f.position
      | rest => scanExponent cs ⟨d.result, [], faults⟩ rest d.position

/-- Reads a number; `cs` begins with a digit, or with a point before one. -/
def scanNumber (strict : Bool) (cs : List Char) (p : Nat) : Reading Token :=
  match cs with
  | '0' :: c :: tail =>
    if c == 'x' || c == 'X' then scanBased 16 cs tail p
    else if c == 'o' || c == 'O' then scanBased 8 cs tail p
    else if c == 'b' || c == 'B' then scanBased 2 cs tail p
    else scanDecimal strict cs p
  | '.' :: tail =>
    let f := digits 10 tail (p + 1)
    scanExponent cs ⟨[], f.result, f.faults⟩ f.rest f.position
  | _ => scanDecimal strict cs p

end NotebookCell.Script
