import NotebookCell.Json.Fault
import NotebookCell.Json.Number
import NotebookCell.Text.Quoted
import NotebookCell.Span

/-!
# Reading JSON

The parts from which readers of particular documents are made. A reader that finds a fault in the
text says where; one that finds another kind of value than the one it wants leaves the place open
for the reader around it, which knows how much of the text was taken.
-/

namespace NotebookCell.Json

structure Cursor where
  rest : List Char
  /-- the number of bytes before `rest` -/
  offset : Nat

/-- A problem, and the offset that it is reported at unless that is left open. -/
structure Raised where
  problem : Problem
  offset : Option Nat

abbrev Reader := EStateM Raised Cursor

namespace Reader

def peek : Reader (Option Char) := return (← get).rest.head?

def eat : Reader Unit :=
  modify fun s =>
    match s.rest with
    | c :: cs => ⟨cs, s.offset + c.utf8Size⟩
    | [] => s

def fail {α : Type} (p : Problem) : Reader α := do throw ⟨p, some (← get).offset⟩

/-- A problem with the next byte, which is reported as taken. -/
def failNext {α : Type} (p : Problem) : Reader α := do
  let s ← get
  throw ⟨p, some (if s.rest.isEmpty then s.offset else s.offset + 1)⟩

def failOpen {α : Type} (p : Problem) : Reader α := throw ⟨p, none⟩

/-- Reports a problem that was left open at the place that is reached. -/
def closing {α : Type} (r : Reader α) : Reader α := fun s =>
  match r s with
  | .error ⟨p, none⟩ s => .error ⟨p, some s.offset⟩ s
  | r => r

def isBlank (c : Char) : Bool := c == ' ' || c == '\n' || c == '\t' || c == '\r'

def skipBlanks : Reader Unit :=
  modify fun s => ⟨s.rest.dropWhile isBlank, s.offset + (s.rest.takeWhile isBlank).length⟩

/-- The next character behind blanks. -/
def peekToken : Reader (Option Char) := do
  skipBlanks
  peek

/-- The rest of a word such as `null`. -/
def expectWord : List Char → Reader Unit
  | [] => return
  | c :: cs => do
    match ← peek with
    | none => fail .endInValue
    | some d =>
      if c ≠ d then failNext .wordExpected
      eat
      expectWord cs

/-! ## Strings -/

def hexEscape : Reader Nat := do
  let s ← get
  if byteLength s.rest < 4 then throw ⟨.endInText, some (s.offset + byteLength s.rest)⟩
  match (s.rest.take 4).mapM hexDigit? with
  | some [a, b, c, d] =>
    set (Cursor.mk (s.rest.drop 4) (s.offset + 4))
    return ((a * 16 + b) * 16 + c) * 16 + d
  | _ => throw ⟨.invalidEscape, some (s.offset + 4)⟩

/-- The character that one is, or that stands for the start of an escape. -/
def expectEscapeChar (c : Char) : Reader Unit := do
  match ← peek with
  | none => fail .endInText
  | some d =>
    if c ≠ d then failNext .unfinishedSurrogate
    eat

/-- The character of a `\u` escape; surrogates come in pairs. -/
def unicodeEscape : Reader Char := do
  let high ← hexEscape
  if 0xdc00 ≤ high && high ≤ 0xdfff then fail .loneSurrogate
  if high < 0xd800 || 0xdbff < high then return Char.ofNat high
  expectEscapeChar '\\'
  expectEscapeChar 'u'
  let low ← hexEscape
  if low < 0xdc00 || 0xdfff < low then fail .loneSurrogate
  return Char.ofNat (0x10000 + (high - 0xd800) * 0x400 + (low - 0xdc00))

/-- The character that the one after a backslash stands for. -/
def simpleEscape? : Char → Option Char
  | '\x22' => some '\x22'
  | '\\' => some '\\'
  | '/' => some '/'
  | 'b' => some '\x08'
  | 'f' => some '\x0c'
  | 'n' => some '\n'
  | 'r' => some '\r'
  | 't' => some '\t'
  | _ => none

/-- An escape after its backslash, with the reader of what follows `\u`. -/
def escape {α : Type} (unicode : Reader α) (simple : Char → α) : Reader α := do
  match ← peek with
  | none => fail .endInText
  | some 'u' =>
    eat
    unicode
  | some c =>
    match simpleEscape? c with
    | some d =>
      eat
      return simple d
    | none => failNext .invalidEscape

/-- The characters of a string up to its closing quote; `fuel` bounds their number. -/
def readTextFrom : (fuel : Nat) → (found : List Char) → Reader String
  | 0, _ => fail .endInText
  | fuel + 1, found => do
    match ← peek with
    | none => fail .endInText
    | some '\x22' =>
      eat
      return String.ofList found.reverse
    | some '\\' =>
      eat
      let c ← escape unicodeEscape id
      readTextFrom fuel (c :: found)
    | some c =>
      if c < ' ' then failNext .controlCharacter
      eat
      readTextFrom fuel (c :: found)

/-- A string after its opening quote. -/
def readText : Reader String := do readTextFrom ((← get).rest.length + 1) []

/-- Passes over a string, whose surrogates may stand alone; `fuel` bounds its length. -/
def skipTextFrom : (fuel : Nat) → Reader Unit
  | 0 => fail .endInText
  | fuel + 1 => do
    match ← peek with
    | none => fail .endInText
    | some '\x22' => eat
    | some '\\' =>
      eat
      escape (discard hexEscape) fun _ => ()
      skipTextFrom fuel
    | some c =>
      if c < ' ' then fail .controlCharacter
      eat
      skipTextFrom fuel

def skipText : Reader Unit := do skipTextFrom ((← get).rest.length + 1)

/-! ## Numbers -/

/-- Digits, which may be none. -/
def digits : Reader (List Char) := do
  let s ← get
  let found := s.rest.takeWhile Char.isDigit
  set (Cursor.mk (s.rest.dropWhile Char.isDigit) (s.offset + found.length))
  return found

/-- The integer part of a number; `atEnd` is the problem where the text ends instead. -/
def wholeDigits (atEnd : Problem) : Reader (List Char) := do
  match ← peek with
  | none => fail atEnd
  | some '0' =>
    eat
    if (← peek).any Char.isDigit then failNext .invalidNumber
    return ['0']
  | some c =>
    if !c.isDigit then failNext .invalidNumber
    digits

def fractionDigits (atEnd : Problem) : Reader (List Char) := do
  if (← peek) ≠ some '.' then return []
  eat
  let found ← digits
  if found.isEmpty then
    if (← peek).isNone then fail atEnd
    failNext .invalidNumber
  return found

/-- Takes an exponent up to its digits and tells whether it is negative; `none` if there is no
exponent. -/
def exponentSign? (atEnd : Problem) : Reader (Option Bool) := do
  match ← peek with
  | some 'e' | some 'E' =>
    eat
    let sign ← peek
    if sign = some '+' ∨ sign = some '-' then eat
    match ← peek with
    | none => fail atEnd
    | some c =>
      if !c.isDigit then failNext .invalidNumber
      return some (sign = some '-')
  | _ => return none

/-- The digits of an exponent. One that is too large is a problem where the number would be, and
otherwise makes it zero, as the largest one does. -/
def exponentDigits (negative isZero : Bool) : Reader Int := do
  let start := (← get).offset
  let found := exponentOf 0 0 (← digits)
  match found with
  | .ok n => return if negative then -n else n
  | .error taken =>
    if !negative && !isZero then throw ⟨.numberOutOfRange, some (start + taken)⟩
    return -largestExponent

/-- Passes over a number after its sign. -/
def skipNumber : Reader Unit := do
  let _ ← wholeDigits .invalidNumber
  let _ ← fractionDigits .invalidNumber
  if (← exponentSign? .invalidNumber).isSome then let _ ← digits

/-- A number after its sign. -/
def readNumber (negative : Bool) : Reader Found := do
  let whole ← wholeDigits .endInValue
  let fraction ← fractionDigits .endInValue
  let x := appendFraction (appendWhole 0 whole) fraction
  let found ←
    match ← exponentSign? .endInValue with
    | some below =>
      let exponent ← exponentDigits below (x.significand == 0)
      pure (realOf negative ⟨x.significand, x.exponent + exponent⟩)
    | none =>
      pure (if fraction.isEmpty then integerOf negative whole else realOf negative x)
  match found with
  | some found => return found
  | none => fail .numberOutOfRange

/-! ## Any value -/

inductive Frame where
  | list
  | object

def Frame.close : Frame → Char
  | .list => ']'
  | .object => '\x7d'

def Frame.endExpected : Frame → Problem
  | .list => .listEndExpected
  | .object => .objectEndExpected

def Frame.endInside : Frame → Problem
  | .list => .endInList
  | .object => .endInObject

/-- Takes what follows a value, or an opening bracket, up to the next value: closing brackets and
a comma. The result is what the next value lies in; without one, nothing is left to read. -/
def closeFrames : List Frame → (afterValue : Bool) → Reader (List Frame)
  | [], _ => return []
  | frame :: frames, afterValue => do
    match ← peekToken with
    | none => fail frame.endInside
    | some c =>
      if afterValue && c = ',' then
        eat
        return frame :: frames
      if c = frame.close then
        eat
        return ← closeFrames frames true
      if afterValue then failNext frame.endExpected
      return frame :: frames

def skipKey : Reader Unit := do
  match ← peekToken with
  | some '\x22' => eat
  | some _ => failNext .keyNotText
  | none => fail .endInObject
  skipText
  match ← peekToken with
  | some ':' => eat
  | some _ => failNext .colonExpected
  | none => fail .endInObject

/-- The first part of a value: all of it, or an opening bracket. -/
def skipStart : Reader (Option Frame) := do
  match ← peekToken with
  | none => fail .endInValue
  | some 'n' =>
    expectWord "null".toList
    return none
  | some 't' =>
    expectWord "true".toList
    return none
  | some 'f' =>
    expectWord "false".toList
    return none
  | some '-' =>
    eat
    skipNumber
    return none
  | some '\x22' =>
    eat
    skipText
    return none
  | some '[' =>
    eat
    return some .list
  | some '\x7b' =>
    eat
    return some .object
  | some c =>
    if !c.isDigit then failNext .valueExpected
    skipNumber
    return none

/-- Passes over values up to the end of the outermost frame; `fuel` bounds their number. -/
def skipValues : (fuel : Nat) → List Frame → Reader Unit
  | 0, _ => fail .endInValue
  | fuel + 1, frames => do
    let opened ← skipStart
    let frames ← match opened with
      | some frame => closeFrames (frame :: frames) false
      | none => closeFrames frames true
    match frames with
    | [] => return
    | .object :: _ =>
      skipKey
      skipValues fuel frames
    | .list :: _ => skipValues fuel frames

def skipValue : Reader Unit := do skipValues ((← get).rest.length + 1) []

/-! ## Particular values -/

/-- Refuses the value that comes, which is not of the wanted kind. -/
def refuse {α : Type} (wanted : String) : Reader α := closing do
  let wrong (found : Found) : Reader α := failOpen (.wrongType found wanted)
  match ← peek with
  | some 'n' =>
    expectWord "null".toList
    wrong .null
  | some 't' =>
    expectWord "true".toList
    wrong (.boolean true)
  | some 'f' =>
    expectWord "false".toList
    wrong (.boolean false)
  | some '-' =>
    eat
    wrong (← readNumber true)
  | some '\x22' =>
    eat
    wrong (.text (quoted '\x22' (← readText)))
  | some '[' => wrong .sequence
  | some '\x7b' => wrong .map
  | some c =>
    if !c.isDigit then failNext .valueExpected
    wrong (← readNumber false)
  | none => failNext .valueExpected

def textValue : Reader String := do
  match ← peekToken with
  | none => fail .endInValue
  | some '\x22' =>
    eat
    readText
  | some _ => refuse "a string"

/-- A string, or `null` in its place. -/
def optionalTextValue : Reader (Option String) := do
  match ← peekToken with
  | some 'n' =>
    expectWord "null".toList
    return none
  | _ => some <$> textValue

/-! ## Objects and lists -/

/-- The next key of an object, or `none` at its end. -/
def nextKey? (first : Bool) : Reader (Option String) := do
  match ← peekToken with
  | none => fail .endInObject
  | some '\x7d' => return none
  | some c =>
    if !first then
      if c ≠ ',' then failNext .objectEndExpected
      eat
    match ← peekToken with
    | some '\x22' =>
      eat
      return some (← readText)
    | some '\x7d' => failNext .trailingComma
    | some _ => failNext .keyNotText
    | none => fail .endInValue

def expectColon : Reader Unit := do
  match ← peekToken with
  | some ':' => eat
  | some _ => failNext .colonExpected
  | none => fail .endInObject

def endObject : Reader Unit := do
  match ← peekToken with
  | some '\x7d' => eat
  | some ',' => failNext .trailingComma
  | some _ => failNext .trailingCharacters
  | none => fail .endInObject

def hasNextItem (first : Bool) : Reader Bool := do
  match ← peekToken with
  | none => fail .endInList
  | some ']' => return false
  | some c =>
    if first then return true
    if c ≠ ',' then failNext .listEndExpected
    eat
    match ← peekToken with
    | some ']' => failNext .trailingComma
    | some _ => return true
    | none => fail .endInValue

def endList : Reader Unit := do
  match ← peekToken with
  | some ']' => eat
  | some ',' =>
    eat
    match ← peekToken with
    | some ']' => failNext .trailingComma
    | _ => failNext .trailingCharacters
  | some _ => failNext .trailingCharacters
  | none => fail .endInList

/-- Takes the closing bracket after a reader of what lies before it, also if that one failed. -/
def thenClose {α : Type} (r : Reader α) (close : Reader Unit) : Reader α := fun s =>
  match r s with
  | .ok a s =>
    match close s with
    | .ok _ s => .ok a s
    | .error e s => .error e s
  | .error e s =>
    match close s with
    | .ok _ s => .error e s
    | .error _ s => .error e s

/-! ## Documents -/

/-- Nothing but blanks may follow a document. -/
def document {α : Type} (r : Reader α) : Reader α := do
  let a ← r
  if (← peekToken).isSome then failNext .trailingCharacters
  return a

def runOn {α : Type} (r : Reader α) (text : String) : Except Fault α :=
  match document (closing r) ⟨text.toList, 0⟩ with
  | .ok a _ => .ok a
  | .error e s => .error ⟨e.problem, Position.advance ⟨1, 0⟩ text.toList (e.offset.getD s.offset)⟩

end Reader

end NotebookCell.Json
