import NotebookCell.Script.Scan.Word

/-!
# Strings, templates and regular expressions
-/

namespace NotebookCell.Script

/-! ## Escapes -/

/-- An escape of a string or a template; what it stands for is `none` where the escape is bad. -/
abbrev EscapeReading := Reading (Except LexicalError (List Char))

/-- Reads up to `limit` further octal digits of a value below 256. -/
def readOctal : (limit : Nat) → List Char → Nat → Nat × List Char
  | limit + 1, c :: cs, value =>
    if isDigitOf 8 c && value * 8 + (c.toNat - 48) < 256 then
      readOctal limit cs (value * 8 + (c.toNat - 48))
    else (value, c :: cs)
  | _, cs, value => (value, cs)

/-- An octal escape with its first digit `c`, which stands at `p + 1`. -/
def octalEscape (strict inTemplate : Bool) (p : Nat) (c : Char) (cs : List Char) : EscapeReading :=
  if c == '0' && !cs.head?.any (isDigitOf 8) then ⟨.ok [Char.ofNat 0], cs, p + 2, []⟩
  else if inTemplate then ⟨.error .legacyOctal, cs, p + 2, []⟩
  else
    let (value, rest) := readOctal 2 cs (c.toNat - 48)
    ⟨.ok [Char.ofNat value], rest, p + 2 + consumedBytes cs rest,
      if strict then [lexicalFault p .legacyOctal] else []⟩

/-- The character that an escaped one stands for. -/
def plainEscape : Char → Char
  | 'n' => '\n'
  | 'r' => '\r'
  | 't' => '\t'
  | 'b' => Char.ofNat 8
  | 'v' => Char.ofNat 11
  | 'f' => Char.ofNat 12
  | c => c

/-- Reads an escape after its backslash, which stands at `p`. -/
def readStringEscape (strict inTemplate : Bool) (cs : List Char) (p : Nat) : EscapeReading :=
  match cs with
  | [] => ⟨.error .invalidStringEscape, [], p + 1, []⟩
  | '\r' :: '\n' :: rest => ⟨.ok [], rest, p + 3, []⟩
  | 'x' :: rest =>
    let run := readHex 2 rest 0 0 false
    ⟨if run.count = 2 then .ok [Char.ofNat run.value] else .error (.badEscape "2 hex characters"),
      run.rest, p + 2 + consumedBytes rest run.rest, run.faults (p + 2)⟩
  | 'u' :: rest =>
    let e := readUnicodeEscape rest (p + 2)
    { e with result := e.result.mapError (·.error) }
  | c :: rest =>
    if isLineBreak c then ⟨.ok [], rest, p + 1 + c.utf8Size, []⟩
    else if isDigitOf 8 c then octalEscape strict inTemplate p c rest
    else ⟨.ok [plainEscape c], rest, p + 1 + c.utf8Size, []⟩

/-! ## Strings -/

/-- Reads a string after its quote, which stands at `start`; the value is collected last character
first. A string that its line does not end is at fault, and still a string. -/
def readString (strict : Bool) (quote : Char) (start : Nat) :
    (fuel : Nat) → List Char → Nat → (value : List Char) → List Fault →
      Reading (Except TokenFault (List Char))
  | fuel + 1, c :: cs, p, value, fs =>
    if c == quote then ⟨.ok value, cs, p + c.utf8Size, fs⟩
    else if c == '\\' then
      let e := readStringEscape strict false cs p
      match e.result with
      | .ok chars =>
        readString strict quote start fuel e.rest e.position (chars.reverse ++ value)
          (e.faults ++ fs)
      | .error error =>
        let stop := if cs.isEmpty then p else e.position
        ⟨.error ⟨⟨p, stop⟩, error⟩, e.rest, e.position, e.faults ++ fs⟩
    else if c == '\n' || c == '\r' then
      ⟨.ok value, c :: cs, p, lexicalFault start .unterminatedString :: fs⟩
    else readString strict quote start fuel cs (p + c.utf8Size) (c :: value) fs
  | _, cs, p, value, fs => ⟨.ok value, cs, p, lexicalFault start .unterminatedString :: fs⟩

/-- A string; `cs` begins with its quote. -/
def scanString (strict : Bool) (quote : Char) (cs : List Char) (p : Nat) : Reading Token :=
  let r := readString strict quote p (cs.length + 1) (cs.drop 1) (p + 1) [] []
  { r with
    result := match r.result with
      | .ok value => .text (String.ofList value.reverse) (consumed cs r.rest)
      | .error f => .fault f }

/-! ## Templates -/

/-- The text of a template is over: the template ends or an expression begins. -/
def endsTemplateText (c : Char) (cs : List Char) : Bool :=
  c == '\x60' || (c == '$' && cs.head? == some '\x7b')

/-- Finds the end of the text of a template and the fault of its last bad escape. -/
def readTemplate (strict : Bool) : (fuel : Nat) → List Char → Nat → Option Fault → List Fault →
    Reading (Option (Option Fault))
  | fuel + 1, c :: cs, p, bad, fs =>
    if endsTemplateText c cs then ⟨some bad, c :: cs, p, fs⟩
    else if c == '\\' then
      let e := readStringEscape strict true cs p
      let bad := match e.result with
        | .ok _ => bad
        | .error error => some (lexicalFault p error)
      readTemplate strict fuel e.rest e.position bad (e.faults ++ fs)
    else readTemplate strict fuel cs (p + c.utf8Size) bad fs
  | _, cs, p, _, fs => ⟨none, cs, p, fs⟩

/-- A token inside of a template that began at `start`: its next text, or what ends the text that
was just read. -/
def scanTemplate (strict afterText : Bool) (start : Nat) (cs : List Char) (p : Nat) :
    Reading Token :=
  match afterText, cs with
  | true, '\x60' :: rest => ⟨.punct "`", rest, p + 1, []⟩
  | true, '$' :: '\x7b' :: rest => ⟨.punct "$\x7b", rest, p + 2, []⟩
  | _, _ =>
    let r := readTemplate strict (cs.length + 1) cs p none []
    { r with
      result := match r.result with
        | some bad => .template (consumed cs r.rest) bad
        | none => .fault ⟨⟨start, r.position⟩, .unterminatedTemplate⟩ }

/-! ## Regular expressions -/

/-- Finds the closing slash of a regular expression, or the place where its line ends before. -/
def regexRest : List Char → (escaped inClass : Bool) → List Char
  | [], _, _ => []
  | c :: cs, escaped, inClass =>
    if isLineBreak c then c :: cs
    else if escaped then regexRest cs false inClass
    else if c == '/' && !inClass then c :: cs
    else regexRest cs (c == '\\') (if inClass then c != ']' else c == '[')

/-- A regular expression after its opening slash, which stands at `start`. -/
def scanRegex (cs : List Char) (start : Nat) : Reading Token :=
  let rest := regexRest cs false false
  let p := start + 1 + consumedBytes cs rest
  match rest with
  | '/' :: tail =>
    let body := consumed cs rest
    if tail.head?.any Identifier.isStart then
      let w := readWord (tail.length + 1) tail (p + 1) ⟨[], false⟩ []
      { w with
        result := match w.result with
          | .ok flags => .regex body (String.ofList flags.chars.reverse)
          | .error f => .fault f }
    else ⟨.regex body "", tail, p + 1, []⟩
  | _ => ⟨.fault ⟨⟨start, p⟩, .unterminatedRegex⟩, rest, p, []⟩

end NotebookCell.Script
