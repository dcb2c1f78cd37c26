import NotebookCell.Script.Scan.Gap
import NotebookCell.Script.Scan.Number
import NotebookCell.Script.Scan.Text

/-!
# Scanning

`scan` reads the next token of a text after blanks and comments. Faults that do not spoil the token
are reported beside it; one that does becomes the token. Brackets and backticks tell where the text
of a template goes on; where a regular expression begins only the grammar knows.
-/

namespace NotebookCell.Script

/-! ## Tokens by their first character -/

/-- All punctuators, longer ones first. -/
def punctuators : List String :=
  [">>>=", "...", "===", "!==", "**=", "<<=", ">>=", ">>>", "&&=", "||=", "??=", "=>", "==", "!=",
   "<=", ">=", "&&", "||", "??", "++", "--", "+=", "-=", "*=", "/=", "%=", "&=", "|=", "^=",
   "<<", ">>", "**", "\x7b", "\x7d", "(", ")", "[", "]", ";", ",", "<", ">", "+", "-", "*", "/",
   "%", "&", "|", "^", "!", "~", "?", ":", "=", ".", "#", "@", "`"]

def startsWith (cs : List Char) (punctuator : String) : Bool := punctuator.toList.isPrefixOf cs

structure Dialect where
  strict : Bool
  inModule : Bool
  /-- the words that no identifier may spell with escapes -/
  reserved : String → Bool

/-- A line between the bars of a merge conflict is skipped and spoils the token. -/
def scanConflictBars (d : Dialect) (cs : List Char) (p : Nat) : Reading Token :=
  let g := skipGap d.inModule .lineComment cs p true none [] []
  ⟨.fault ⟨⟨p, p + 7⟩, .conflictMarker⟩, g.rest, g.position,
    g.faults ++ [lexicalFault p .conflictMarker]⟩

/-- Reads a token that begins with the first character. A null character is no token. -/
def scanToken (d : Dialect) (newline : Bool) (cs : List Char) (p : Nat) : Reading (Option Token) :=
  match cs with
  | [] => ⟨none, [], p, []⟩
  | c :: tail =>
    let found (r : Reading Token) : Reading (Option Token) := { r with result := some r.result }
    if c.toNat = 0 then ⟨none, tail, p + 1, []⟩
    else if c == '\x22' || c == '\x27' then found (scanString d.strict c cs p)
    else if isDigitOf 10 c || (c == '.' && tail.head?.any (isDigitOf 10)) then
      found (scanNumber d.strict cs p)
    else if c == '\\' || Identifier.isStart c then found (scanWord d.reserved cs p)
    else if newline && startsWith cs "||||||| " then found (scanConflictBars d cs p)
    else match punctuators.find? (startsWith cs) with
      | some text => ⟨some (.punct text), cs.drop text.length, p + text.length, []⟩
      | none =>
        ⟨some (.fault ⟨⟨p, p⟩, .unexpectedCharacter c⟩), tail, p + c.utf8Size, []⟩

/-! ## Brackets -/

inductive Enclosure where
  | template
  /-- `${` in a template -/
  | substitution
  /-- a brace or a parenthesis -/
  | bracket
  deriving DecidableEq

/-- The enclosures, the innermost first, behind a punctuator. -/
def enclosuresAfter (punctuator : String) (es : List Enclosure) : List Enclosure :=
  match punctuator with
  | "`" => if es.head? = some .template then es.drop 1 else .template :: es
  | "$\x7b" => .substitution :: es
  | "\x7b" | "(" => .bracket :: es
  | "\x7d" | ")" => es.drop 1
  | _ => es

/-! ## Positions -/

structure Cursor where
  rest : List Char
  position : Nat
  /-- a line break comes before the last token -/
  newline : Bool
  enclosures : List Enclosure
  /-- where the last template begins -/
  templateStart : Nat
  /-- the last token is the text of a template -/
  afterTemplateText : Bool
  /-- the text behind the slash of a regular expression, and the position of the slash: the next
  token is read from there -/
  regex : Option (List Char × Nat)

def Cursor.start (text : String) : Cursor where
  rest := text.toList
  position := 0
  newline := false
  enclosures := []
  templateStart := 0
  afterTemplateText := false
  regex := none

/-- The cursor behind a token. -/
def Cursor.behind (c : Cursor) (token : Token) (span : Span) : Cursor :=
  match token with
  | .punct p =>
    { c with
      enclosures := enclosuresAfter p c.enclosures
      templateStart := if p == "`" && c.enclosures.head? ≠ some .template then span.start
        else c.templateStart
      afterTemplateText := false }
  | .template _ _ => { c with afterTemplateText := true }
  | _ => { c with afterTemplateText := false }

/-- The next token; `none` at the end of the text and at a null character. -/
structure Scanned where
  lexeme : Option Lexeme
  cursor : Cursor
  /-- the last one found first -/
  faults : List Fault

/-- A token that begins at `start` and was read with a line break before it or not. -/
def Cursor.found (c : Cursor) (newline : Bool) (start : Nat) (r : Reading (Option Token)) :
    Scanned :=
  let c := { c with rest := r.rest, position := r.position, newline := newline }
  match r.result with
  | none => ⟨none, c, r.faults⟩
  | some token =>
    let span : Span := ⟨start, r.position⟩
    ⟨some ⟨token, span, newline⟩, c.behind token span, r.faults⟩

def scanHashbang (cs : List Char) : Reading Token :=
  let rest := cs.dropWhile (!isLineBreak ·)
  ⟨.hashbang, rest, consumedBytes cs rest, []⟩

def scan (d : Dialect) (c : Cursor) : Scanned :=
  let whole (r : Reading Token) : Reading (Option Token) := { r with result := some r.result }
  match c.regex with
  | some (cs, slash) => c.found c.newline c.position (whole (scanRegex cs slash))
  | none =>
    if c.position = 0 && startsWith c.rest "#!" then c.found true 0 (whole (scanHashbang c.rest))
    else if c.enclosures.head? = some .template && !c.rest.isEmpty then
      c.found false c.position
        (whole (scanTemplate d.strict c.afterTemplateText c.templateStart c.rest c.position))
    else
      let g := skipGap d.inModule .blank c.rest c.position (c.position = 0) none [] []
      let r := scanToken d g.newline g.rest g.position
      c.found g.newline (g.start.getD g.position) { r with faults := r.faults ++ g.faults }

end NotebookCell.Script
