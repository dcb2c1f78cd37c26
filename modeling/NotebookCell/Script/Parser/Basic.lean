import NotebookCell.Script.Parser.State

/-!
# Tokens, faults and repetition

What all rules are made of: looking at tokens and taking them, noting faults and throwing them,
changing the context, and repeating a step.
-/

namespace NotebookCell.Script.Parser

/-! ## Tokens -/

/-- The current token; `none` at the end. -/
def current : Parser (Option Lexeme) := do
  move (fun c s => s.withCurrent c.dialect) fun c s => .current c.dialect c.inModule_dialect s
  return (← state).current

def currentToken : Parser (Option Token) := return (← current).map (·.token)

/-- The token after the current one. -/
def peek : Parser (Option Lexeme) := do
  let _ ← current
  move (fun c s => s.withNext c.dialect) fun c s => .next c.dialect c.inModule_dialect s
  return (← state).next

def bump : Parser Unit := move (fun _ s => s.bumped) fun _ s => .bump s

/-- The span of the current token if it has been read, else of the one before. -/
def knownSpan : Parser Span := do
  let s ← state
  return (s.current.map (·.span)).getD s.previous

def previousSpan : Parser Span := return (← state).previous

/-- Where the current token starts; at the end, where the last one ended. -/
def startPosition : Parser Nat := do
  match ← current with
  | some lexeme => return lexeme.span.start
  | none => return (← previousSpan).stop

/-- The span from a position to the end of the last token taken. -/
def spanFrom (start : Nat) : Parser Span := return ⟨start, (← previousSpan).stop⟩

/-- A line break, or the end, comes before the current token. -/
def newlineBefore : Parser Bool := return ((← current).map (·.newlineBefore)).getD true

def atEnd : Parser Bool := return (← current).isNone

/-- The text has come to its end. A null character ends a list of tokens, and reading again goes on
behind it. -/
def atTextEnd : Parser Bool := do
  let _ ← current
  atEnd

/-! ## Faults -/

/-- A current token that has been read and is a fault is noted and taken. -/
def noteFaultToken : Parser Unit := move (fun _ s => s.withFaultToken) fun _ s => .faultToken s

def noteFault (f : Fault) : Parser Unit := do
  noteFaultToken
  move (fun _ s => { s with faults := f :: s.faults }) fun _ s => .fault f s

def note (position : Nat) (error : SyntaxError) : Parser Unit := noteFault ⟨position, error⟩

def noteStrict (position : Nat) (error : SyntaxError) : Parser Unit := do
  if (← read).strict then note position error

def noteHere (error : SyntaxError) : Parser Unit := do note (← knownSpan).start error

def failAt {α : Type} (position : Nat) (error : SyntaxError) : Parser α := do
  noteFaultToken
  failWith ⟨position, error⟩

def failHere {α : Type} (error : SyntaxError) : Parser α := do failAt (← knownSpan).start error

def shownToken : Parser String := return ((← current).map (·.token.shown)).getD "<eof>"

def failUnexpected {α : Type} (wanted : String) : Parser α := do
  let got ← shownToken
  failHere (.unexpected got wanted)

/-- The current token, where one has to be and has to be sound. -/
def required : Parser Token := do
  match ← currentToken with
  | some (.fault f) => failBehind f.fault
  | some token => return token
  | none =>
    let c := (← state).cursor
    failWith ⟨c.position + byteLength c.rest, .unexpectedEnd⟩

/-! ## Words and punctuators -/

def sees (spelling : String) : Parser Bool :=
  return ((← current).map (·.token.spells spelling)).getD false

def seesAny (spellings : List String) : Parser Bool :=
  return ((← current).map fun l => spellings.any l.token.spells).getD false

/-- The token after the current one is spelled so. -/
def peeks (spelling : String) : Parser Bool :=
  return ((← peek).map (·.token.spells spelling)).getD false

/-- No line break comes before the token after the current one. -/
def peeksOnLine : Parser Bool := return ((← peek).map (!·.newlineBefore)).getD false

def eat (spelling : String) : Parser Bool := do
  let found ← sees spelling
  if found then bump
  return found

def expect (spelling : String) : Parser Unit := do
  if !(← eat spelling) then
    let position := (← knownSpan).start
    failAt position (.expected spelling (← shownToken))

/-- A semicolon, or a place where one is understood: before a closing brace, at a line break and at
the end. -/
def seesSemicolon : Parser Bool := do
  match ← current with
  | some l => return l.token.spells ";" || l.token.spells "\x7d" || l.newlineBefore
  | none => return true

def eatSemicolon : Parser Bool := do
  if ← sees ";" then
    bump
    return true
  seesSemicolon

def expectSemicolon : Parser Unit := do
  if !(← eatSemicolon) then
    let position := (← knownSpan).start
    failAt position (.expected ";" (← shownToken))

def isIdentifierIn (c : Context) : Token → Bool
  | .word name bare => !(bare && c.reserves name)
  | _ => false

def seesIdentifier : Parser Bool := return (← currentToken).any (isIdentifierIn (← read))

/-- The token after the current one is a word that can be an identifier here. -/
def peeksIdentifier : Parser Bool :=
  return ((← peek).map (·.token)).any (isIdentifierIn (← read))

/-! ## Contexts -/

def setArrowStart (start : Option Nat) : Parser Unit :=
  move (fun _ s => { s with arrowStart := start }) fun _ s => .arrowStart start s

def includingIn {α : Type} (p : Parser α) : Parser α :=
  inContext (fun c => { c with includeIn := true }) p

def nested {α : Type} (p : Parser α) : Parser α :=
  inContext (fun c => { c with topLevel := false }) p

/-- Runs a parser for what it takes; a fault that it throws is only noted. -/
def attempt {α : Type} (p : Parser α) : Parser Unit :=
  recovering (do let _ ← p) fun f => return (f, ())

/-! ## Repetition -/

inductive Round (σ β : Type) where
  | again (s : σ)
  | done (b : β)

def loopWithin {σ β : Type} (step : σ → Parser (Round σ β)) : (budget : Nat) → σ → Parser β
  | 0, _ => do failWith ⟨← startPosition, .nestingTooDeep⟩
  | n + 1, s => do
    match ← step s with
    | .again s => loopWithin step n s
    | .done b => return b

/-- Repeats a step; each round takes a token, so the length of the text bounds their number. -/
def loop {σ β : Type} (init : σ) (step : σ → Parser (Round σ β)) : Parser β := do
  loopWithin step (← read).budget init

/-- The results of a step up to the first `none`. -/
def many {α : Type} (step : Parser (Option α)) : Parser (List α) :=
  loop [] fun found => do
    match ← step with
    | some a => return .again (a :: found)
    | none => return .done found.reverse

/-- A comma, unless the closing token follows, and what to do where that follows the comma. -/
def separator (close : String) (afterComma : Parser Unit) : Parser Unit := do
  if !(← sees close) then
    expect ","
    if ← sees close then afterComma

/-- Items up to a closing token or the end, with a comma after each but the last. `item` is told
the items before it, the last one first, and `afterComma` what to do where the closing token
follows the comma after an item. -/
def commaSeparated {α : Type} (close : String) (item : List α → Parser α)
    (afterComma : α → Parser Unit) : Parser (List α) :=
  loop [] fun found => do
    if (← atEnd) || (← sees close) then return .done found.reverse
    let a ← item found
    separator close (afterComma a)
    return .again (a :: found)

end NotebookCell.Script.Parser
