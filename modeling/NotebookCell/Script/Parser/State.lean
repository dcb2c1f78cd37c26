import NotebookCell.Script.Scan

/-!
# The parser's monad

A parser reads tokens on demand: the current one when it is first asked about, and sometimes the one
after it. What it does to its state is a sequence of moves, and its type says so: what each move
keeps, every parser keeps.

A fault that is thrown ends the parse, unless a rule recovers from it; one that is noted lets it go
on. The state at the throw is kept, so that recovery goes on from there.
-/

namespace NotebookCell.Script

/-- What the code around a position allows there. -/
structure Context where
  inModule : Bool
  strict : Bool
  /-- `in` is an operator -/
  includeIn : Bool
  /-- neither in a block nor in another statement -/
  topLevel : Bool
  inFunction : Bool
  inAsync : Bool
  inGenerator : Bool
  inParameters : Bool
  inStaticBlock : Bool
  inField : Bool
  inClass : Bool
  allowsSuper : Bool
  allowsNewTarget : Bool
  allowsBreak : Bool
  allowsContinue : Bool
  inForHead : Bool
  inForAwaitHead : Bool
  /-- the labels of the enclosing statements of this function -/
  labels : List String
  /-- bounds the number of rounds of each loop -/
  budget : Nat

/-- The word cannot be an identifier here. -/
def Context.reserves (c : Context) (name : String) : Bool :=
  if name == "let" then c.strict
  else if name == "await" then c.inAsync || c.inStaticBlock || c.inModule
  else if name == "yield" then c.inGenerator || c.strict
  else reservedWords.contains name || (c.strict && strictWords.contains name)

def Context.dialect (c : Context) : Dialect := ⟨c.strict, c.inModule, c.reserves⟩

theorem Context.inModule_dialect (c : Context) : c.dialect.inModule = c.inModule := rfl

structure State where
  cursor : Cursor
  /-- the current token, if it has been read -/
  current : Option Lexeme
  /-- the token after the current one, if it has been read -/
  next : Option Lexeme
  /-- the span of the last token taken -/
  previous : Span
  /-- the last one noted first -/
  faults : List Fault
  /-- where an arrow function may begin -/
  arrowStart : Option Nat
  /-- for literals with a trailing comma, where they start and where the comma is -/
  trailingCommas : List (Nat × Nat)

/-! ## Moves -/

namespace State

/-- The current token is read unless it has been. -/
def withCurrent (d : Dialect) (s : State) : State :=
  match s.current, s.next with
  | some _, _ => s
  | none, some lexeme => { s with current := some lexeme, next := none }
  | none, none =>
    let r := scan d s.cursor
    { s with cursor := r.cursor, current := r.lexeme, faults := r.faults ++ s.faults }

/-- The token after the current one is read unless it has been. -/
def withNext (d : Dialect) (s : State) : State :=
  match s.next with
  | some _ => s
  | none =>
    let r := scan d s.cursor
    { s with cursor := r.cursor, next := r.lexeme, faults := r.faults ++ s.faults }

/-- The first token that has been read is taken. One that is a fault is noted. -/
def bumped (s : State) : State :=
  match s.current, s.next with
  | some lexeme, _ =>
    { s with
      current := none, previous := lexeme.span, faults := lexeme.token.faults ++ s.faults }
  | none, some lexeme =>
    { s with next := none, previous := lexeme.span, faults := lexeme.token.faults ++ s.faults }
  | none, none => s

/-- A current token that has been read and is a fault is noted and taken. -/
def withFaultToken (s : State) : State :=
  match s.current with
  | some ⟨.fault _, _, _⟩ => s.bumped
  | _ => s

/-- A current token that has been read is passed over, whatever it is. -/
def withoutCurrent (s : State) : State :=
  match s.current with
  | some lexeme => { s with current := none, previous := lexeme.span }
  | none => s

/-- The text is read next, as a regular expression behind its slash, unless a token has been read
behind the slash before. -/
def withRegex (slash : Span) (text : List Char) (s : State) : State :=
  if s.cursor.position = slash.stop then
    { s with cursor := { s.cursor with regex := some (text, slash.start) } }
  else s

def withoutRegex (s : State) : State := { s with cursor := { s.cursor with regex := none } }

/-- The current token is taken. Where it is a slash, what follows is read as a regular expression. -/
def withSlashTaken (s : State) : State :=
  match s.current with
  | some ⟨.punct "/", span, _⟩ => s.bumped.withRegex span s.cursor.rest
  | some ⟨.punct "/=", span, _⟩ => s.bumped.withRegex span ('=' :: s.cursor.rest)
  | _ => s.bumped

end State

/-- What a parser of a module, or of a script, does to its state at once. -/
inductive Move (inModule : Bool) : State → State → Prop where
  | current (d : Dialect) (h : d.inModule = inModule) (s : State) : Move inModule s (s.withCurrent d)
  | next (d : Dialect) (h : d.inModule = inModule) (s : State) : Move inModule s (s.withNext d)
  | bump (s : State) : Move inModule s s.bumped
  | slash (s : State) : Move inModule s s.withSlashTaken
  | regexEnd (s : State) : Move inModule s s.withoutRegex
  | faultToken (s : State) : Move inModule s s.withFaultToken
  | fault (f : Fault) (s : State) : Move inModule s { s with faults := f :: s.faults }
  | arrowStart (start : Option Nat) (s : State) : Move inModule s { s with arrowStart := start }
  | trailingComma (start position : Nat) (s : State) :
    Move inModule s { s with trailingCommas := (start, position) :: s.trailingCommas }

inductive Moves (inModule : Bool) (s : State) : State → Prop where
  | none : Moves inModule s s
  | more {s' s'' : State} (h : Moves inModule s s') (hlast : Move inModule s' s'') :
    Moves inModule s s''

theorem Moves.trans {inModule : Bool} {s s' s'' : State} (h : Moves inModule s s')
    (h' : Moves inModule s' s'') : Moves inModule s s'' := by
  induction h' with
  | none => exact h
  | more _ hlast ih => exact ih.more hlast

/-- Faults are never taken back. -/
theorem Move.faults_ne_nil {inModule : Bool} {s s' : State} (h : Move inModule s s')
    (hs : s.faults ≠ []) : s'.faults ≠ [] := by
  have hbumped : s.bumped.faults ≠ [] := by
    unfold State.bumped
    split <;> simp [hs]
  have hregex (slash : Span) (text : List Char) : (s.bumped.withRegex slash text).faults ≠ [] := by
    unfold State.withRegex
    split <;> exact hbumped
  cases h with
  | current d =>
    unfold State.withCurrent
    split <;> simp [hs]
  | next d =>
    unfold State.withNext
    split <;> simp [hs]
  | bump => exact hbumped
  | slash =>
    unfold State.withSlashTaken
    split
    · exact hregex _ _
    · exact hregex _ _
    · exact hbumped
  | regexEnd => exact hs
  | faultToken =>
    unfold State.withFaultToken
    split
    · exact hbumped
    · exact hs
  | fault f => exact List.cons_ne_nil _ _
  | arrowStart start => exact hs
  | trailingComma start position => exact hs

/-! ## Parsers -/

inductive Parser.Outcome (α : Type) where
  | result (a : α) (s : State)
  | fault (f : Fault) (s : State)

def Parser.Outcome.state {α : Type} : Outcome α → State
  | result _ s => s
  | fault _ s => s

/-- What an outcome owes to the state in which its parser began: noted faults stay, and a result
without any is reached by moves. -/
structure Parser.Outcome.Follows {α : Type} (o : Outcome α) (inModule : Bool) (s : State) : Prop where
  faults : s.faults ≠ [] → o.state.faults ≠ []
  moves : ∀ a s', o = .result a s' → s'.faults = [] → Moves inModule s s'

def Parser (α : Type) : Type :=
  (c : Context) → (s : State) → { o : Parser.Outcome α // o.Follows c.inModule s }

namespace Parser

section
variable {α β : Type} {inModule : Bool} {s s' : State}

theorem Outcome.Follows.ofMoves {a : α} (h : Moves inModule s s')
    (hfaults : s.faults ≠ [] → s'.faults ≠ []) : (Outcome.result a s').Follows inModule s := by
  refine ⟨hfaults, ?_⟩
  rintro _ _ ⟨⟩ -
  exact h

theorem Outcome.Follows.ofFault {f : Fault} (h : s.faults ≠ [] → s'.faults ≠ []) :
    (Outcome.fault f s' : Outcome α).Follows inModule s := by
  refine ⟨h, ?_⟩
  rintro _ _ ⟨⟩

theorem Outcome.Follows.trans {o : Outcome α} {o' : Outcome β} (h : o.Follows inModule s)
    (h' : o'.Follows inModule o.state) (ho : ∀ b t, o' = .result b t → ∃ a, o = .result a o.state) :
    o'.Follows inModule s := by
  refine ⟨h'.faults ∘ h.faults, fun b t hb ht => ?_⟩
  obtain ⟨a, ha⟩ := ho b t hb
  have hbetween : o.state.faults = [] :=
    Classical.not_not.mp fun hnot => h'.faults hnot (by rw [hb]; exact ht)
  exact (h.moves a _ ha hbetween).trans (h'.moves b t hb ht)

end

@[always_inline, inline]
protected def pure {α : Type} (a : α) : Parser α := fun _ s => ⟨.result a s, .ofMoves .none id⟩

@[always_inline, inline]
protected def bind {α β : Type} (p : Parser α) (f : α → Parser β) : Parser β := fun c s =>
  match p c s with
  | ⟨.result a s', h⟩ =>
    match f a c s' with
    | ⟨o, h'⟩ => ⟨o, h.trans h' fun _ _ _ => ⟨a, rfl⟩⟩
  | ⟨.fault f s', h⟩ => ⟨.fault f s', .ofFault h.faults⟩

instance : Monad Parser where
  pure := Parser.pure
  bind := Parser.bind

instance : MonadReaderOf Context Parser where
  read c s := ⟨.result c s, .ofMoves .none id⟩

/-- Ends the parse with a fault. -/
def failWith {α : Type} (f : Fault) : Parser α := fun _ s => ⟨.fault f s, .ofFault id⟩

/-- Ends the parse with a fault. What recovers from it goes on behind the current token. -/
def failBehind {α : Type} (f : Fault) : Parser α := fun _ s =>
  ⟨.fault f s.withoutCurrent, .ofFault fun h => by
    unfold State.withoutCurrent
    split <;> exact h⟩

/-- Goes on where a parser fails. The handler is told the fault, and says what fault is noted
in the end and what the result is. -/
def recovering {α : Type} (p : Parser α) (handler : Fault → Parser (Fault × α)) : Parser α :=
  fun c s =>
  match p c s with
  | ⟨.result a s', h⟩ => ⟨.result a s', h⟩
  | ⟨.fault e s', h⟩ =>
    match handler e c s' with
    | ⟨.result (f, a) t, _⟩ =>
      ⟨.result a { t with faults := f :: t.faults }, fun _ => List.cons_ne_nil _ _, by
        rintro _ _ ⟨⟩ ⟨⟩⟩
    | ⟨.fault e' t, h'⟩ => ⟨.fault e' t, .ofFault (h'.faults ∘ h.faults)⟩

def state : Parser State := fun _ s => ⟨.result s s, .ofMoves .none id⟩

def move (f : Context → State → State) (h : ∀ c s, Move c.inModule s (f c s)) : Parser Unit :=
  fun c s => ⟨.result () (f c s), .ofMoves (Moves.none.more (h c s)) (h c s).faults_ne_nil⟩

/-- Runs a parser where other things are allowed, in a text of the same kind. -/
def inContext {α : Type} (change : Context → Context) (p : Parser α)
    (h : ∀ c, (change c).inModule = c.inModule := by exact fun _ => rfl) : Parser α := fun c s =>
  match p (change c) s with
  | ⟨o, ho⟩ => ⟨o, h c ▸ ho⟩

end Parser

end NotebookCell.Script
