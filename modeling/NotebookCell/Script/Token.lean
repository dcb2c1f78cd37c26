import NotebookCell.Script.Fault
import NotebookCell.Span

/-!
# Tokens

A token is a word, a punctuator, a literal, a stretch of template text or a fault. Which words may
name a binding depends on the code around them, so words are told apart by predicates on their name.
-/

namespace NotebookCell.Script

structure TokenFault where
  span : Span
  error : LexicalError
  deriving DecidableEq, Repr

def TokenFault.fault (f : TokenFault) : Fault := ⟨f.span.start, .lexical f.error⟩

inductive Token where
  /-- an identifier or a keyword, with escapes decoded; one that begins with an escape is not
  `bare`, and never a keyword -/
  | word (name : String) (bare : Bool)
  | punct (text : String)
  | text (value raw : String)
  | number (value raw : String)
  | bigint (value : Nat) (raw : String)
  | regex (body flags : String)
  /-- text of a template; the fault is that of its last bad escape -/
  | template (raw : String) (bad : Option Fault)
  /-- `#!` and the line that it starts -/
  | hashbang
  | fault (f : TokenFault)
  deriving DecidableEq, Repr

def assignmentOperators : List String :=
  ["=", "+=", "-=", "*=", "/=", "%=", "**=", "<<=", ">>=", ">>>=", "&=", "|=", "^=", "&&=", "||=",
   "??="]

/-- How messages show a punctuator. Of a compound assignment they show the operator that it
applies. -/
def shownPunctuator (spelling : String) : String :=
  if spelling != "=" && assignmentOperators.contains spelling then
    String.ofList spelling.toList.dropLast
  else spelling

/-- How messages show the fault of a token; positions count from one. -/
def TokenFault.shown (f : TokenFault) : String :=
  "<lexing error: Error \x7b error: (" ++ toString (f.span.start + 1) ++ ".." ++
    toString (f.span.stop + 1) ++ ", " ++ f.error.shown ++ ") \x7d>"

def Token.shown : Token → String
  | word name _ => name
  | punct spelling => shownPunctuator spelling
  | text value raw => "string literal (" ++ value ++ ", " ++ raw ++ ")"
  | number value raw => "numeric literal (" ++ value ++ ", " ++ raw ++ ")"
  | bigint value raw => "bigint literal (" ++ toString value ++ ", " ++ raw ++ ")"
  | regex body flags => "regexp literal (" ++ body ++ ", " ++ flags ++ ")"
  | template raw _ => "template token (" ++ raw ++ ")"
  | hashbang => "#!"
  | fault f => f.shown

def Token.spells (spelling : String) : Token → Bool
  | word name bare => bare && name == spelling
  | punct p => p == spelling
  | _ => false

/-- The fault that spoils the token. -/
def Token.faults : Token → List Fault
  | fault f => [f.fault]
  | _ => []

structure Lexeme where
  token : Token
  span : Span
  newlineBefore : Bool
  deriving DecidableEq, Repr

/-! ## Words -/

/-- Words that are never a reference to a binding. -/
def reservedWords : List String :=
  ["break", "case", "catch", "continue", "debugger", "default", "do", "export", "else", "finally",
   "for", "function", "if", "return", "switch", "throw", "try", "var", "const", "while", "with",
   "new", "this", "super", "class", "extends", "import", "in", "instanceof", "typeof", "void",
   "delete", "null", "true", "false", "enum"]

/-- Words that only strict code reserves, besides `let`, `yield` and `static`. -/
def strictWords : List String :=
  ["implements", "interface", "package", "private", "protected", "public"]

/-- Words with a role in the grammar that an identifier cannot have. -/
def isKeyword (name : String) : Bool :=
  name == "let" || name == "yield" || name == "await" ||
    (reservedWords.contains name && name != "enum")

/-- Binary operators, by how tightly they bind. -/
def binaryPrecedence : String → Nat
  | "??" => 1
  | "||" => 1
  | "&&" => 2
  | "|" => 3
  | "^" => 4
  | "&" => 5
  | "==" | "!=" | "===" | "!==" => 6
  | "<" | ">" | "<=" | ">=" | "in" | "instanceof" => 7
  | "<<" | ">>" | ">>>" => 8
  | "+" | "-" => 9
  | "*" | "/" | "%" => 10
  | "**" => 11
  | _ => 0

def Token.binaryOperator? : Token → Option String
  | punct spelling => if binaryPrecedence spelling = 0 then none else some spelling
  | _ => none

def Token.startsExpression : Token → Bool
  | word name bare =>
    !bare || !isKeyword name ||
      ["await", "function", "new", "this", "super", "class", "import", "yield", "typeof", "void",
       "delete", "null", "true", "false", "let"].contains name
  | punct spelling =>
    ["!", "(", "[", "\x7b", "+", "-", "/", "/=", "++", "--", "~", "`", "<", "%", "#"].contains
      spelling
  | text _ _ | number _ _ | bigint _ _ | regex _ _ => true
  | template _ _ | hashbang | fault _ => false

end NotebookCell.Script
