/-!
# JSON faults

Why a text is not the JSON document that it should be, and where. Columns count bytes.
-/

namespace NotebookCell.Json

inductive Found where
  | null
  | boolean (value : Bool)
  | integer (value : Int)
  | real (digits : String)
  /-- the string as messages quote it -/
  | text (quoted : String)
  | sequence
  | map
  deriving DecidableEq, Repr

def Found.description : Found → String
  | .null => "null"
  | .boolean value => "boolean `" ++ toString value ++ "`"
  | .integer value => "integer `" ++ toString value ++ "`"
  | .real digits => "floating point `" ++ digits ++ "`"
  | .text quoted => "string " ++ quoted
  | .sequence => "sequence"
  | .map => "map"

inductive Problem where
  | endInValue
  | endInList
  | endInObject
  | endInText
  | valueExpected
  | wordExpected
  | colonExpected
  | listEndExpected
  | objectEndExpected
  | trailingComma
  | trailingCharacters
  | keyNotText
  | invalidNumber
  | numberOutOfRange
  | invalidEscape
  | loneSurrogate
  | unfinishedSurrogate
  | controlCharacter
  | wrongType (found : Found) (wanted : String)
  | repeatedField (name : String)
  deriving DecidableEq, Repr

def Problem.message : Problem → String
  | endInValue => "EOF while parsing a value"
  | endInList => "EOF while parsing a list"
  | endInObject => "EOF while parsing an object"
  | endInText => "EOF while parsing a string"
  | valueExpected => "expected value"
  | wordExpected => "expected ident"
  | colonExpected => "expected `:`"
  | listEndExpected => "expected `,` or `]`"
  | objectEndExpected => "expected `,` or `\x7d`"
  | trailingComma => "trailing comma"
  | trailingCharacters => "trailing characters"
  | keyNotText => "key must be a string"
  | invalidNumber => "invalid number"
  | numberOutOfRange => "number out of range"
  | invalidEscape => "invalid escape"
  | loneSurrogate => "lone leading surrogate in hex escape"
  | unfinishedSurrogate => "unexpected end of hex escape"
  | controlCharacter => "control character (\\u0000-\\u001F) found while parsing a string"
  | wrongType found wanted => "invalid type: " ++ found.description ++ ", expected " ++ wanted
  | repeatedField name => "duplicate field `" ++ name ++ "`"

/-- A line, counted from one, and the number of bytes before a place on it. -/
structure Position where
  line : Nat
  column : Nat
  deriving DecidableEq, Repr

/-- The position `offset` bytes behind `p`. -/
def Position.advance (p : Position) : List Char → (offset : Nat) → Position
  | [], offset => ⟨p.line, p.column + offset⟩
  | c :: cs, offset =>
    if offset < c.utf8Size then ⟨p.line, p.column + offset⟩
    else if c = '\n' then Position.advance ⟨p.line + 1, 0⟩ cs (offset - 1)
    else Position.advance ⟨p.line, p.column + c.utf8Size⟩ cs (offset - c.utf8Size)

structure Fault where
  problem : Problem
  position : Position
  deriving DecidableEq, Repr

def Fault.message (f : Fault) : String :=
  f.problem.message ++ " at line " ++ toString f.position.line ++ " column " ++
    toString f.position.column

end NotebookCell.Json
