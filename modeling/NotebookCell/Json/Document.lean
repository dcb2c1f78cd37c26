import NotebookCell.Json.Printer
import NotebookCell.Json.Reader

/-!
# Documents of strings, lists and objects

The reader of what the printer prints. Blanks and escapes may stand as in any JSON text; numbers,
`null`, `true` and `false` are refused.
-/

namespace NotebookCell.Json

open Reader

mutual

/-- A value; `fuel` bounds the number of values. -/
def readValue : (fuel : Nat) → Reader Value
  | 0 => fail .endInValue
  | fuel + 1 => do
    match ← peekToken with
    | none => fail .endInValue
    | some '\x22' =>
      eat
      return .text (← readText)
    | some '[' =>
      eat
      let items ← readItems fuel true
      endList
      return .list items
    | some '\x7b' =>
      eat
      let fields ← readFields fuel true
      endObject
      return .object fields
    | some _ => failNext .valueExpected

/-- The items of a list after its opening bracket. -/
def readItems : (fuel : Nat) → (first : Bool) → Reader (List Value)
  | 0, _ => fail .endInList
  | fuel + 1, first => do
    if !(← hasNextItem first) then return []
    let item ← readValue fuel
    return item :: (← readItems fuel false)

/-- The fields of an object after its opening brace. -/
def readFields : (fuel : Nat) → (first : Bool) → Reader (List (String × Value))
  | 0, _ => fail .endInObject
  | fuel + 1, first => do
    match ← nextKey? first with
    | none => return []
    | some key =>
      expectColon
      let value ← readValue fuel
      return (key, value) :: (← readFields fuel false)

end

namespace Value

def ofText (text : String) : Except Fault Value :=
  runOn (do readValue ((← get).rest.length + 1)) text

def field? (key : String) : Value → Option Value
  | .object fields => fields.lookup key
  | _ => none

def text? : Value → Option String
  | .text s => some s
  | _ => none

def list? : Value → Option (List Value)
  | .list items => some items
  | _ => none

end Value

end NotebookCell.Json
