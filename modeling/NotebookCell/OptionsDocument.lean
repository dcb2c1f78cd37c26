import NotebookCell.Json.Reader
import NotebookCell.Options

/-!
# Options documents

Options are written as a JSON object, or as a list of up to three values in the order of the
fields. What is not written keeps its default; fields of other names are passed over.
-/

namespace NotebookCell.Options

open Json Json.Reader

structure Written where
  globalParam : Option String := none
  importParam : Option String := none
  file : Option (Option String) := none

def Written.toOptions (w : Written) : Options where
  globalParam := w.globalParam.getD ({} : Options).globalParam
  importParam := w.importParam.getD ({} : Options).importParam
  file := w.file.getD ({} : Options).file

/-- Reads the value of a field that is not set yet. -/
def once {α : Type} (name : String) (before : Option α) (value : Reader α) : Reader (Option α) := do
  if before.isSome then failOpen (.repeatedField name)
  expectColon
  some <$> value

def field (w : Written) (key : String) : Reader Written := do
  if key = "global_param" then
    return { w with globalParam := ← once key w.globalParam textValue }
  if key = "import_param" then
    return { w with importParam := ← once key w.importParam textValue }
  if key = "file" then
    return { w with file := ← once key w.file optionalTextValue }
  expectColon
  skipValue
  return w

/-- The fields of an object after its opening brace; `fuel` bounds their number. -/
def fields : (fuel : Nat) → Written → (first : Bool) → Reader Written
  | 0, _, _ => fail .endInObject
  | fuel + 1, w, first => do
    match ← nextKey? first with
    | none => return w
    | some key => fields fuel (← field w key) false

/-- The values of a list after its opening bracket. -/
def values : Reader Written := do
  if !(← hasNextItem true) then return {}
  let w : Written := { globalParam := some (← textValue) }
  if !(← hasNextItem false) then return w
  let w := { w with importParam := some (← textValue) }
  if !(← hasNextItem false) then return w
  return { w with file := some (← optionalTextValue) }

def reader : Reader Options := closing do
  match ← peekToken with
  | none => fail .endInValue
  | some '[' =>
    eat
    Written.toOptions <$> thenClose values endList
  | some '\x7b' =>
    eat
    Written.toOptions <$> thenClose (do fields ((← get).rest.length + 1) {} true) endObject
  | some _ => refuse "struct TranspileOptions"

/-- Reads options; whether they are valid is not looked at. -/
def ofJson (text : String) : Except Json.Fault Options := reader.runOn text

end NotebookCell.Options
