import NotebookCell.Imports
import NotebookCell.OptionsDocument
import NotebookCell.Script.Fault
import NotebookCell.Wrapper

/-!
# Failures

Everything that ends the work on a cell, with its wording.
-/

namespace NotebookCell

inductive Failure where
  /-- The cell does not parse; the position is known if the fault goes back to the cell. -/
  | syntaxFault (position : Option Nat) (error : Script.SyntaxError)
  | unsupported (u : Unsupported)
  | invalidOption (f : OptionFault)
  | malformedOptions (f : Json.Fault)
  /-- The wrapped text is no wrapper. -/
  | shape (f : ShapeFault)
  /-- An edit left the text. -/
  | edit (f : EditFault)
  deriving DecidableEq, Repr

def Failure.message : Failure → String
  | .syntaxFault position error =>
    "syntax error" ++ (match position with
      | some p => " at offset " ++ toString p
      | none => "") ++ ": " ++ error.message
  | .unsupported u =>
    "unsupported syntax at offset " ++ toString u.position ++ ": " ++ u.construct.name
  | .invalidOption f => "invalid option `" ++ f.option.text ++ "`: " ++ f.reason
  | .malformedOptions f => "malformed transpiler options: " ++ f.message
  | .shape f => "wrapped cell does not have the expected shape: " ++ f.message
  | .edit f => f.message

/-- The failure behind the failure. -/
def Failure.cause? : Failure → Option String
  | .malformedOptions f => some f.message
  | _ => none

def ValidOptions.ofJson (text : String) : Except Failure ValidOptions := do
  let o ← (Options.ofJson text).mapError Failure.malformedOptions
  o.validate.mapError Failure.invalidOption

end NotebookCell
