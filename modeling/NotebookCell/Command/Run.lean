import NotebookCell.Command.Arguments
import NotebookCell.Json.Printer
import NotebookCell.AsyncCell

/-!
# The command

Turns one cell into an asynchronous function. Options come from flags, from an options document and
from the defaults, in this order of precedence. The world around the command is a parameter: the
contents of files and of standard input.
-/

namespace NotebookCell.Command

/-- Why something could not be read. -/
inductive ReadFault where
  | notFound
  | isDirectory
  | notDirectory
  | nameTooLong
  | notText
  | other (message : String)
  deriving DecidableEq, Repr

def ReadFault.message : ReadFault → String
  | notFound => "No such file or directory (os error 2)"
  | isDirectory => "Is a directory (os error 21)"
  | notDirectory => "Not a directory (os error 20)"
  | nameTooLong => "File name too long (os error 36)"
  | notText => "stream did not contain valid UTF-8"
  | other message => message

structure World where
  file : String → Except ReadFault ByteArray
  stdin : Except ReadFault ByteArray

inductive CommandFailure where
  /-- The thing of this description could not be read. -/
  | reading (description : String) (fault : ReadFault)
  | cell (f : Failure)

def CommandFailure.report (f : CommandFailure) : String :=
  let (message, cause) := match f with
    | .reading description fault => ("reading " ++ description, some fault.message)
    | .cell f => (f.message, f.cause?)
  "Error: " ++ message ++ (match cause with
    | some c => "\n\nCaused by:\n    " ++ c
    | none => "") ++ "\n"

structure Outcome where
  exitCode : Nat
  output : String
  errors : String
  deriving DecidableEq, Repr

/-! ## Input -/

def textOf (bytes : ByteArray) : Except ReadFault String :=
  match String.fromUTF8? bytes with
  | some s => .ok s
  | none => .error .notText

def World.fileText (w : World) (path description : String) : Except CommandFailure String :=
  (w.file path >>= textOf).mapError (CommandFailure.reading description)

/-- Options with those of the flags in place of their own. A file name falls back to the path of
the cell. -/
def Arguments.override (a : Arguments) (o : Options) : Options where
  globalParam := a.globalParam.getD o.globalParam
  importParam := a.importParam.getD o.importParam
  file := a.file <|> o.file <|> a.input

/-- The options before flags. -/
def World.baseOptions (w : World) (a : Arguments) : Except CommandFailure Options :=
  match a.options with
  | none => return {}
  | some path => do
    let text ← w.fileText path ("options from " ++ path)
    let o ← (ValidOptions.ofJson text).mapError CommandFailure.cell
    return o.options

def World.cell (w : World) (a : Arguments) : Except CommandFailure String :=
  match a.input with
  | some path => w.fileText path path
  | none => (w.stdin >>= textOf).mapError (CommandFailure.reading "cell from stdin")

/-! ## Output -/

def importValue (r : ImportedBinding) : Json.Value :=
  .object [("local", .text r.name), ("imported", .text r.imported), ("source", .text r.source)]

def defValue (r : Definition) : Json.Value :=
  .object [("local", .text r.name), ("kind", .text r.kind.word)]

def summaryValue (s : Summary) : Json.Value :=
  .object [("imports", .list (s.imports.map importValue)), ("effects", .list (s.effects.map .text)),
    ("defs", .list (s.defs.map defValue))]

/-- The document that `--summary` prints. -/
def reportValue (t : AsyncCell) : Json.Value :=
  .object [("code", .text t.code), ("global_param", .text t.globalParam),
    ("import_param", .text t.importParam), ("summary", summaryValue t.summary)]

def render (a : Arguments) (t : AsyncCell) : String :=
  (if a.summary then (reportValue t).pretty else t.code) ++ "\n"

/-! ## Runs -/

def asyncCell (o : Options) (cell : String) : Except Failure AsyncCell := do
  let valid ← o.validate.mapError Failure.invalidOption
  AsyncCell.ofText valid cell

def World.asyncCell (w : World) (a : Arguments) : Except CommandFailure AsyncCell := do
  let base ← w.baseOptions a
  let cell ← w.cell a
  (Command.asyncCell (a.override base) cell).mapError CommandFailure.cell

def usage : String := "Usage: notebook-cell [OPTIONS] [INPUT]\n"

def help : String :=
  "Turn a notebook cell into an async function expression\n\n" ++ usage ++
  "\nArguments:\n" ++
  "  [INPUT]  Cell source file; stdin when omitted\n" ++
  "\nOptions:\n" ++
  "      --options <OPTIONS>      JSON options file, overridden by the flags below\n" ++
  "      --global <GLOBAL_PARAM>  Name of the global object parameter\n" ++
  "      --import <IMPORT_PARAM>  Name of the import primitive parameter\n" ++
  "      --file <FILE>            File name recorded for every character of the cell\n" ++
  "      --summary                Print a JSON document with the code and the cell's imports and globals\n" ++
  "  -h, --help                   Print help\n"

def run (w : World) (args : List String) : Outcome :=
  match Arguments.parse args with
  | .error .help => ⟨0, help, ""⟩
  | .error .usage => ⟨2, "", "error: unexpected or missing arguments\n\n" ++ usage⟩
  | .ok a =>
    match w.asyncCell a with
    | .ok t => ⟨0, render a t, ""⟩
    | .error f => ⟨1, "", f.report⟩

end NotebookCell.Command
