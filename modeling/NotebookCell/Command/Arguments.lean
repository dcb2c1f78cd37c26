/-!
# Command-line arguments

One optional path, a flag, and four options that take a value, each at most once. A value may be
attached with `=`; one that is not attached cannot look like an option.
-/

namespace NotebookCell.Command

structure Arguments where
  /-- the file of the cell; standard input is read without one -/
  input : Option String := none
  /-- a file with an options document -/
  options : Option String := none
  globalParam : Option String := none
  importParam : Option String := none
  /-- the file name that the characters of the cell are tagged with -/
  file : Option String := none
  summary : Bool := false
  deriving DecidableEq, Repr

/-- Why arguments do not lead to a run. -/
inductive Refusal where
  | help
  | usage
  deriving DecidableEq, Repr

namespace Arguments

/-- The argument cannot be a value by itself; a single dash can. -/
def looksLikeOption (arg : String) : Bool := arg.startsWith "-" && arg != "-"

/-- Sets what is not set yet. -/
def once {α : Type} (before : Option α) (value : α) : Except Refusal (Option α) :=
  if before.isSome then .error .usage else .ok (some value)

/-- Sets a path, which cannot be empty. -/
def oncePath (before : Option String) (path : String) : Except Refusal (Option String) :=
  if path.isEmpty then .error .usage else once before path

def setOption (a : Arguments) (name value : String) : Except Refusal Arguments :=
  match name with
  | "--options" => return { a with options := ← oncePath a.options value }
  | "--global" => return { a with globalParam := ← once a.globalParam value }
  | "--import" => return { a with importParam := ← once a.importParam value }
  | "--file" => return { a with file := ← once a.file value }
  | _ => .error .usage

def takesValue (name : String) : Bool :=
  ["--options", "--global", "--import", "--file"].contains name

def setInput (a : Arguments) (path : String) : Except Refusal Arguments :=
  return { a with input := ← oncePath a.input path }

/-- Sets what a word without a value stands for. -/
def setWord (a : Arguments) (word : String) : Except Refusal Arguments :=
  if word = "--help" ∨ word.startsWith "-h" then .error .help
  else if word = "--summary" ∧ !a.summary then .ok { a with summary := true }
  else .error .usage

/-- The name of an option and the value attached to it; a short name has none. -/
def splitAttached (arg : String) : String × Option String :=
  let (name, value) := arg.toList.span (· != '=')
  if !arg.startsWith "--" || value.isEmpty then (arg, none)
  else (String.ofList name, some (String.ofList (value.drop 1)))

/-- Reads the arguments after those that are set; all after `--` are paths. -/
def parseFrom (a : Arguments) : List String → Except Refusal Arguments
  | [] => .ok a
  | "--" :: paths => paths.foldlM setInput a
  | arg :: args =>
    if !looksLikeOption arg then do parseFrom (← a.setInput arg) args
    else
      let (name, attached) := splitAttached arg
      match attached, takesValue name, args with
      | some value, _, args => do parseFrom (← a.setOption name value) args
      | none, false, args => do parseFrom (← a.setWord arg) args
      | none, true, value :: args =>
        if looksLikeOption value then .error .usage
        else do parseFrom (← a.setOption name value) args
      | none, true, [] => .error .usage

def parse (args : List String) : Except Refusal Arguments := parseFrom {} args

end Arguments

end NotebookCell.Command
