import NotebookCell.Command.Run

/-!
# The program

Reads what the command asks for, prints what it answers and exits with its code.
-/

namespace NotebookCell

open Command

/-- The system's number of an error; some calls report it with its sign changed. -/
def systemCode (code : UInt32) : Nat :=
  if code.toNat < Nat.pow 2 31 then code.toNat else Nat.pow 2 32 - code.toNat

def readFault : IO.Error → ReadFault
  | .noFileOrDirectory .. => .notFound
  | .inappropriateType _ code details =>
    if systemCode code = 20 then .notDirectory
    else if systemCode code = 21 then .isDirectory
    else .other details
  | .invalidArgument _ code details =>
    if systemCode code = 36 then .nameTooLong else .other details
  | e => .other (toString e)

def attemptRead (act : IO ByteArray) : BaseIO (Except ReadFault ByteArray) := do
  match ← act.toBaseIO with
  | .ok bytes => return .ok bytes
  | .error e => return .error (readFault e)

partial def readAll (stream : IO.FS.Stream) (sofar : ByteArray) : IO ByteArray := do
  let more ← stream.read 65536
  if more.isEmpty then return sofar
  readAll stream (sofar ++ more)

/-- The files that the arguments name, read beforehand. -/
def readFiles (args : List String) : BaseIO (List (String × Except ReadFault ByteArray)) := do
  match Arguments.parse args with
  | .error _ => return []
  | .ok a =>
    (a.input.toList ++ a.options.toList).mapM fun (path : String) => do
      return (path, ← attemptRead (IO.FS.readBinFile path))

/-- Standard input is read only if no file is named. -/
def readStdin (args : List String) : BaseIO (Except ReadFault ByteArray) := do
  match Arguments.parse args with
  | .ok { input := none, .. } => attemptRead do readAll (← IO.getStdin) .empty
  | _ => return .ok .empty

def main (args : List String) : IO UInt32 := do
  let files ← readFiles args
  let stdin ← readStdin args
  let world : World := ⟨fun path => (files.lookup path).getD (.error .notFound), stdin⟩
  let outcome := run world args
  (← IO.getStdout).putStr outcome.output
  (← IO.getStderr).putStr outcome.errors
  return outcome.exitCode.toUInt32

end NotebookCell

def main (args : List String) : IO UInt32 := NotebookCell.main args
