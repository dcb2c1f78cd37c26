import NotebookCell.Failure
import NotebookCell.Imports
import NotebookCell.Publish
import NotebookCell.Script.Parse
import NotebookCell.Wrapper

/-!
# Cells as asynchronous functions

The cell is read as a module and wrapped, and its imports become calls. The text that results is
read again, as a script, for its declarations to be published and its last expression to be
returned. Edits of each reading apply to the text that was read.
-/

namespace NotebookCell

open Script TaggedText

structure AsyncCell where
  source : TaggedText
  summary : Summary
  /-- the names of the parameters, different from all names of the cell -/
  globalParam : String
  importParam : String
  deriving DecidableEq, Repr

def AsyncCell.code (t : AsyncCell) : String := t.source.text

def parameterNames (o : Options) (taken : List String) : String × String :=
  let globalParam := freshName o.globalParam taken
  (globalParam, freshName o.importParam (globalParam :: taken))

/-- A cell in its wrapper. -/
def cellInWrapper (cell : String) (file : Option String) (head : String) : TaggedText :=
  inserted head ++ typed cell file ++ inserted wrapperTail

def ImportSite.ofCell (cell : String) (file : Option String) (head importParam : String) :
    ImportSite :=
  ⟨.ofText (cellInWrapper cell file head), head.utf8ByteSize, importParam⟩

def ImportSite.apply (site : ImportSite) (m : Module) :
    Except Failure (AwaitedImports × Draft) := do
  let r ← (site.awaited m).mapError Failure.unsupported
  let draft ← (site.draft.applyAll r.edits).mapError Failure.edit
  return (r, draft)

def readWrapped (draft : Draft) (relocate : Nat → Option Nat) : Except Failure (List Tree) := do
  let script ← (Program.ofText draft.text).mapError fun f =>
    Failure.syntaxFault (relocate f.position) f.error
  (cellStatements script).mapError Failure.shape

/-! ## Between the readings -/

/-- A wrapped cell without import declarations, which is a script. -/
structure AwaitingCell where
  globalParam : String
  importParam : String
  imported : AwaitedImports
  draft : Draft

def AwaitingCell.ofModule (o : Options) (cell : String) (m : Module) :
    Except Failure AwaitingCell := do
  let (globalParam, importParam) := parameterNames o m.tree.names
  let site := ImportSite.ofCell cell o.file (wrapperHead globalParam importParam) importParam
  let (imported, draft) ← site.apply m
  return ⟨globalParam, importParam, imported, draft.settle⟩

def AwaitingCell.statements (c : AwaitingCell) : Except Failure (List Tree) :=
  readWrapped c.draft c.draft.offsetBehind?

def AwaitingCell.edits (c : AwaitingCell) (body : List Tree) : List Edit :=
  (publishBody c.globalParam body).edits ++ returnEdits body

def AwaitingCell.publish (c : AwaitingCell) (body : List Tree) : Except Failure AsyncCell := do
  let draft ← (c.draft.applyAll (c.edits body)).mapError Failure.edit
  let defs := (publishBody c.globalParam body).defs
  return ⟨draft.source, ⟨c.imported.rows, c.imported.effects, defs⟩, c.globalParam, c.importParam⟩

def AsyncCell.ofText (o : ValidOptions) (cell : String) : Except Failure AsyncCell := do
  let m ← (Module.ofText cell).mapError fun f => Failure.syntaxFault (some f.position) f.error
  let c ← AwaitingCell.ofModule o.options cell m
  let body ← c.statements
  c.publish body

end NotebookCell
