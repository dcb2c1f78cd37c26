import NotebookCell.Script.Tree

/-!
# Summaries

What a cell imports and which names it publishes on the global object.
-/

namespace NotebookCell

structure ImportedBinding where
  name : String
  /-- `default`, `*` for a namespace, or the name that the module exports -/
  imported : String
  /-- the module specifier as written, with its quotes -/
  source : String
  deriving DecidableEq, Repr

inductive DefinitionKind where
  | variable (kind : Script.VarKind)
  | function
  | classDef
  deriving DecidableEq, Repr

def DefinitionKind.word : DefinitionKind → String
  | .variable kind => kind.word
  | .function => "function"
  | .classDef => "class"

structure Definition where
  name : String
  kind : DefinitionKind
  deriving DecidableEq, Repr

structure Summary where
  imports : List ImportedBinding
  /-- the specifiers of modules imported for their effects only -/
  effects : List String
  defs : List Definition
  deriving DecidableEq, Repr

def Summary.globals (s : Summary) : List String := s.defs.map (·.name)

end NotebookCell
