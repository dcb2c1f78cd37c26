import NotebookCell.Text.Identifier

/-!
# Options

How a cell is wrapped. Both parameters of the wrapper need plain names of their own.
-/

namespace NotebookCell

structure Options where
  /-- receives the object that all cells share -/
  globalParam : String := "__global"
  /-- receives the function that loads modules -/
  importParam : String := "__import"
  /-- the file name that the characters of the cell are tagged with -/
  file : Option String := none
  deriving DecidableEq, Repr

inductive OptionName where
  | globalParam
  | importParam
  deriving DecidableEq, Repr

def OptionName.text : OptionName → String
  | .globalParam => "global_param"
  | .importParam => "import_param"

inductive NameFault where
  | notPlain
  | reserved
  /-- both parameters have the name -/
  | taken
  deriving DecidableEq, Repr

structure OptionFault where
  option : OptionName
  value : String
  fault : NameFault
  deriving DecidableEq, Repr

def OptionFault.reason (f : OptionFault) : String :=
  "`" ++ f.value ++ match f.fault with
    | .notPlain => "` is not a plain identifier"
    | .reserved => "` is reserved"
    | .taken => "` is already the global parameter"

/-- Words that cannot name a parameter of the wrapper, besides `console`, which is one. -/
def Options.reservedNames : List String :=
  ["arguments", "await", "break", "case", "catch", "class", "const", "continue", "debugger",
   "default", "delete", "do", "else", "enum", "eval", "export", "extends", "false", "finally",
   "for", "function", "if", "implements", "import", "in", "instanceof", "interface", "let", "new",
   "null", "package", "private", "protected", "public", "return", "static", "super", "switch",
   "this", "throw", "true", "try", "typeof", "var", "void", "while", "with", "yield"]

def Options.nameFault? (name : String) : Option NameFault :=
  if !Identifier.isPlain name then some .notPlain
  else if reservedNames.contains name || name == "console" then some .reserved
  else none

/-- The first fault of the options. -/
def Options.fault? (o : Options) : Option OptionFault :=
  match nameFault? o.globalParam, nameFault? o.importParam with
  | some f, _ => some ⟨.globalParam, o.globalParam, f⟩
  | none, some f => some ⟨.importParam, o.importParam, f⟩
  | none, none =>
    if o.globalParam = o.importParam then some ⟨.importParam, o.importParam, .taken⟩ else none

/-- Options without a fault. -/
structure ValidOptions where
  options : Options
  valid : options.fault? = none

def Options.validate (o : Options) : Except OptionFault ValidOptions :=
  match h : o.fault? with
  | some f => .error f
  | none => .ok ⟨o, h⟩

end NotebookCell
