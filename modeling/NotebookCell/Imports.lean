import NotebookCell.Script.Module
import NotebookCell.Summary
import NotebookCell.Text.Draft

/-!
# Imports

An import declaration becomes an awaited call of the import function. What it binds is bound by a
`var` declaration with one pattern per specifier, `var {_:{a:b}, _:c} = {_: await …}`, so that a
module may be taken apart several times.
-/

namespace NotebookCell

open Script TaggedText

/-! ## Unsupported constructs -/

/-- What parses and still has no place in a cell. -/
inductive Construct where
  | exportDeclaration
  | importMeta
  deriving DecidableEq, Repr

def Construct.name : Construct → String
  | .exportDeclaration => "export declaration"
  | .importMeta => "import.meta"

/-- A construct that is not supported, and its position in the cell. -/
structure Unsupported where
  construct : Construct
  position : Nat
  deriving DecidableEq, Repr

/-- Where the item is an export declaration, its position. -/
def Script.ModuleItem.exportPosition? : ModuleItem → Option Nat
  | .exportDecl span _ => some span.start
  | _ => none

/-- The first export declaration, else the first `import.meta`. -/
def unsupported? (m : Module) : Option Unsupported :=
  match m.items.findSome? ModuleItem.exportPosition? with
  | some position => some ⟨.exportDeclaration, position⟩
  | none => m.tree.importMeta?.map fun span => ⟨.importMeta, span.start⟩

/-! ## Declarations -/

structure ImportSite where
  draft : Draft
  /-- where the text of the module starts -/
  base : Nat
  importParam : String

def ImportSite.excerpt (site : ImportSite) (span : Span) : TaggedText :=
  site.draft.slice (span.shift site.base)

/-- `await I("m")`, with the attributes as a second argument. -/
def ImportSite.call (site : ImportSite) (d : ImportDecl) : TaggedText :=
  let attributes := match d.attributes with
    | some e => inserted ", \x7b with: " ++ site.excerpt e.span ++ inserted " \x7d"
    | none => []
  inserted ("await " ++ site.importParam ++ "(") ++ site.excerpt d.source ++ attributes ++
    inserted ")"

def ImportSite.entry (site : ImportSite) : ImportSpecifier → TaggedText
  | .named (some imported) id =>
    inserted "_:\x7b" ++ site.excerpt imported.span ++ inserted ":" ++ site.excerpt id.span ++
      inserted "\x7d"
  | .named none id => inserted "_:\x7b" ++ site.excerpt id.span ++ inserted "\x7d"
  | .default id => inserted "_:\x7bdefault:" ++ site.excerpt id.span ++ inserted "\x7d"
  | .namespace id => inserted "_:" ++ site.excerpt id.span

def ImportSite.importedName (site : ImportSite) : ImportSpecifier → String
  | .named (some (.ident id)) _ => id.name
  | .named (some (.text span)) _ => (site.excerpt span).text
  | .named none id => id.name
  | .default _ => "default"
  | .namespace _ => "*"

def ImportSite.row (site : ImportSite) (d : ImportDecl) (s : ImportSpecifier) : ImportedBinding :=
  ⟨s.binding.name, site.importedName s, (site.excerpt d.source).text⟩

/-- `var {…} = {_: …}`, or the bare call where nothing is bound. -/
def ImportSite.rendering (site : ImportSite) (d : ImportDecl) : TaggedText :=
  if d.specifiers.isEmpty then site.call d
  else
    inserted "var \x7b" ++ (inserted ", ").intercalate (d.specifiers.map site.entry) ++
      inserted "\x7d = \x7b_: " ++ site.call d ++ inserted "\x7d"

/-- A semicolon right behind the declaration ends it, unless the declaration has its own. -/
def ImportSite.endedOutside (site : ImportSite) (d : ImportDecl) : Bool :=
  let range := d.span.shift site.base
  let covered := (site.draft.slice range).chars.getLast? == some ';'
  let follows := (site.draft.slot? range.stop).any fun s => s.text == ";"
  !covered && follows

def ImportSite.edit (site : ImportSite) (d : ImportDecl) : Edit :=
  .replace (d.span.shift site.base)
    (site.rendering d ++ if site.endedOutside d then [] else inserted ";")

/-! ## Modules -/

structure AwaitedImports where
  edits : List Edit
  rows : List ImportedBinding
  effects : List String

def AwaitedImports.count (r : AwaitedImports) : Nat := r.edits.length

def Script.Module.imports (m : Module) : List ImportDecl :=
  m.items.filterMap fun
    | .importDecl d => some d
    | _ => none

def ImportSite.awaited (site : ImportSite) (m : Module) : Except Unsupported AwaitedImports :=
  match unsupported? m with
  | some u => .error u
  | none => .ok {
      edits := m.imports.map site.edit
      rows := m.imports.flatMap fun d => d.specifiers.map (site.row d)
      effects := (m.imports.filter (·.specifiers.isEmpty)).map fun d =>
        (site.excerpt d.source).text }

end NotebookCell
