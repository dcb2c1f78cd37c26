import NotebookCell.Script.Expr

/-!
# Modules and scripts

A module is a list of items: import declarations, export declarations and statements. A script is a
list of statements.
-/

namespace NotebookCell.Script

/-! ## Items -/

inductive ExportName where
  | ident (id : Ident)
  | text (span : Span)
  deriving DecidableEq, Repr

def ExportName.span : ExportName → Span
  | .ident id => id.span
  | .text span => span

inductive ImportSpecifier where
  /-- `{a}` or `{a as b}` -/
  | named (imported : Option ExportName) (id : Ident)
  | default (id : Ident)
  | namespace (id : Ident)
  deriving DecidableEq, Repr

def ImportSpecifier.binding : ImportSpecifier → Ident
  | .named _ id => id
  | .default id => id
  | .namespace id => id

structure ImportDecl where
  span : Span
  specifiers : List ImportSpecifier
  /-- the span of the specifier string -/
  source : Span
  /-- the object after `with` -/
  attributes : Option Expr

inductive ModuleItem where
  | stmt (t : Tree)
  | importDecl (d : ImportDecl)
  | exportDecl (span : Span) (children : List Tree)

structure Module where
  span : Span
  items : List ModuleItem

/-- A text that is not a module. -/
structure Program where
  body : List Tree

/-! ## The complete tree -/

def ExportName.tree : ExportName → Tree
  | .ident id => .ofIdent id
  | .text span => .node (.key "") span []

def ImportSpecifier.tree : ImportSpecifier → Tree
  | .named (some imported) id =>
    .node .importSpecifier (imported.span.to id.span) [.ofIdent id, imported.tree]
  | .named none id => .node .importSpecifier id.span [.ofIdent id]
  | .default id => .node .importSpecifier id.span [.ofIdent id]
  | .namespace id => .node .importSpecifier id.span [.ofIdent id]

/-- The attribute object is no expression, its values are. -/
def attributesTree : Option Expr → Tree
  | some e => .node .attributes e.span e.tree.children
  | none => .absent

def ImportDecl.tree (d : ImportDecl) : Tree :=
  .node .importDecl d.span
    (d.specifiers.map ImportSpecifier.tree ++
      [.node .importSource d.source [], attributesTree d.attributes])

def ModuleItem.tree : ModuleItem → Tree
  | .stmt t => t
  | .importDecl d => d.tree
  | .exportDecl span children => .node .exportDecl span children

def Module.tree (m : Module) : Tree := .node .module m.span (m.items.map ModuleItem.tree)

end NotebookCell.Script
