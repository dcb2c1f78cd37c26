import NotebookCell.Script.Module
import NotebookCell.Text.Tagged

/-!
# Wrappers

A wrapped cell is a script of one expression, an asynchronous arrow function in parentheses whose
body is the cell.
-/

namespace NotebookCell

open Script

def wrapperHead (globalParam importParam : String) : String :=
  "(async (" ++ globalParam ++ ", " ++ importParam ++ ", console) => \x7b\n"

def wrapperTail : String := "\n\x7d)"

/-- Why a script is no wrapped cell. -/
inductive ShapeFault where
  | notOneExpression
  | notParenthesized
  | notArrow
  | notAsyncBlock
  deriving DecidableEq, Repr

def ShapeFault.message : ShapeFault → String
  | notOneExpression => "expected a single expression statement"
  | notParenthesized => "expected a parenthesized wrapper"
  | notArrow => "expected an arrow function"
  | notAsyncBlock => "expected an async arrow function with a block body"

def blockBody? (parts : List Tree) : Option (List Tree) :=
  match parts.getLast? with
  | some (.node .block _ body) => some body
  | _ => none

def cellStatements (p : Program) : Except ShapeFault (List Tree) :=
  match p.body with
  | [.node .exprStmt _ [e]] =>
    match e with
    | .node (.expr .paren) _ [inner] =>
      match inner with
      | .node .arrowExpr _ [.node (.arrow isAsync) _ parts] =>
        match isAsync, blockBody? parts with
        | true, some body => .ok body
        | _, _ => .error .notAsyncBlock
      | _ => .error .notArrow
    | _ => .error .notParenthesized
  | _ => .error .notOneExpression

/-! ## Parameter names -/

/-- `base$n` -/
def numbered (base : String) (n : Nat) : String := base ++ "$" ++ toString n

/-- The name itself, or its first numbered form that is not taken. One of the first
`taken.length + 1` forms is free, since they are different names. -/
def freshName (base : String) (taken : List String) : String :=
  if taken.contains base then
    (((List.range' 1 (taken.length + 1)).map (numbered base)).find? fun name =>
      !taken.contains name).getD base
  else base

end NotebookCell
