/-!
# Printing JSON

A value is printed over several lines, with two blanks per level. Empty lists and objects stay on
their line.
-/

namespace NotebookCell.Json

inductive Value where
  | text (s : String)
  | list (items : List Value)
  | object (fields : List (String × Value))

/-! ## Strings -/

def hexDigit (n : Nat) : Char := "0123456789abcdef".toList.getD n '0'

/-- A character of a string; quotes, backslashes and control characters are escaped. -/
def escapeChar (c : Char) : List Char :=
  match c with
  | '\x22' => ['\\', '\x22']
  | '\\' => ['\\', '\\']
  | '\x08' => ['\\', 'b']
  | '\x0c' => ['\\', 'f']
  | '\n' => ['\\', 'n']
  | '\r' => ['\\', 'r']
  | '\t' => ['\\', 't']
  | c =>
    if c.toNat < 0x20 then
      ['\\', 'u', '0', '0', hexDigit (c.toNat / 16), hexDigit (c.toNat % 16)]
    else [c]

def printText (s : String) : List Char := '\x22' :: (s.toList.flatMap escapeChar ++ ['\x22'])

/-! ## Values -/

def newLine (level : Nat) : List Char := '\n' :: List.replicate (2 * level) ' '

mutual

def Value.print (level : Nat) : Value → List Char
  | .text s => printText s
  | .list [] => ['[', ']']
  | .list (item :: items) =>
    '[' :: (printItems (level + 1) (item :: items) ++ newLine level ++ [']'])
  | .object [] => ['\x7b', '\x7d']
  | .object (field :: fields) =>
    '\x7b' :: (printFields (level + 1) (field :: fields) ++ newLine level ++ ['\x7d'])

def printItems (level : Nat) : List Value → List Char
  | [] => []
  | [item] => newLine level ++ item.print level
  | item :: items => newLine level ++ item.print level ++ ',' :: printItems level items

def printFields (level : Nat) : List (String × Value) → List Char
  | [] => []
  | [(key, value)] => newLine level ++ printText key ++ ':' :: ' ' :: value.print level
  | (key, value) :: fields =>
    newLine level ++ printText key ++ ':' :: ' ' :: value.print level ++
      ',' :: printFields level fields

end

def Value.pretty (v : Value) : String := String.ofList (v.print 0)

end NotebookCell.Json
