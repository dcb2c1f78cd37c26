import NotebookCell.Script.Token

/-!
# Readings

A reading takes characters off the front of a text. The characters are a list and the position
counts their bytes. Faults that do not spoil what was read are reported beside it.
-/

namespace NotebookCell.Script

structure Reading (α : Type) where
  result : α
  rest : List Char
  position : Nat
  /-- the last one found first -/
  faults : List Fault

def lexicalFault (position : Nat) (error : LexicalError) : Fault := ⟨position, .lexical error⟩

/-- The characters of `cs` before its tail `rest`, as text. -/
def consumed (cs rest : List Char) : String := String.ofList (cs.take (cs.length - rest.length))

/-- The number of bytes of `cs` before its tail `rest`. -/
def consumedBytes (cs rest : List Char) : Nat := byteLength cs - byteLength rest

/-! ## Digits -/

def hexValue? (c : Char) : Option Nat :=
  if '0' ≤ c && c ≤ '9' then some (c.toNat - 48)
  else if 'a' ≤ c && c ≤ 'f' then some (c.toNat - 87)
  else if 'A' ≤ c && c ≤ 'F' then some (c.toNat - 55)
  else none

def isDigitOf (base : Nat) (c : Char) : Bool := (hexValue? c).any (· < base)

/-- The value of digits, the last one being given first. -/
def digitsValue (base : Nat) (digits : List Char) : Nat :=
  digits.foldr (fun c n => n * base + (hexValue? c).getD 0) 0

/-! ## Line breaks -/

def isLineBreak (c : Char) : Bool :=
  c == '\n' || c == '\r' || c.toNat == 0x2028 || c.toNat == 0x2029

end NotebookCell.Script
