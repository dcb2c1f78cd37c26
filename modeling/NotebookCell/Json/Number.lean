import NotebookCell.Json.Fault
import NotebookCell.Text.Decimal

/-!
# Numbers in JSON faults

How a fault shows the number that it found. A real number is computed in binary64 from its digits
and its exponent, and is rounded at every step: what is shown can differ from what was written in
the last digit.
-/

namespace NotebookCell.Json

def hexDigit? (c : Char) : Option Nat :=
  if '0' ≤ c && c ≤ '9' then some (c.toNat - 48)
  else if 'a' ≤ c && c ≤ 'f' then some (c.toNat - 87)
  else if 'A' ≤ c && c ≤ 'F' then some (c.toNat - 55)
  else none

def natOfDigits (cs : List Char) : Nat := cs.foldl (fun n c => n * 10 + (c.toNat - 48)) 0

/-! ## Digits and exponents -/

/-- The largest integer that is kept as one. -/
def largestInteger : Nat := Nat.pow 2 64 - 1

def largestExponent : Nat := Nat.pow 2 31 - 1

/-- The number `significand * 10 ^ exponent`. -/
structure Scientific where
  significand : Nat
  exponent : Int
  deriving DecidableEq, Repr

/-- Puts the digits of the integer part behind a significand. From the first one on that does not
fit, they only raise the exponent. -/
def appendWhole (significand : Nat) : List Char → Scientific
  | [] => ⟨significand, 0⟩
  | c :: cs =>
    let more := significand * 10 + (c.toNat - 48)
    if more ≤ largestInteger then appendWhole more cs else ⟨significand, cs.length + 1⟩

/-- Puts the digits behind the point behind a significand, up to the first one that does not fit. -/
def appendFraction (x : Scientific) : List Char → Scientific
  | [] => x
  | c :: cs =>
    let more := x.significand * 10 + (c.toNat - 48)
    if more ≤ largestInteger then appendFraction ⟨more, x.exponent - 1⟩ cs else x

/-- The value of the digits of an exponent, or the number of digits with which it is too large. -/
def exponentOf (value taken : Nat) : List Char → Except Nat Nat
  | [] => .ok value
  | c :: cs =>
    let more := value * 10 + (c.toNat - 48)
    if more ≤ largestExponent then exponentOf more (taken + 1) cs else .error (taken + 1)

/-! ## Values -/

/-- The largest power of ten that binary64 holds is `10 ^ largestPower`. -/
def largestPower : Nat := 308

/-- Divides a value by `10 ^ power`, in steps if that is no binary64 value. -/
def divideByPower (v : Decimal.Binary64) (power : Nat) : Option Decimal.Binary64 :=
  if power ≤ largestPower then do v.divide? (← Decimal.nearest? (Nat.pow 10 power) 1)
  else if v.significand = 0 then some v
  else do
    let v ← v.divide? (← Decimal.nearest? (Nat.pow 10 largestPower) 1)
    divideByPower v (power - largestPower)
termination_by power
decreasing_by simp_all only [largestPower]; omega

/-- The value of a number, rounded at every step; `none` if it is too large. -/
def Scientific.value? (x : Scientific) : Option Decimal.Binary64 := do
  let v ← Decimal.nearest? x.significand 1
  if x.exponent < 0 then divideByPower v x.exponent.natAbs
  else if x.exponent ≤ largestPower then
    v.times? (← Decimal.nearest? (Nat.pow 10 x.exponent.toNat) 1)
  else if v.significand = 0 then some v
  else none

/-! ## Texts -/

/-- The digits of a value and its exponent: positional from `1e-5` to below `1e16`, with a point in
any case, and with an exponent otherwise. -/
def realText (k : Nat) (p : Int) : String :=
  let ds := Nat.toDigits 10 k
  let point : Int := ds.length + p
  if k = 0 then "0.0"
  else if 0 ≤ p ∧ point ≤ 16 then String.ofList (ds ++ List.replicate p.toNat '0') ++ ".0"
  else if -5 < point ∧ point ≤ 16 then Decimal.positional k p
  else
    let tail := if ds.length = 1 then [] else '.' :: ds.drop 1
    String.ofList (ds.take 1 ++ tail) ++ "e" ++ toString (point - 1)

def realOf (negative : Bool) (x : Scientific) : Option Found :=
  x.value?.map fun v =>
    let (k, p) := v.shortest .even
    .real ((if negative then "-" else "") ++ realText k p)

/-- An integer from its digits. One that does not fit into 64 bits, and `-0`, is taken as a real
number. -/
def integerOf (negative : Bool) (digits : List Char) : Option Found :=
  let n := natOfDigits digits
  if negative && 0 < n && n ≤ Nat.pow 2 63 then some (.integer (-n))
  else if !negative && n ≤ largestInteger then some (.integer n)
  else realOf negative (appendWhole 0 digits)

end NotebookCell.Json
