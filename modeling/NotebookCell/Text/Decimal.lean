/-!
# Shortest decimal text of a number

A number is rounded to the nearest binary64 value and written with the fewest digits that read back
as that value, in positional notation. All arithmetic is exact.
-/

namespace NotebookCell.Decimal

/-- A finite non-negative binary64 value `significand * 2 ^ exponent`. -/
structure Binary64 where
  significand : Nat
  exponent : Int
  deriving DecidableEq, Repr

/-- The quotient rounded to the nearest integer, a tie to the even one. -/
def roundDiv (a b : Nat) : Nat :=
  let d := a / b
  let r := 2 * (a % b)
  if r < b then d else if b < r then d + 1 else d + d % 2

/-- The numerator and the denominator of `num / den / 2 ^ exponent`. -/
def scaled (num den : Nat) (exponent : Int) : Nat × Nat :=
  (num * Nat.pow 2 (-exponent).toNat, den * Nat.pow 2 exponent.toNat)

/-- The binary64 value nearest to `num / den`, or `none` if that is infinity. -/
def nearest? (num den : Nat) : Option Binary64 :=
  if num = 0 then some ⟨0, 0⟩
  else
    let guess : Int := (Nat.log2 num : Int) - Nat.log2 den - 53
    let (a, b) := scaled num den guess
    let exponent := max (-1074) (if a < b * Nat.pow 2 53 then guess else guess + 1)
    let (a, b) := scaled num den exponent
    let m := roundDiv a b
    let v : Binary64 :=
      if m = Nat.pow 2 53 then ⟨Nat.pow 2 52, exponent + 1⟩ else ⟨m, exponent⟩
    if 971 < v.exponent then none else some v

/-- The product rounded, or `none` if that is infinity. -/
def Binary64.times? (v w : Binary64) : Option Binary64 :=
  let exponent := v.exponent + w.exponent
  nearest? (v.significand * w.significand * Nat.pow 2 exponent.toNat) (Nat.pow 2 (-exponent).toNat)

/-- The quotient rounded, or `none` if that is infinity. -/
def Binary64.divide? (v w : Binary64) : Option Binary64 :=
  let exponent := v.exponent - w.exponent
  nearest? (v.significand * Nat.pow 2 exponent.toNat) (w.significand * Nat.pow 2 (-exponent).toNat)

/-- The value times `base` plus `digit`, rounded, or `none` if that is infinity. -/
def Binary64.append? (v : Binary64) (base digit : Nat) : Option Binary64 :=
  let den := Nat.pow 2 (-v.exponent).toNat
  nearest? (v.significand * base * Nat.pow 2 v.exponent.toNat + digit * den) den

/-- `a * 10 ^ p ≤ b * 2 ^ s`. -/
def decimalLe (a : Nat) (p : Int) (b : Nat) (s : Int) : Bool :=
  a * Nat.pow 10 p.toNat * Nat.pow 2 (-s).toNat ≤ b * Nat.pow 2 s.toNat * Nat.pow 10 (-p).toNat

/-- `b * 2 ^ s ≤ a * 10 ^ p`. -/
def decimalGe (a : Nat) (p : Int) (b : Nat) (s : Int) : Bool :=
  b * Nat.pow 2 s.toNat * Nat.pow 10 (-p).toNat ≤ a * Nat.pow 10 p.toNat * Nat.pow 2 (-s).toNat

/-- `a * 10 ^ p` reads back as the value: it lies between the midpoints to the neighbours, which
belong to the value if its significand is even. -/
def Binary64.readsBack (v : Binary64) (a : Nat) (p : Int) : Bool :=
  let s := v.exponent - 2
  let m := 4 * v.significand
  let low := if v.significand = Nat.pow 2 52 ∧ -1074 < v.exponent then m - 1 else m - 2
  if v.significand % 2 = 0 then decimalGe a p low s && decimalLe a p (m + 2) s
  else !decimalLe a p low s && !decimalGe a p (m + 2) s

/-- The integer part of `v / 10 ^ p`. -/
def Binary64.floorAt (v : Binary64) (p : Int) : Nat :=
  v.significand * Nat.pow 2 v.exponent.toNat * Nat.pow 10 (-p).toNat /
    (Nat.pow 2 (-v.exponent).toNat * Nat.pow 10 p.toNat)

/-- The position of the leading decimal digit; binary64 values exceed `10 ^ (-330)`. -/
def Binary64.leading (v : Binary64) : Int :=
  ((Nat.toDigits 10 (v.floorAt (-330))).length : Int) - 331

/-- Which of two decimals is taken that are equally near. -/
inductive Tie where
  | up
  | even
  deriving DecidableEq, Repr

/-- The nearer one to the value of `k` and `k + 1` on the grid of `10 ^ p`. -/
def Binary64.nearerOf (v : Binary64) (tie : Tie) (k : Nat) (p : Int) : Nat :=
  let fromMiddle := decimalLe (2 * k + 1) p (2 * v.significand) v.exponent
  let toMiddle := decimalGe (2 * k + 1) p (2 * v.significand) v.exponent
  if fromMiddle && toMiddle && tie = .even then k + k % 2
  else if fromMiddle then k + 1
  else k

/-- The neighbours of the value on the grid of `10 ^ p` that read back, the nearer one. -/
def Binary64.onGrid? (v : Binary64) (tie : Tie) (p : Int) : Option Nat :=
  let k := v.floorAt p
  let below := v.readsBack k p
  let above := v.readsBack (k + 1) p
  if below && above then some (v.nearerOf tie k p)
  else if below then some k
  else if above then some (k + 1)
  else none

/-- Tries the grids from the coarsest to the finest: `n` grids, from `10 ^ p` on. -/
def Binary64.shortestFrom (v : Binary64) (tie : Tie) : Nat → Int → Nat × Int
  | 0, p => (v.floorAt p, p)
  | n + 1, p =>
    match v.onGrid? tie p with
    | some k => (k, p)
    | none => v.shortestFrom tie n (p - 1)

/-- The digits and the exponent of the shortest decimal that reads back. The coarsest grid is that
of the next power of ten. -/
def Binary64.shortest (v : Binary64) (tie : Tie) : Nat × Int :=
  if v.significand = 0 then (0, 0) else v.shortestFrom tie 18 (v.leading + 1)

/-- `k * 10 ^ p` without an exponent. -/
def positional (k : Nat) (p : Int) : String :=
  let digits := Nat.toDigits 10 k
  if 0 ≤ p then String.ofList (digits ++ List.replicate p.toNat '0')
  else
    let places := (-p).toNat
    let padded := List.replicate (places + 1 - digits.length) '0' ++ digits
    let (whole, fraction) := padded.splitAt (padded.length - places)
    String.ofList (whole ++ '.' :: fraction)

/-- The shortest text that reads back as the value; `none` stands for infinity. -/
def text : Option Binary64 → String
  | some v =>
    let (k, p) := v.shortest .up
    positional k p
  | none => "inf"

/-- The binary64 value nearest to `n * 10 ^ e`. What lies far outside of the range is not
computed. -/
def nearestDecimal? (n : Nat) (e : Int) : Option Binary64 :=
  let magnitude : Int := e + (Nat.toDigits 10 n).length
  if n = 0 ∨ magnitude < -400 then some ⟨0, 0⟩
  else if 400 < magnitude then none
  else nearest? (n * Nat.pow 10 e.toNat) (Nat.pow 10 (-e).toNat)

end NotebookCell.Decimal
