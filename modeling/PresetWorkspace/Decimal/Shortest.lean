import PresetWorkspace.Decimal.Binary64

/-!
# The fewest digits that read back

`Binary64.shortest` writes a positive finite value with the fewest decimal
digits that still round to it. The numbers that round to a value form an
interval whose ends count iff the significand is even; on the grid of `n`
digits only the two neighbours of the value need a test, and the first grid
with a neighbour inside the interval wins.
-/

namespace PresetWorkspace

/-- The number `0.d₁d₂… · 10 ^ point`. -/
structure Decimal where
  digits : List Char
  point : Int
  deriving DecidableEq, Repr

inductive Tie where
  | toEven
  | up
  deriving DecidableEq

namespace Decimal

def ofScaled (n : Nat) (exponent : Int) : Decimal :=
  let all := Nat.toDigits 10 n
  ⟨(all.reverse.dropWhile (· == '0')).reverse, exponent + all.length⟩

end Decimal

namespace Binary64

/-- The power `p` of ten with `10 ^ (p - 1) ≤ num / den < 10 ^ p`. -/
def decimalPoint (num den : Nat) : Int :=
  if den ≤ num then (Nat.toDigits 10 (num / den)).length
  else 1 - (Nat.toDigits 10 ((den - 1) / num)).length

structure Rounding where
  low : Nat
  value : Nat
  high : Nat
  closed : Bool

/-- The interval of a value; below a power of two the places are half as wide. -/
def rounding (x : Binary64) : Rounding :=
  let place := Nat.pow 2 x.scale
  let below := if x.significand = hiddenBit && 0 < x.scale then 1 else 2
  { low := (4 * x.significand - below) * place
    value := 4 * x.significand * place
    high := (4 * x.significand + 2) * place
    closed := x.significand % 2 = 0 }

def Rounding.holds (r : Rounding) (n stepNum stepDen : Nat) : Bool :=
  let at' := n * stepNum
  if r.closed then r.low * stepDen ≤ at' && at' ≤ r.high * stepDen
  else r.low * stepDen < at' && at' < r.high * stepDen

/-- The neighbour of the value on a decimal grid that rounds to it, the nearer one if both do. -/
def Rounding.onGrid (r : Rounding) (tie : Tie) (stepNum stepDen : Nat) : Option Nat :=
  let n := r.value * stepDen / stepNum
  match r.holds n stepNum stepDen, r.holds (n + 1) stepNum stepDen with
  | false, false => none
  | true, false => some n
  | false, true => some (n + 1)
  | true, true =>
    let twice := 2 * r.value * stepDen
    let middle := (2 * n + 1) * stepNum
    if twice < middle then some n
    else if middle < twice then some (n + 1)
    else match tie with
      | .toEven => some (n + n % 2)
      | .up => some (n + 1)

def mostDigits : Nat := 17

def shortest (tie : Tie) (x : Binary64) : Decimal :=
  let r := x.rounding
  let quarter := 4 * unit
  let point := decimalPoint r.value quarter
  let onDigits (n : Nat) : Option Decimal :=
    let exponent := point - n
    let found := match exponent with
      | .ofNat k => r.onGrid tie (Nat.pow 10 k * quarter) 1
      | .negSucc k => r.onGrid tie quarter (Nat.pow 10 (k + 1))
    found.map (Decimal.ofScaled · exponent)
  ((List.range mostDigits).findSome? fun n => onDigits (n + 1)).getD ⟨['0'], 1⟩

end Binary64

end PresetWorkspace
