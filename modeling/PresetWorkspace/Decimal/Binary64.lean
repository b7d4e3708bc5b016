/-!
# Binary64 values

A value is its sign and the 63 bits below the sign: eleven bits of exponent
over 52 bits of fraction. Read as one number these bits order the magnitudes,
so rounding is one division in exact arithmetic (`ofRatio`) and infinity is a
clamp.
-/

namespace PresetWorkspace

/-- A binary64 value: its sign and the bits below the sign. -/
structure Binary64 where
  negative : Bool
  magnitude : Nat
  isWord : magnitude < Nat.pow 2 63 := by decide
  deriving DecidableEq

namespace Binary64

/-- The weight of the least exponent bit, which is also that of the hidden bit of a significand. -/
def hiddenBit : Nat := Nat.pow 2 52

def infiniteBits : Nat := 2047 * hiddenBit

def zero : Binary64 := ⟨false, 0, by decide⟩

instance : Inhabited Binary64 := ⟨zero⟩

def infinity : Binary64 := ⟨false, infiniteBits, by decide⟩

def notANumber : Binary64 := ⟨false, infiniteBits + hiddenBit / 2, by decide⟩

def negate (x : Binary64) : Binary64 := ⟨!x.negative, x.magnitude, x.isWord⟩

def isFinite (x : Binary64) : Bool := x.magnitude < infiniteBits

def isInfinite (x : Binary64) : Bool := x.magnitude = infiniteBits

/-! ## Magnitudes as fractions -/

def scale (x : Binary64) : Nat := x.magnitude / hiddenBit - 1

def significand (x : Binary64) : Nat := x.magnitude - x.scale * hiddenBit

def unit : Nat := Nat.pow 2 1074

def units (x : Binary64) : Nat := x.significand * Nat.pow 2 x.scale

/-! ## Rounding -/

/-- The quotient rounded to the nearest natural number, a half to the even neighbour. -/
def nearestEven (num den : Nat) : Nat :=
  let q := num / den
  let r := num % den
  if 2 * r < den then q
  else if den < 2 * r then q + 1
  else q + q % 2

/-- The bits nearest to `num / den`; magnitudes past the greatest finite one are infinite. -/
def nearestBits (num den : Nat) : Nat :=
  let whole := num * unit / den
  let scale := Nat.log2 whole - 52
  min infiniteBits (scale * hiddenBit + nearestEven (num * unit) (den * Nat.pow 2 scale))

theorem nearestBits_lt (num den : Nat) : nearestBits num den < Nat.pow 2 63 :=
  Nat.lt_of_le_of_lt (Nat.min_le_left _ _) (by decide)

def ofRatio (num den : Nat) : Binary64 := ⟨false, nearestBits num den, nearestBits_lt num den⟩

def ofInt (n : Int) : Binary64 :=
  let x := ofRatio n.natAbs 1
  if n < 0 then x.negate else x

def times (x y : Binary64) : Binary64 := ofRatio (x.units * y.units) (unit * unit)

def dividedBy (x y : Binary64) : Binary64 := ofRatio x.units y.units

def tenTo (k : Nat) : Binary64 := ofRatio (Nat.pow 10 k) 1

end Binary64

end PresetWorkspace
