import PresetWorkspace.Decimal.Shortest

/-!
# Written numbers

Two notations of a binary64 value. `Binary64.plain` always writes every place
and no fraction for a whole number. `Binary64.numeral` keeps a fraction
digit, and goes over to an exponent from `10 ^ 16` up and below `10 ^ -5`.
-/

namespace PresetWorkspace

namespace Decimal

def positional (d : Decimal) (whole : List Char) : List Char :=
  match d.point with
  | .ofNat k =>
    if d.digits.length ≤ k then
      d.digits ++ List.replicate (k - d.digits.length) '0' ++ whole
    else
      (if k = 0 then ['0'] else d.digits.take k) ++ '.' :: d.digits.drop k
  | .negSucc k => '0' :: '.' :: List.replicate (k + 1) '0' ++ d.digits

def scientific (d : Decimal) : List Char :=
  let fraction := d.digits.drop 1
  let exponent := d.point - 1
  d.digits.take 1 ++ (if fraction.isEmpty then [] else '.' :: fraction) ++
    'e' :: (if exponent < 0 then '-' else '+') :: Nat.toDigits 10 exponent.natAbs

end Decimal

namespace Binary64

def signed (x : Binary64) (zero : List Char) (magnitude : Binary64 → List Char) : List Char :=
  (if x.negative then ['-'] else []) ++ if x.magnitude = 0 then zero else magnitude x

/-- A finite value as a document writes it: a fraction digit at least, an exponent for the very large and small. -/
def numeral (x : Binary64) : List Char :=
  x.signed ['0', '.', '0'] fun x =>
    let d := x.shortest .toEven
    if -5 < d.point && d.point ≤ 16 then d.positional ['.', '0'] else d.scientific

/-- A value in running text: every place written out, a half between two decimals going up. -/
def plain (x : Binary64) : List Char :=
  if x.isFinite then x.signed ['0'] fun x => (x.shortest .up).positional []
  else if x.isInfinite then (if x.negative then ['-'] else []) ++ ['i', 'n', 'f']
  else ['N', 'a', 'N']

end Binary64

end PresetWorkspace
