import PresetWorkspace.Uuid

/-!
# Keys and cells

Rows name each other by keys. A key is an id; an edit may also leave another
text there, or nothing. The two number columns hold cells, which an edit may
fill with a text that is no number.
-/

namespace PresetWorkspace.Workspace

inductive Key where
  | none
  | id (u : Uuid)
  | text (s : String)
  deriving DecidableEq

namespace Key

def ofText (s : String) : Key :=
  match Uuid.ofText? s with
  | some u => if u.text = s then .id u else .text s
  | Option.none => .text s

def ofId? : Option Uuid → Key
  | some u => .id u
  | Option.none => .none

end Key

inductive Cell where
  | integer (n : Int)
  | real
  | text (s : String)
  deriving DecidableEq

inductive Value where
  | null
  | integer (n : Int)
  | text (s : String)
  deriving DecidableEq

namespace Value

def text? : Value → Option String
  | .null => none
  | .integer n => some (toString n)
  | .text s => some s

def key (v : Value) : Key :=
  match v.text? with
  | some s => .ofText s
  | none => .none

def isPadding (c : Char) : Bool := c = ' ' || ('\t' ≤ c && c ≤ '\r')

def exponent? : List Char → Option Int
  | [] => some 0
  | e :: cs =>
    let (down, cs) := match cs with
      | '-' :: cs => (true, cs)
      | '+' :: cs => (false, cs)
      | cs => (false, cs)
    if (e = 'e' ∨ e = 'E') ∧ ¬ cs.isEmpty ∧ cs.all Char.isDigit then
      let n : Int := Nat.ofDigitChars 10 cs 0
      some (if down then -n else n)
    else none

/-- A sign, digits with at most one point, and an exponent: all digits as one number, and its power of ten. -/
def decimal? (cs : List Char) : Option (Int × Int) :=
  let (negative, cs) := match cs with
    | '-' :: cs => (true, cs)
    | '+' :: cs => (false, cs)
    | cs => (false, cs)
  let (whole, cs) := cs.span Char.isDigit
  let (fraction, cs) := match cs with
    | '.' :: cs => cs.span Char.isDigit
    | cs => ([], cs)
  let n : Int := Nat.ofDigitChars 10 (whole ++ fraction) 0
  if (whole ++ fraction).isEmpty then none
  else (exponent? cs).map fun e => (if negative then -n else n, e - fraction.length)

/-- The integers of 64 bits lie below this and not below its negation. -/
def wordLimit : Int := Nat.pow 2 63

/-- The integer that a decimal text stands for if it has 64 bits, or `real` for another number. -/
def number? (s : String) : Option Cell :=
  let cs := ((s.toList.dropWhile isPadding).reverse.dropWhile isPadding).reverse
  (decimal? cs).map fun (n, exponent) =>
    let whole? : Option Int := match exponent with
      | .ofNat k => if n = 0 then some 0 else if k ≤ 18 then some (n * Nat.pow 10 k) else none
      | .negSucc k =>
        if n = 0 then some 0
        else if k ≤ s.length ∧ n % Nat.pow 10 (k + 1) = 0 then some (n / Nat.pow 10 (k + 1))
        else none
    match whole? with
    | some n => if -wordLimit ≤ n ∧ n < wordLimit then .integer n else .real
    | none => .real

def cell? : Value → Option Cell
  | .null => none
  | .integer n => some (.integer n)
  | .text s => some ((number? s).getD (.text s))

end Value

end PresetWorkspace.Workspace
