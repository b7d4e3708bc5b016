import PresetWorkspace.Color
import PresetWorkspace.Document.Fault

/-!
# Lexemes of a document

Blanks, words, strings and numbers of a JSON text. Every reader takes the
unread characters and gives a value with those it has left.
-/

namespace PresetWorkspace.Document

abbrev Reading (α : Type) := Except Fault (α × List Char)

/-! ## Blanks and words -/

def isBlank (c : Char) : Bool := c = ' ' || c = '\n' || c = '\t' || c = '\r'

def skipBlanks (cs : List Char) : List Char := cs.dropWhile isBlank

def readWord : List Char → List Char → Except Fault (List Char)
  | [], rest => .ok rest
  | _ :: _, [] => .error (.here .endInValue [])
  | l :: ls, c :: rest => if c = l then readWord ls rest else .error (.next .badWord (c :: rest))

/-! ## Strings -/

def readHex (rest : List Char) : Reading Nat :=
  match rest with
  | a :: b :: c :: d :: rest' =>
    if [a, b, c, d].all isHexDigit then .ok (([a, b, c, d].foldl (fun n x => 16 * n + hexValue x) 0), rest')
    else .error (.placed .badEscape (byteCount rest - 4))
  | _ =>
    if 4 ≤ byteCount rest then .error (.placed .badEscape (byteCount rest - 4))
    else .error (.here .endInString [])
where
  hexValue (c : Char) : Nat :=
    if c ≤ '9' then c.toNat - '0'.toNat else if c ≤ 'F' then c.toNat - 'A'.toNat + 10 else c.toNat - 'a'.toNat + 10

def shortEscape? (c : Char) : Option Char :=
  match c with
  | '"' => some '"'
  | '\\' => some '\\'
  | '/' => some '/'
  | 'b' => some '\x08'
  | 'f' => some '\x0c'
  | 'n' => some '\n'
  | 'r' => some '\r'
  | 't' => some '\t'
  | _ => none

def readLowSurrogate (high : Nat) : List Char → Reading Char
  | [] => .error (.here .endInString [])
  | '\\' :: [] => .error (.here .endInString [])
  | '\\' :: 'u' :: rest =>
    (readHex rest).bind fun (low, rest) =>
      if 0xDC00 ≤ low ∧ low ≤ 0xDFFF then
        .ok (Char.ofNat ((high - 0xD800) * 0x400 + (low - 0xDC00) + 0x10000), rest)
      else .error (.here .loneSurrogate rest)
  | '\\' :: rest => .error (.next .cutSurrogate rest)
  | rest => .error (.next .cutSurrogate rest)

def readEscape : List Char → Reading Char
  | [] => .error (.here .endInString [])
  | 'u' :: rest =>
    (readHex rest).bind fun (n, rest) =>
      if 0xDC00 ≤ n ∧ n ≤ 0xDFFF then .error (.here .loneSurrogate rest)
      else if 0xD800 ≤ n ∧ n ≤ 0xDBFF then readLowSurrogate n rest
      else .ok (Char.ofNat n, rest)
  | c :: rest =>
    match shortEscape? c with
    | some c => .ok (c, rest)
    | none => .error (.next .badEscape (c :: rest))

/-- The characters of a string up to the closing quote; the first `skip` ones belong to an escape before. -/
def readStringChars : (skip : Nat) → List Char → Reading (List Char)
  | _, [] => .error (.here .endInString [])
  | skip + 1, _ :: rest => readStringChars skip rest
  | 0, c :: rest =>
    if c = '"' then .ok ([], rest)
    else if c = '\\' then
      match readEscape rest with
      | .error fault => .error fault
      | .ok (e, rest') => (readStringChars (rest.length - rest'.length) rest).map fun (cs, r) => (e :: cs, r)
    else if c.toNat < 0x20 then .error (.here .controlCharacter rest)
    else (readStringChars 0 rest).map fun (cs, r) => (c :: cs, r)

def readString (rest : List Char) : Reading String :=
  (readStringChars 0 rest).map fun (cs, r) => (String.ofList cs, r)

/-! ## Numbers -/

def spanDigits (cs : List Char) : List Char × List Char := cs.span Char.isDigit

def digitValue (c : Char) : Nat := c.toNat - '0'.toNat

def significandLimit : Nat := Nat.pow 2 64
def exponentLimit : Nat := Nat.pow 2 31

/-- Takes digits into a number as long as it stays below a limit; gives those left over. -/
def gather (limit : Nat) : Nat → List Char → Nat × List Char
  | n, [] => (n, [])
  | n, d :: ds => if 10 * n + digitValue d < limit then gather limit (10 * n + digitValue d) ds else (n, d :: ds)

def greatestPower : Nat := 308

/-- A significand times a power of ten, by one rounded product or by one or two rounded quotients. -/
def scaled (significand : Nat) (exponent : Int) : Option Binary64 :=
  let x := Binary64.ofRatio significand 1
  match exponent with
  | .ofNat k =>
    if significand = 0 then some x
    else if k ≤ greatestPower then
      let y := x.times (.tenTo k)
      if y.isFinite then some y else none
    else none
  | .negSucc k =>
    let k := k + 1
    if k ≤ greatestPower then some (x.dividedBy (.tenTo k))
    else if k ≤ 2 * greatestPower then
      some ((x.dividedBy (.tenTo greatestPower)).dividedBy (.tenTo (k - greatestPower)))
    else some .zero

def readScaled (negative : Bool) (significand : Nat) (exponent : Int) (rest : List Char) : Reading Json.Number :=
  match scaled significand exponent with
  | some x => .ok (.ratio (if negative then x.negate else x), rest)
  | none => .error (.here .hugeNumber rest)

def readExponentDigits (negative : Bool) (significand : Nat) (exponent : Int) (down : Bool) (rest : List Char) :
    Reading Json.Number :=
  match spanDigits rest with
  | ([], []) => .error (.here .endInValue [])
  | ([], rest) => .error (.next .badNumber rest)
  | (digits, rest) =>
    match gather exponentLimit 0 digits with
    | (n, []) => readScaled negative significand (if down then exponent - n else exponent + n) rest
    | (_, left) =>
      if significand ≠ 0 ∧ ¬ down then .error (.here .hugeNumber (left.drop 1 ++ rest))
      else .ok (.ratio (if negative then Binary64.zero.negate else .zero), rest)

def readExponent (negative : Bool) (significand : Nat) (exponent : Int) : List Char → Reading Json.Number
  | '+' :: rest => readExponentDigits negative significand exponent false rest
  | '-' :: rest => readExponentDigits negative significand exponent true rest
  | rest => readExponentDigits negative significand exponent false rest

def readAfterDigits (negative : Bool) (significand : Nat) (exponent : Int) : List Char → Reading Json.Number
  | 'e' :: rest | 'E' :: rest => readExponent negative significand exponent rest
  | rest => readScaled negative significand exponent rest

def readFraction (negative : Bool) (significand : Nat) (exponent : Int) (rest : List Char) : Reading Json.Number :=
  match spanDigits rest with
  | ([], []) => .error (.here .endInValue [])
  | ([], rest) => .error (.next .badNumber rest)
  | (digits, rest) =>
    let (significand, left) := gather significandLimit significand digits
    readAfterDigits negative significand (exponent - (digits.length - left.length)) rest

/-- An integer without fraction and exponent: signed in 64 bits, else a binary64 value. -/
def integerNumber (negative : Bool) (n : Nat) : Json.Number :=
  if negative then
    if n = 0 ∨ Nat.pow 2 63 < n then .ratio (Binary64.ofRatio n 1).negate else .whole (-n)
  else .whole n

/-- What may follow the digits of an integer, of which the last `dropped` ones have not been kept. -/
def readAfterInteger (negative : Bool) (significand dropped : Nat) : List Char → Reading Json.Number
  | '.' :: rest => readFraction negative significand dropped rest
  | 'e' :: rest | 'E' :: rest => readExponent negative significand dropped rest
  | rest =>
    if dropped = 0 then .ok (integerNumber negative significand, rest)
    else readScaled negative significand dropped rest

def readMagnitude (negative : Bool) (rest : List Char) : Reading Json.Number :=
  match spanDigits rest with
  | ([], []) => .error (.here .endInValue [])
  | ([], rest) => .error (.next .badNumber rest)
  | ('0' :: d :: ds, rest) => .error (.next .badNumber (d :: ds ++ rest))
  | (digits, rest) =>
    let (significand, left) := gather significandLimit 0 digits
    readAfterInteger negative significand left.length rest

def readNumber : List Char → Reading Json.Number
  | '-' :: rest => readMagnitude true rest
  | rest => readMagnitude false rest

end PresetWorkspace.Document
