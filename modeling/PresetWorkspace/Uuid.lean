/-!
# Ids

An id is a 128-bit value. It is written as 32 lower-case hexadecimal digits in
groups of 8, 4, 4, 4 and 12, and also read without hyphens, between braces or
after the `urn:uuid:` label.
-/

namespace PresetWorkspace

structure Uuid where
  bits : BitVec 128
  deriving DecidableEq

namespace Uuid

def hexValue? (c : Char) : Option Nat :=
  if '0' ≤ c ∧ c ≤ '9' then some (c.toNat - '0'.toNat)
  else if 'a' ≤ c ∧ c ≤ 'f' then some (c.toNat - 'a'.toNat + 10)
  else if 'A' ≤ c ∧ c ≤ 'F' then some (c.toNat - 'A'.toNat + 10)
  else none

def versionPlace : Nat := Nat.pow 16 19

def version (u : Uuid) : Nat := u.bits.toNat / versionPlace % 16

/-- An id of version 7: the time in milliseconds, followed by 74 random bits. -/
def timed (time random : Nat) : Uuid :=
  ⟨BitVec.ofNat 128
    (time * Nat.pow 2 80 + 7 * versionPlace + random / Nat.pow 2 62 % Nat.pow 2 12 * Nat.pow 2 64 +
      2 * Nat.pow 2 62 + random % Nat.pow 2 62)⟩

/-! ## Writing -/

def hexDigits : Nat → Nat → List Char
  | 0, _ => []
  | k + 1, n => hexDigits k (n / 16) ++ [Nat.digitChar (n % 16)]

def hyphenated (digits : List Char) : List Char :=
  digits.take 8 ++ '-' :: (digits.drop 8).take 4 ++ '-' :: (digits.drop 12).take 4 ++
    '-' :: (digits.drop 16).take 4 ++ '-' :: digits.drop 20

def text (u : Uuid) : String := String.ofList (hyphenated (hexDigits 32 u.bits.toNat))

instance : ToString Uuid := ⟨text⟩

/-! ## Reading -/

def hexNumber? (digits : List Char) : Option Nat :=
  digits.foldlM (fun n c => (hexValue? c).map (16 * n + ·)) 0

def ofDigits? (digits : List Char) : Option Uuid :=
  if digits.length = 32 then (hexNumber? digits).map (⟨BitVec.ofNat 128 ·⟩) else none

def ofHyphenated? (cs : List Char) : Option Uuid :=
  let digits := cs.filter (· ≠ '-')
  if hyphenated digits = cs then ofDigits? digits else none

def label : List Char := "urn:uuid:".toList

def ofChars? (cs : List Char) : Option Uuid :=
  match ofDigits? cs, ofHyphenated? cs with
  | some u, _ => some u
  | none, some u => some u
  | none, none =>
    if cs.head? = some '{' ∧ cs.getLast? = some '}' then ofHyphenated? (cs.drop 1).dropLast
    else if cs.take label.length = label then ofHyphenated? (cs.drop label.length)
    else none

def ofText? (s : String) : Option Uuid := ofChars? s.toList

end Uuid

end PresetWorkspace
