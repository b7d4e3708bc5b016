import PresetWorkspace.Decimal.Notation

/-!
# JSON texts

The value tree of a JSON text and its two printed forms: compact, and pretty
with two blanks for each level. Strings escape the quote, the backslash and
the characters below the blank; a number that is not finite prints as `null`.
-/

namespace PresetWorkspace

inductive Json.Number where
  | whole (n : Int)
  | ratio (x : Binary64)
  deriving DecidableEq

inductive Json where
  | null
  | boolean (b : Bool)
  | number (n : Json.Number)
  | text (s : String)
  | array (items : List Json)
  | object (members : List (String × Json))

namespace Json

/-! ## Scalars -/

def Number.print : Number → List Char
  | .whole n => (if n < 0 then ['-'] else []) ++ Nat.toDigits 10 n.natAbs
  | .ratio x => if x.isFinite then x.numeral else ['n', 'u', 'l', 'l']

def boolean.print (b : Bool) : List Char :=
  if b then ['t', 'r', 'u', 'e'] else ['f', 'a', 'l', 's', 'e']

/-- One character of a string: a short escape, a four-digit escape below the blank, or itself. -/
def escaped (c : Char) : List Char :=
  if c = '"' then ['\\', '"']
  else if c = '\\' then ['\\', '\\']
  else if c = '\x08' then ['\\', 'b']
  else if c = '\x0c' then ['\\', 'f']
  else if c = '\n' then ['\\', 'n']
  else if c = '\r' then ['\\', 'r']
  else if c = '\t' then ['\\', 't']
  else if c.toNat < 0x20 then
    ['\\', 'u', '0', '0', Nat.digitChar (c.toNat / 16), Nat.digitChar (c.toNat % 16)]
  else [c]

def text.print (s : String) : List Char := '"' :: s.toList.flatMap escaped ++ ['"']

/-! ## Compact -/

mutual

def compactChars : Json → List Char
  | .null => ['n', 'u', 'l', 'l']
  | .boolean b => boolean.print b
  | .number n => n.print
  | .text s => text.print s
  | .array items => '[' :: compactItems items ++ [']']
  | .object members => '{' :: compactMembers members ++ ['}']

def compactItems : List Json → List Char
  | [] => []
  | [v] => compactChars v
  | v :: vs => compactChars v ++ ',' :: compactItems vs

def compactMembers : List (String × Json) → List Char
  | [] => []
  | [(key, v)] => text.print key ++ ':' :: compactChars v
  | (key, v) :: ms => text.print key ++ ':' :: compactChars v ++ ',' :: compactMembers ms

end

def compact (v : Json) : String := String.ofList v.compactChars

/-! ## Pretty -/

def newline (depth : Nat) : List Char := '\n' :: List.replicate (2 * depth) ' '

mutual

def prettyChars (depth : Nat) : Json → List Char
  | .null => ['n', 'u', 'l', 'l']
  | .boolean b => boolean.print b
  | .number n => n.print
  | .text s => text.print s
  | .array [] => ['[', ']']
  | .array items => '[' :: prettyItems (depth + 1) items ++ newline depth ++ [']']
  | .object [] => ['{', '}']
  | .object members => '{' :: prettyMembers (depth + 1) members ++ newline depth ++ ['}']

def prettyItems (depth : Nat) : List Json → List Char
  | [] => []
  | [v] => newline depth ++ prettyChars depth v
  | v :: vs => newline depth ++ prettyChars depth v ++ ',' :: prettyItems depth vs

def prettyMembers (depth : Nat) : List (String × Json) → List Char
  | [] => []
  | [(key, v)] => newline depth ++ text.print key ++ ':' :: ' ' :: prettyChars depth v
  | (key, v) :: ms =>
    newline depth ++ text.print key ++ ':' :: ' ' :: prettyChars depth v ++ ',' :: prettyMembers depth ms

end

def pretty (v : Json) : String := String.ofList (v.prettyChars 0)

end Json

end PresetWorkspace
