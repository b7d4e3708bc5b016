/-!
# Characters with their places

The text of a YAML stream as characters that know their line and column. Every
line break but the two Unicode separators is one `\n`. A text with a character
that no stream may hold has no glyphs.
-/

namespace PresetWorkspace.Yaml

/-- A character and where it stands; the index counts characters as they were written. -/
structure Glyph where
  char : Char
  line : Nat
  column : Nat
  index : Nat
  deriving DecidableEq

/-! ## Classes of characters -/

def isPermitted (c : Char) : Bool :=
  c = '\t' || c = '\n' || c = '\r' || (' ' ≤ c && c ≤ '~') || c = '\x85' || ('\xa0' ≤ c && c ≤ '\ufffd')
    || 0x10000 ≤ c.toNat

/-- The end of a line, where breaks are already one character. -/
def isBreak (c : Char) : Bool := c = '\n' || c = '\u2028' || c = '\u2029'

def isBlank (c : Char) : Bool := c = ' ' || c = '\t'

def isGap (c : Char) : Bool := isBlank c || isBreak c

def isNameChar (c : Char) : Bool := c.isAlphanum || c = '-' || c = '_'

def byteOrderMark : Char := '\ufeff'

/-! ## Glyphs of a text -/

def placed : (line column index : Nat) → List Char → List Glyph
  | _, _, _, [] => []
  | l, k, i, '\r' :: '\n' :: cs => ⟨'\n', l, k, i⟩ :: placed (l + 1) 0 (i + 2) cs
  | l, k, i, c :: cs =>
    if c = '\r' ∨ c = '\x85' then ⟨'\n', l, k, i⟩ :: placed (l + 1) 0 (i + 1) cs
    else if isBreak c then ⟨c, l, k, i⟩ :: placed (l + 1) 0 (i + 1) cs
    else ⟨c, l, k, i⟩ :: placed l (k + 1) (i + 1) cs

def glyphs? (text : String) : Option (List Glyph) :=
  if text.toList.all isPermitted then some (placed 0 0 0 text.toList) else none

/-! ## What lies ahead -/

def endsWord : List Glyph → Bool
  | [] => true
  | g :: _ => isGap g.char

def startsWith (c : Char) : List Glyph → Bool
  | [] => false
  | g :: _ => g.char = c

/-- Whether three of a character stand alone at the start of a line. -/
def isRuler (c : Char) : List Glyph → Bool
  | x :: y :: z :: rest => x.column = 0 && x.char = c && y.char = c && z.char = c && endsWord rest
  | _ => false

def atDocumentMark (rest : List Glyph) : Bool := isRuler '-' rest || isRuler '.' rest

def takeChars (p : Char → Bool) (rest : List Glyph) : List Char := (rest.takeWhile (p ·.char)).map (·.char)

def dropChars (p : Char → Bool) (rest : List Glyph) : List Glyph := rest.dropWhile (p ·.char)

end PresetWorkspace.Yaml
