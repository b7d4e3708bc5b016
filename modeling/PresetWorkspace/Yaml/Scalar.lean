import PresetWorkspace.Yaml.Glyph

/-!
# Scalars

The words of a YAML stream: plain, quoted and block scalars. Between two words
on different lines one break is a space, and further breaks stand for
themselves. Each reader takes the glyphs ahead and gives the text with those
left over.
-/

namespace PresetWorkspace.Yaml

abbrev Scanned := Option (List Char × List Glyph)

def foldGap (gap : List Char) : List Char :=
  match gap.filter isBreak with
  | [] => gap
  | ['\n'] => [' ']
  | '\n' :: breaks => breaks
  | breaks => breaks

/-! ## Plain scalars -/

def isFlowIndicator (c : Char) : Bool := c = ',' || c = '[' || c = ']' || c = '\x7b' || c = '\x7d'

def endsPlainWord (inFlow : Bool) : List Glyph → Bool
  | [] => true
  | g :: rest => isGap g.char || (g.char = ':' && endsWord rest) || (inFlow && isFlowIndicator g.char)

/-- One word of a plain scalar. In a flow collection a colon may not stand right before an indicator. -/
def readPlainWord (inFlow : Bool) : List Glyph → Scanned
  | [] => some ([], [])
  | g :: rest =>
    if inFlow ∧ g.char = ':' ∧ rest.head?.any (fun h => h.char = '?' || isFlowIndicator h.char) then none
    else if endsPlainWord inFlow (g :: rest) then some ([], g :: rest)
    else (readPlainWord inFlow rest).map fun (cs, rest) => (g.char :: cs, rest)

def endsPlain (inFlow : Bool) (margin : Nat) : List Glyph → Bool
  | [] => true
  | g :: rest =>
    (!inFlow && g.column < margin) || g.char = '#' || atDocumentMark (g :: rest) || endsPlainWord inFlow (g :: rest)

def hasTabIndent (margin : Nat) (gap : List Glyph) : Bool :=
  (gap.dropWhile (!isBreak ·.char)).any fun g => g.char = '\t' && g.column < margin

def readPlainWords (inFlow : Bool) (margin : Nat) :
    (fuel : Nat) → List Glyph → Option (List Char × Bool × List Glyph)
  | 0, _ => none
  | fuel + 1, rest =>
    (readPlainWord inFlow rest).bind fun (word, rest) =>
      let gap := rest.takeWhile (isGap ·.char)
      let next := dropChars isGap rest
      if hasTabIndent margin gap then none
      else if endsPlain inFlow margin next then some (word, gap.any (isBreak ·.char), next)
      else
        (readPlainWords inFlow margin fuel next).map fun (words, broken, rest) =>
          (word ++ foldGap (gap.map (·.char)) ++ words, broken, rest)

def readPlain (inFlow : Bool) (margin : Nat) (rest : List Glyph) : Option (List Char × Bool × List Glyph) :=
  readPlainWords inFlow margin (rest.length + 1) rest

/-! ## Quoted scalars -/

def hexDigit? (c : Char) : Option Nat :=
  if c.isDigit then some (c.toNat - '0'.toNat)
  else if 'a' ≤ c ∧ c ≤ 'f' then some (c.toNat - 'a'.toNat + 10)
  else if 'A' ≤ c ∧ c ≤ 'F' then some (c.toNat - 'A'.toNat + 10)
  else none

def readHex : (digits value : Nat) → List Glyph → Option (Nat × List Glyph)
  | 0, n, rest => some (n, rest)
  | _ + 1, _, [] => none
  | k + 1, n, g :: rest => (hexDigit? g.char).bind fun d => readHex k (16 * n + d) rest

def readCode (digits : Nat) (rest : List Glyph) : Option (Char × List Glyph) :=
  (readHex digits 0 rest).bind fun (n, rest) => if n.isValidChar then some (Char.ofNat n, rest) else none

def letterEscape? (c : Char) : Option Char :=
  match c with
  | '0' => some '\x00'
  | 'a' => some '\x07'
  | 'b' => some '\x08'
  | 't' | '\t' => some '\t'
  | 'n' => some '\n'
  | 'v' => some '\x0b'
  | 'f' => some '\x0c'
  | 'r' => some '\r'
  | 'e' => some '\x1b'
  | ' ' | '"' | '/' | '\\' => some c
  | 'N' => some '\x85'
  | '_' => some '\xa0'
  | 'L' => some '\u2028'
  | 'P' => some '\u2029'
  | _ => none

/-- What an escape in double quotes stands for, after its backslash. A break there joins two lines. -/
def readEscape : List Glyph → Scanned
  | [] => none
  | g :: rest =>
    if isBreak g.char then some ((takeChars isGap rest).filter isBreak, dropChars isGap rest)
    else if g.char = 'x' then (readCode 2 rest).map fun (c, rest) => ([c], rest)
    else if g.char = 'u' then (readCode 4 rest).map fun (c, rest) => ([c], rest)
    else if g.char = 'U' then (readCode 8 rest).map fun (c, rest) => ([c], rest)
    else (letterEscape? g.char).map fun c => ([c], rest)

def readQuotedText (quote : Char) : (fuel : Nat) → List Glyph → Scanned
  | 0, _ | _, [] => none
  | fuel + 1, g :: rest =>
    let go : Scanned → Scanned := fun part =>
      part.bind fun (cs, rest) => (readQuotedText quote fuel rest).map fun (more, rest) => (cs ++ more, rest)
    if atDocumentMark (g :: rest) then none
    else if isGap g.char then go (some (foldGap (takeChars isGap (g :: rest)), dropChars isGap rest))
    else if g.char = quote then
      if quote = '\'' ∧ startsWith quote rest then go (some ([quote], rest.drop 1)) else some ([], rest)
    else if quote = '"' ∧ g.char = '\\' then go (readEscape rest)
    else go (some ([g.char], rest))

def readQuoted (quote : Char) (rest : List Glyph) : Scanned := readQuotedText quote (rest.length + 1) rest

/-! ## Block scalars -/

inductive Chomping where
  | strip
  | clip
  | keep
  deriving DecidableEq

def readChomping : List Glyph → Chomping × List Glyph
  | [] => (.clip, [])
  | g :: rest => if g.char = '+' then (.keep, rest) else if g.char = '-' then (.strip, rest) else (.clip, g :: rest)

def readIndentation : List Glyph → Option (Option Nat × List Glyph)
  | [] => some (none, [])
  | g :: rest =>
    if g.char = '0' then none
    else if g.char.isDigit then some (some (g.char.toNat - '0'.toNat), rest)
    else some (none, g :: rest)

/-- The first line of a block scalar, after its indicator: the chomping and the indentation in either
    order, then nothing but a comment. -/
def readBlockHeader (rest : List Glyph) : Option (Chomping × Option Nat × List Glyph) :=
  (readIndentation rest).bind fun (early, rest) =>
    let (chomping, rest) := readChomping rest
    let late := if early.isNone ∧ chomping ≠ .clip then readIndentation rest else some (early, rest)
    late.bind fun (indentation, rest) =>
      let rest := dropChars isBlank rest
      let rest := if startsWith '#' rest then dropChars (!isBreak ·) rest else rest
      match rest with
      | [] => some (chomping, indentation, [])
      | g :: rest => if isBreak g.char then some (chomping, indentation, rest) else none

def readEmptyLines (limit : Option Nat) : (widest : Nat) → List Glyph → Option (List Char × Nat × List Glyph)
  | widest, [] => some ([], widest, [])
  | widest, g :: rest =>
    let indented := limit.all (g.column < ·)
    if indented ∧ g.char = ' ' then readEmptyLines limit (max widest (g.column + 1)) rest
    else if indented ∧ g.char = '\t' then none
    else if isBreak g.char then
      (readEmptyLines limit widest rest).map fun (breaks, widest, rest) => (g.char :: breaks, widest, rest)
    else some ([], widest, g :: rest)

/-- What stands between two lines of a block scalar: the break that ended the first one and the empty
    lines after it. A folded break between lines that start with a word is a space, or nothing before
    empty lines. -/
def blockJoint (folded : Bool) (ending empties : List Char) : List Char :=
  if folded ∧ ending = ['\n'] then if empties.isEmpty then [' '] else empties else ending ++ empties

def readBlockLines (literal : Bool) (chomping : Chomping) (indent : Nat) :
    (fuel : Nat) → (afterBlank : Bool) → (ending empties : List Char) → List Glyph → Scanned
  | 0, _, _, _, _ => none
  | fuel + 1, afterBlank, ending, empties, rest =>
    if rest.head?.any (·.column = indent) then
      let blank := rest.head?.any (isBlank ·.char)
      let joint := blockJoint (!literal && !afterBlank && !blank) ending empties
      let after := dropChars (!isBreak ·) rest
      (readEmptyLines (some indent) 0 (after.drop 1)).bind fun (empties, _, next) =>
        (readBlockLines literal chomping indent fuel blank ((after.take 1).map (·.char)) empties next).map
          fun (more, next) => (joint ++ takeChars (!isBreak ·) rest ++ more, next)
    else
      match chomping with
      | .strip => some ([], rest)
      | .clip => some (ending, rest)
      | .keep => some (ending ++ empties, rest)

def readBlock (literal : Bool) (outer? : Option Nat) (rest : List Glyph) : Scanned :=
  (readBlockHeader rest).bind fun (chomping, indentation, rest) =>
    let given := indentation.map (outer?.getD 0 + ·)
    (readEmptyLines given 0 rest).bind fun (empties, widest, rest) =>
      let indent := given.getD (max widest (max 1 ((outer?.map (· + 1)).getD 0)))
      readBlockLines literal chomping indent (rest.length + 1) false [] empties rest

end PresetWorkspace.Yaml
