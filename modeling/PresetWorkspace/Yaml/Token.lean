import PresetWorkspace.Yaml.Scalar

/-!
# Tokens

A YAML stream as tokens. The indentation of block collections becomes tokens of
its own, and a node before a colon becomes a key once the colon is seen: until
then its place among the tokens is pending.
-/

namespace PresetWorkspace.Yaml

inductive Token where
  | version (major minor : Nat)
  | tagHandle (handle uri : String)
  | documentStart
  | documentEnd
  | blockSequence
  | blockMapping
  | blockEnd
  | flowSequence
  | flowSequenceEnd
  | flowMapping
  | flowMappingEnd
  | blockEntry
  | flowEntry
  | key
  | value
  | alias (name : String)
  | anchor (name : String)
  | tag (handle suffix : String)
  | scalar (plain : Bool) (text : String)
  deriving DecidableEq

/-! ## Names, tags and directives -/

def readAnchorName (rest : List Glyph) : Scanned :=
  let name := takeChars isNameChar rest
  let after := dropChars isNameChar rest
  let ended := endsWord after || after.head?.any fun g => "?:,]\x7d%@`".toList.contains g.char
  if name.isEmpty ∨ ¬ ended then none else some (name, after)

def isUriChar (bracketed : Bool) (c : Char) : Bool :=
  isNameChar c || ";/?:@&=+$.!~*'()".toList.contains c || (bracketed && ",[]".toList.contains c)

def octetCount? (octet : Nat) : Option Nat :=
  if octet < 0x80 then some 1
  else if octet / 0x20 = 6 then some 2
  else if octet / 0x10 = 14 then some 3
  else if octet / 0x08 = 30 then some 4
  else none

def readEscapedOctet : List Glyph → Option (Nat × List Glyph)
  | p :: rest => if p.char = '%' then readHex 2 0 rest else none
  | [] => none

def readEscapedTail : (count bits : Nat) → List Glyph → Option (Nat × List Glyph)
  | 0, bits, rest => some (bits, rest)
  | k + 1, bits, rest =>
    (readEscapedOctet rest).bind fun (octet, rest) =>
      if octet / 0x40 = 2 then readEscapedTail k (bits * 0x40 + octet % 0x40) rest else none

def readEscapedChar (rest : List Glyph) : Option (Char × List Glyph) :=
  (readEscapedOctet rest).bind fun (octet, rest) =>
    (octetCount? octet).bind fun count =>
      let bits := if count = 1 then octet else octet % Nat.pow 2 (7 - count)
      (readEscapedTail (count - 1) bits rest).map fun (n, rest) => (Char.ofNat n, rest)

def readUriChars (bracketed : Bool) : (fuel : Nat) → List Glyph → Scanned
  | 0, rest => some ([], rest)
  | _, [] => some ([], [])
  | fuel + 1, g :: rest =>
    if g.char = '%' then
      (readEscapedChar (g :: rest)).bind fun (c, rest) =>
        (readUriChars bracketed fuel rest).map fun (cs, rest) => (c :: cs, rest)
    else if isUriChar bracketed g.char then
      (readUriChars bracketed fuel rest).map fun (cs, rest) => (g.char :: cs, rest)
    else some ([], g :: rest)

def readUri (bracketed : Bool) (rest : List Glyph) : Scanned := readUriChars bracketed (rest.length + 1) rest

def readFullUri (bracketed : Bool) (rest : List Glyph) : Scanned :=
  (readUri bracketed rest).bind fun (uri, rest) => if uri.isEmpty then none else some (uri, rest)

def readHandle (rest : List Glyph) : List Char × Bool × List Glyph :=
  let after := dropChars isNameChar rest
  (takeChars isNameChar rest, startsWith '!' after, if startsWith '!' after then after.drop 1 else after)

def readTag (inFlow : Bool) (rest : List Glyph) : Option (Token × List Glyph) :=
  let tag : Option (Token × List Glyph) :=
    if startsWith '<' rest then
      (readFullUri true (rest.drop 1)).bind fun (uri, rest) =>
        if startsWith '>' rest then some (.tag "" (.ofList uri), rest.drop 1) else none
    else
      let (name, closed, rest) := readHandle rest
      if closed then
        (readFullUri false rest).map fun (uri, rest) => (.tag (.ofList ('!' :: name ++ ['!'])) (.ofList uri), rest)
      else
        (readUri false rest).map fun (uri, rest) =>
          let suffix := name ++ uri
          (if suffix.isEmpty then .tag "" "!" else .tag "!" (.ofList suffix), rest)
  tag.bind fun (tag, rest) =>
    if endsWord rest ∨ (inFlow ∧ startsWith ',' rest) then some (tag, rest) else none

def readVersionNumber (rest : List Glyph) : Option (Nat × List Glyph) :=
  let digits := takeChars Char.isDigit rest
  if digits.isEmpty ∨ 9 < digits.length then none
  else some (digits.foldl (fun n d => 10 * n + (d.toNat - '0'.toNat)) 0, dropChars Char.isDigit rest)

def readVersion (rest : List Glyph) : Option (Token × List Glyph) :=
  (readVersionNumber rest).bind fun (major, rest) =>
    if startsWith '.' rest then
      (readVersionNumber (rest.drop 1)).map fun (minor, rest) => (.version major minor, rest)
    else none

def readTagDirective (rest : List Glyph) : Option (Token × List Glyph) :=
  if startsWith '!' rest then
    let (name, closed, rest) := readHandle (rest.drop 1)
    if (closed ∨ name.isEmpty) ∧ rest.head?.any (isBlank ·.char) then
      (readFullUri true (dropChars isBlank rest)).bind fun (uri, rest) =>
        if endsWord rest then
          some (.tagHandle (.ofList ('!' :: name ++ if closed then ['!'] else [])) (.ofList uri), rest)
        else none
    else none
  else none

def readDirective (rest : List Glyph) : Option (Token × List Glyph) :=
  let name := takeChars isNameChar rest
  let after := dropChars isNameChar rest
  let words := dropChars isBlank after
  let directive :=
    if ¬ endsWord after then none
    else if name = "YAML".toList then readVersion words
    else if name = "TAG".toList then readTagDirective words
    else none
  directive.bind fun (token, rest) =>
    let rest := dropChars isBlank rest
    let rest := if startsWith '#' rest then dropChars (!isBreak ·) rest else rest
    match rest with
    | [] => some (token, [])
    | g :: rest => if isBreak g.char then some (token, rest) else none

/-! ## The state of a scan -/

/-- A node that is a key if a colon follows on its line: how many tokens precede it, and where it starts.
    In a block mapping's column nothing else can stand, so there the colon is required. -/
structure PendingKey where
  required : Bool
  number : Nat
  line : Nat
  column : Nat
  index : Nat

/-- How far a stream is scanned: what is ahead, the tokens so far, the columns of the open block
    collections, for each open flow collection and the block around them the node that may be a key, and
    whether a new key may start here. -/
structure Scan where
  rest : List Glyph
  tokens : List Token := []
  columns : List Nat := []
  pending : Option PendingKey := none
  outer : List (Option PendingKey) := []
  keyAllowed : Bool := true

namespace Scan

def inFlow (s : Scan) : Bool := !s.outer.isEmpty

def margin (s : Scan) : Nat := (s.columns.head?.map (· + 1)).getD 0

def column (s : Scan) : Nat := (s.rest.head?.map (·.column)).getD 0

def emit (t : Token) (s : Scan) : Scan := { s with tokens := s.tokens ++ [t] }

def emitPast (t : Token) (width : Nat) (s : Scan) : Scan := { s.emit t with rest := s.rest.drop width }

def allowKey (allowed : Bool) (s : Scan) : Scan := { s with keyAllowed := allowed }

/-! ### Indentation -/

/-- Opens a block collection at a column unless one is open there; its token goes before the given place. -/
def indent (column : Nat) (place : Nat) (t : Token) (s : Scan) : Scan :=
  if s.inFlow ∨ column < s.margin then s
  else { s with columns := column :: s.columns, tokens := s.tokens.insertIdx place t }

def dedent (column : Nat) (s : Scan) : Scan :=
  if s.inFlow then s
  else
    { s with
      columns := s.columns.dropWhile (column ≤ ·)
      tokens := s.tokens ++ (s.columns.takeWhile (column ≤ ·)).map fun _ => .blockEnd }

/-! ### Keys -/

/-- Gives up the pending key, unless its colon is required. -/
def dropKey (s : Scan) : Option Scan :=
  if s.pending.any (·.required) then none else some { s with pending := none }

def holdKey (s : Scan) : Option Scan :=
  if s.keyAllowed then
    s.dropKey.map fun s =>
      { s with
        pending := s.rest.head?.map fun g =>
          ⟨!s.inFlow && s.columns.head? == some g.column, s.tokens.length, g.line, g.column, g.index⟩ }
  else some s

def keyLimit : Nat := 1024

def stillPending (g : Glyph) : Option PendingKey → Option (Option PendingKey)
  | none => some none
  | some key =>
    if key.line = g.line ∧ g.index ≤ key.index + keyLimit then some (some key)
    else if key.required then none
    else some none

def dropStaleKeys (s : Scan) : Option Scan :=
  match s.rest with
  | [] => some s
  | g :: _ =>
    (stillPending g s.pending).bind fun pending =>
      (s.outer.mapM (stillPending g)).map fun outer => { s with pending, outer }

/-! ### Blanks and comments -/

/-- Passes blanks, comments and breaks. A tab is blank where no key may start; after a break in a block
    one may. -/
def skipGap (inFlow : Bool) : (keyAllowed inComment : Bool) → List Glyph → Bool × List Glyph
  | allowed, _, [] => (allowed, [])
  | allowed, inComment, g :: rest =>
    if isBreak g.char then skipGap inFlow (allowed || !inFlow) false rest
    else if inComment ∨ g.char = '#' then skipGap inFlow allowed true rest
    else
      let blank := g.char = ' ' || (g.char = '\t' && (inFlow || !allowed)) || (g.char = byteOrderMark && g.column = 0)
      if blank then skipGap inFlow allowed false rest else (allowed, g :: rest)

def pass (s : Scan) : Scan :=
  let (keyAllowed, rest) := skipGap s.inFlow s.keyAllowed false s.rest
  { s with keyAllowed, rest }

/-! ### Tokens by their first character -/

def boundary (s : Scan) (token : Option (Token × List Glyph)) : Option Scan :=
  (s.dedent 0).dropKey.bind fun s =>
    token.map fun (t, rest) => { (s.allowKey false).emit t with rest }

def openFlow (t : Token) (s : Scan) : Option Scan :=
  s.holdKey.map fun s =>
    ({ s with outer := s.pending :: s.outer, pending := none }.allowKey true).emitPast t 1

def closeFlow (t : Token) (s : Scan) : Option Scan :=
  s.dropKey.map fun s =>
    let s := match s.outer with
      | [] => s
      | pending :: outer => { s with pending, outer }
    (s.allowKey false).emitPast t 1

def separateFlow (s : Scan) : Option Scan :=
  s.dropKey.map fun s => (s.allowKey true).emitPast .flowEntry 1

def indentHere (t : Token) (s : Scan) : Option Scan :=
  if s.inFlow then some s
  else if s.keyAllowed then some (s.indent s.column s.tokens.length t)
  else none

def entry (s : Scan) : Option Scan :=
  (s.indentHere .blockSequence).bind fun s =>
    s.dropKey.map fun s => (s.allowKey true).emitPast .blockEntry 1

def explicitKey (s : Scan) : Option Scan :=
  (s.indentHere .blockMapping).bind fun s =>
    s.dropKey.map fun s => (s.allowKey !s.inFlow).emitPast .key 1

/-- A colon: the pending node becomes a key, else the key is empty or was explicit. -/
def colon (s : Scan) : Option Scan :=
  match s.pending with
  | some key =>
    let s := { s with tokens := s.tokens.insertIdx key.number .key, pending := none }
    some (((s.indent key.column key.number .blockMapping).allowKey false).emitPast .value 1)
  | none => (s.indentHere .blockMapping).map fun s => (s.allowKey !s.inFlow).emitPast .value 1

def nodeStart (s : Scan) (token : Option (Token × List Glyph)) : Option Scan :=
  s.holdKey.bind fun s => token.map fun (t, rest) => { (s.allowKey false).emit t with rest }

def text (plain : Bool) (part : Scanned) : Option (Token × List Glyph) :=
  part.map fun (cs, rest) => (.scalar plain (.ofList cs), rest)

def plainScalar (s : Scan) : Option Scan :=
  (readPlain s.inFlow s.margin s.rest).bind fun (cs, broken, rest) =>
    (s.nodeStart (some (.scalar true (.ofList cs), rest))).map (·.allowKey broken)

def blockScalar (literal : Bool) (s : Scan) : Option Scan :=
  s.dropKey.bind fun s =>
    (text false (readBlock literal s.columns.head? (s.rest.drop 1))).map fun (t, rest) =>
      { (s.allowKey true).emit t with rest }

def startsPlain (inFlow : Bool) (c : Char) (rest : List Glyph) : Bool :=
  if c = '-' then !rest.head?.any (isBlank ·.char)
  else if c = '?' || c = ':' then !inFlow && !endsWord rest
  else !isGap c && !",[]\x7b\x7d#&*!|>'\"%@`".toList.contains c

def token (s : Scan) (g : Glyph) (rest : List Glyph) : Option Scan :=
  let loose := s.inFlow || endsWord rest
  if g.column = 0 ∧ g.char = '%' then s.boundary (readDirective rest)
  else if isRuler '-' s.rest then s.boundary (some (.documentStart, s.rest.drop 3))
  else if isRuler '.' s.rest then s.boundary (some (.documentEnd, s.rest.drop 3))
  else if g.char = '[' then s.openFlow .flowSequence
  else if g.char = '\x7b' then s.openFlow .flowMapping
  else if g.char = ']' then s.closeFlow .flowSequenceEnd
  else if g.char = '\x7d' then s.closeFlow .flowMappingEnd
  else if g.char = ',' then s.separateFlow
  else if g.char = '-' ∧ endsWord rest then s.entry
  else if g.char = '?' ∧ loose then s.explicitKey
  else if g.char = ':' ∧ loose then s.colon
  else if g.char = '*' then s.nodeStart ((readAnchorName rest).map fun (n, rest) => (.alias (.ofList n), rest))
  else if g.char = '&' then s.nodeStart ((readAnchorName rest).map fun (n, rest) => (.anchor (.ofList n), rest))
  else if g.char = '!' then s.nodeStart (readTag s.inFlow rest)
  else if (g.char = '|' ∨ g.char = '>') ∧ ¬ s.inFlow then s.blockScalar (g.char = '|')
  else if g.char = '\'' ∨ g.char = '"' then s.nodeStart (text false (readQuoted g.char rest))
  else if startsPlain s.inFlow g.char rest then s.plainScalar
  else none

def finish : (fuel : Nat) → Scan → Option (List Token)
  | 0, _ => none
  | fuel + 1, s =>
    let s := s.pass
    s.dropStaleKeys.bind fun s =>
      match s.rest with
      | [] => (s.dedent 0).dropKey.map (·.tokens)
      | g :: rest => ((s.dedent (g.column + 1)).token g rest).bind (finish fuel)

end Scan

def tokens? (text : String) : Option (List Token) :=
  (glyphs? text).bind fun rest => Scan.finish (rest.length + 1) { rest }

end PresetWorkspace.Yaml
