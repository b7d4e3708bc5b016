import PresetWorkspace.Document.Lexeme

/-!
# Skipped values

The value of an unknown member is passed over without limit on its depth. Its
form is checked, but surrogates need not pair, and in place of a last comma's
missing neighbour the bracket itself is at fault.
-/

namespace PresetWorkspace.Document

/-! ## Scalars -/

def skipStringChars : (skip : Nat) → List Char → Except Fault (List Char)
  | _, [] => .error (.here .endInString [])
  | skip + 1, _ :: rest => skipStringChars skip rest
  | 0, c :: rest =>
    if c = '"' then .ok rest
    else if c = '\\' then
      match rest with
      | [] => .error (.here .endInString [])
      | 'u' :: digits =>
        match readHex digits with
        | .ok _ => skipStringChars 5 rest
        | .error fault => .error fault
      | e :: _ =>
        if (shortEscape? e).isSome then skipStringChars 1 rest else .error (.next .badEscape rest)
    else if c.toNat < 0x20 then .error (.here .controlCharacter (c :: rest))
    else skipStringChars 0 rest

def skipExponent (rest : List Char) : Except Fault (List Char) :=
  let rest := match rest with
    | '+' :: rest | '-' :: rest => rest
    | rest => rest
  match spanDigits rest with
  | ([], rest) => .error (.next .badNumber rest)
  | (_, rest) => .ok rest

def skipFraction (rest : List Char) : Except Fault (List Char) :=
  match spanDigits rest with
  | ([], rest) => .error (.next .badNumber rest)
  | (_, 'e' :: rest) | (_, 'E' :: rest) => skipExponent rest
  | (_, rest) => .ok rest

def skipMagnitude (rest : List Char) : Except Fault (List Char) :=
  match spanDigits rest with
  | ([], rest) => .error (.next .badNumber rest)
  | ('0' :: d :: ds, rest) => .error (.next .badNumber (d :: ds ++ rest))
  | (_, '.' :: rest) => skipFraction rest
  | (_, 'e' :: rest) | (_, 'E' :: rest) => skipExponent rest
  | (_, rest) => .ok rest

/-! ## Containers -/

inductive Open where
  | list
  | object
  deriving DecidableEq

namespace Open

def closer : Open → Char
  | .list => ']'
  | .object => '}'

def endCause : Open → Cause
  | .list => .endInList
  | .object => .endInObject

def separatorCause : Open → Cause
  | .list => .noCommaOrBracket
  | .object => .noCommaOrBrace

end Open

def skipStart (rest : List Char) : Except Fault (Option Open × List Char) :=
  match skipBlanks rest with
  | [] => .error (.here .endInValue [])
  | '[' :: rest => .ok (some .list, rest)
  | '{' :: rest => .ok (some .object, rest)
  | 'n' :: rest => (readWord ['u', 'l', 'l'] rest).map (none, ·)
  | 't' :: rest => (readWord ['r', 'u', 'e'] rest).map (none, ·)
  | 'f' :: rest => (readWord ['a', 'l', 's', 'e'] rest).map (none, ·)
  | '"' :: rest => (skipStringChars 0 rest).map (none, ·)
  | '-' :: rest => (skipMagnitude rest).map (none, ·)
  | c :: rest => if c.isDigit then (skipMagnitude (c :: rest)).map (none, ·) else .error (.next .noValue (c :: rest))

/-- Closes containers up to the next value; `after` tells whether a value has just ended.
    What is left open is empty once the outermost value has ended. -/
def skipClosers : (after : Bool) → List Open → List Char → Except Fault (List Open × List Char)
  | _, [], rest => .ok ([], rest)
  | after, o :: os, rest =>
    match skipBlanks rest with
    | [] => .error (.here o.endCause [])
    | c :: rest =>
      if after ∧ c = ',' then .ok (o :: os, rest)
      else if c = o.closer then skipClosers true os rest
      else if after then .error (.next o.separatorCause (c :: rest))
      else .ok (o :: os, c :: rest)

def skipKey (rest : List Char) : Except Fault (List Char) :=
  match skipBlanks rest with
  | [] => .error (.here .endInObject [])
  | '"' :: rest =>
    (skipStringChars 0 rest).bind fun rest =>
      match skipBlanks rest with
      | [] => .error (.here .endInObject [])
      | ':' :: rest => .ok rest
      | rest => .error (.next .noColon rest)
  | rest => .error (.next .keyNotText rest)

/-- The rest after the values that are open; each round takes at least one of at most `fuel` characters. -/
def skipValues : (fuel : Nat) → List Open → List Char → Except Fault (List Char)
  | 0, _, rest => .error (.next .noValue rest)
  | fuel + 1, os, rest =>
    (skipStart rest).bind fun (opened, rest) =>
      let closed := match opened with
        | some o => skipClosers false (o :: os) rest
        | none => skipClosers true os rest
      closed.bind fun
        | ([], rest) => .ok rest
        | (.list :: os, rest) => skipValues fuel (.list :: os) rest
        | (.object :: os, rest) => (skipKey rest).bind (skipValues fuel (.object :: os))

def skipValue (rest : List Char) : Except Fault (List Char) := skipValues (rest.length + 1) [] rest

end PresetWorkspace.Document
