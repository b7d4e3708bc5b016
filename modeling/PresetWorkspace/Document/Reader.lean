import PresetWorkspace.Document.Schema
import PresetWorkspace.Document.Skip

/-!
# Reading documents

A text is read from left to right into a value of the wanted shape, and the
first byte that does not fit is the fault. A record may stand as an object, in
any order and with unknown members, or as the list of its members. Containers
nest to a limited depth; skipped members are exempt from it.
-/

namespace PresetWorkspace.Document

/-! ## What does not fit -/

def misfit (wanted : String) (text : List Char) : Fault :=
  let found : Except Fault (Found × List Char) := match text with
    | 'n' :: rest => (readWord ['u', 'l', 'l'] rest).map (.null, ·)
    | 't' :: rest => (readWord ['r', 'u', 'e'] rest).map (.boolean true, ·)
    | 'f' :: rest => (readWord ['a', 'l', 's', 'e'] rest).map (.boolean false, ·)
    | '"' :: rest => (readString rest).map fun (s, rest) => (.text s, rest)
    | '[' :: _ => .ok (.sequence, text)
    | '{' :: _ => .ok (.map, text)
    | c :: _ =>
      if c = '-' ∨ c.isDigit then (readNumber text).map fun (n, rest) => (.number n, rest)
      else .error (.next .noValue text)
    | [] => .error (.here .endInValue [])
  match found with
  | .ok (found, rest) => .here (.wrongType found wanted) rest
  | .error fault => fault

def atValue {α : Type} (text : List Char) (read : List Char → Reading α) : Reading α :=
  match skipBlanks text with
  | [] => .error (.here .endInValue [])
  | text => read text

/-! ## Scalars -/

def readText (wanted : String) (text : List Char) : Reading String :=
  atValue text fun
    | '"' :: rest => readString rest
    | text => .error (misfit wanted text)

def readFlag (wanted : String) (text : List Char) : Reading Bool :=
  atValue text fun
    | 't' :: rest => (readWord ['r', 'u', 'e'] rest).map (true, ·)
    | 'f' :: rest => (readWord ['a', 'l', 's', 'e'] rest).map (false, ·)
    | text => .error (misfit wanted text)

def readNumberAs {α : Type} (wanted : String) (accept : Json.Number → Except Cause α)
    (text : List Char) : Reading α :=
  atValue text fun text =>
    if text.head?.any fun c => c = '-' || c.isDigit then
      (readNumber text).bind fun (n, rest) =>
        match accept n with
        | .ok v => .ok (v, rest)
        | .error cause => .error (.here cause rest)
    else .error (misfit wanted text)

def acceptRatio : Json.Number → Except Cause Binary64
  | .whole n => .ok (.ofInt n)
  | .ratio x => .ok x

def acceptCount (wanted : String) : Json.Number → Except Cause Nat
  | .whole (.ofNat n) => .ok n
  | .whole n => .error (.wrongInteger n wanted)
  | .ratio x => .error (.wrongType (.number (.ratio x)) wanted)

def acceptTime (wanted : String) : Json.Number → Except Cause Int
  | .whole n => if n < Nat.pow 2 63 then .ok n else .error (.wrongInteger n wanted)
  | .ratio x => .error (.wrongType (.number (.ratio x)) wanted)

/-! ## Separators -/

/-- Whether a list goes on, and its rest: the next element, or the bracket. -/
def nextElement (first : Bool) (text : List Char) : Except Fault (Bool × List Char) :=
  match skipBlanks text with
  | [] => .error (.here .endInList [])
  | ']' :: rest => .ok (false, ']' :: rest)
  | c :: rest =>
    if first then .ok (true, c :: rest)
    else if c = ',' then
      match skipBlanks rest with
      | [] => .error (.here .endInValue [])
      | ']' :: rest => .error (.next .trailingComma (']' :: rest))
      | rest => .ok (true, rest)
    else .error (.next .noCommaOrBracket (c :: rest))

def nextKey (first : Bool) (text : List Char) : Except Fault (Option String × List Char) :=
  match skipBlanks text with
  | [] => .error (.here .endInObject [])
  | '}' :: rest => .ok (none, '}' :: rest)
  | c :: rest =>
    if first then
      if c = '"' then key rest else .error (.next .keyNotText (c :: rest))
    else if c = ',' then
      match skipBlanks rest with
      | [] => .error (.here .endInValue [])
      | '"' :: rest => key rest
      | '}' :: rest => .error (.next .trailingComma ('}' :: rest))
      | rest => .error (.next .keyNotText rest)
    else .error (.next .noCommaOrBrace (c :: rest))
where
  key (rest : List Char) : Except Fault (Option String × List Char) :=
    (readString rest).map fun (s, rest) => (some s, rest)

def readColon (text : List Char) : Except Fault (List Char) :=
  match skipBlanks text with
  | [] => .error (.here .endInObject [])
  | ':' :: rest => .ok rest
  | rest => .error (.next .noColon rest)

/-- How far the end of an object goes after a fault: its brace is passed if it is next. -/
def passBrace (text : List Char) : List Char :=
  match skipBlanks text with
  | '}' :: rest => rest
  | rest => rest

def passBracket (text : List Char) : List Char :=
  match skipBlanks text with
  | ']' :: rest => rest
  | ',' :: rest => skipBlanks rest
  | rest => rest

def closeList (text : List Char) : Except Fault (List Char) :=
  match skipBlanks text with
  | [] => .error (.here .endInList [])
  | ']' :: rest => .ok rest
  | ',' :: rest =>
    match skipBlanks rest with
    | ']' :: rest => .error (.next .trailingComma (']' :: rest))
    | rest => .error (.next .trailingCharacters rest)
  | rest => .error (.next .trailingCharacters rest)

/-! ## Containers -/

def readElements {α : Type} (read : List Char → Reading α) :
    (fuel : Nat) → (first : Bool) → List Char → Reading (List α)
  | 0, _, text => .error (.next .endInList text)
  | fuel + 1, first, text =>
    (nextElement first text).bind fun
      | (false, rest) => .ok ([], rest)
      | (true, rest) =>
        (read rest).bind fun (v, rest) =>
          (readElements read fuel false rest).map fun (vs, rest) => (v :: vs, rest)

def readRatios (read : List Char → Reading Binary64) :
    (fuel : Nat) → (first : Bool) → Ratios → List Char → Reading Ratios
  | 0, _, _, text => .error (.next .endInObject text)
  | fuel + 1, first, ratios, text =>
    (nextKey first text).bind fun
      | (none, rest) => .ok (ratios, rest)
      | (some key, rest) =>
        (readColon rest).bind fun rest =>
          (read rest).bind fun (x, rest) => readRatios read fuel false (ratios.insert key x) rest

abbrev ShapeReader := (s : Shape) → List Char → Reading s.Carrier

def readMember (read : ShapeReader) (key : String) :
    (fs : List Field) → Slots fs → List Char → Reading (Slots fs)
  | [], (), text => (readColon text).bind fun rest => (skipValue rest).map ((), ·)
  | f :: fs, (slot, slots), text =>
    if key = f.name then
      if slot.isSome then .error (.pending (.duplicateField key) text)
      else (readColon text).bind fun rest => (read f.shape rest).map fun (v, rest) => ((some v, slots), rest)
    else (readMember read key fs slots text).map fun (slots, rest) => ((slot, slots), rest)

def readMembers (read : ShapeReader) (fs : List Field) :
    (fuel : Nat) → (first : Bool) → Slots fs → List Char → Reading (Slots fs)
  | 0, _, _, text => .error (.next .endInObject text)
  | fuel + 1, first, slots, text =>
    (nextKey first text).bind fun
      | (none, rest) => .ok (slots, rest)
      | (some key, rest) =>
        (readMember read key fs slots rest).bind fun (slots, rest) => readMembers read fs fuel false slots rest

/-- All members, an absent one with the value that its absence means. -/
def Slots.fill : (fs : List Field) → Slots fs → Except Cause (Parts fs)
  | [], () => .ok ()
  | f :: fs, (slot, slots) =>
    match slot, f.absence with
    | some v, _ | none, .value v | none, .inObject v => (Slots.fill fs slots).map (v, ·)
    | none, .fault => .error (.missingField f.name)

def readListed (read : ShapeReader) (k : Kind) :
    (fs : List Field) → (index : Nat) → List Char → Reading (Parts fs)
  | [], _, text => .ok ((), text)
  | f :: fs, index, text =>
    (nextElement (index = 0) text).bind fun
      | (true, rest) =>
        (read f.shape rest).bind fun (v, rest) =>
          (readListed read k fs (index + 1) rest).map fun (vs, rest) => ((v, vs), rest)
      | (false, rest) =>
        match f.absence with
        | .value v => (readListed read k fs (index + 1) rest).map fun (vs, rest) => ((v, vs), rest)
        | _ => .error (.pending (.wrongLength index (Shape.record k).wanted k.fields.length) rest)

def readObject (read : ShapeReader) (k : Kind) (text : List Char) : Reading k.Carrier :=
  let body : Reading k.Carrier :=
    (readMembers read k.fields (text.length + 1) true (Slots.empty k.fields) text).bind fun (slots, rest) =>
      match Slots.fill k.fields slots with
      | .ok parts => .ok (k.build parts, rest)
      | .error cause => .error (.pending cause rest)
  match body with
  | .ok (v, rest) => .ok (v, passBrace rest)
  | .error fault => .error (fault.settle passBrace)

def readArray (read : ShapeReader) (k : Kind) (text : List Char) : Reading k.Carrier :=
  match readListed read k k.fields 0 text with
  | .ok (parts, rest) => (closeList rest).map (k.build parts, ·)
  | .error fault => .error (fault.settle passBracket)

/-! ## Documents -/

/-- Reads a container one level further down; there may be no level left. -/
def descend {α : Type} (inner : Option ShapeReader) (text : List Char)
    (read : ShapeReader → List Char → Reading α) : Reading α :=
  match inner with
  | none => .error (.next .tooDeep text)
  | some inner => read inner (text.drop 1)

def readShape (inner : Option ShapeReader) : ShapeReader
  | .text, text => readText Shape.text.wanted text
  | .path, text => readText Shape.path.wanted text
  | .color, text =>
    (readText Shape.color.wanted text).bind fun (s, rest) =>
      if isHexColor s then .ok (s, rest) else .error (.pending (.badColor s) rest)
  | .id, text =>
    (readText Shape.id.wanted text).bind fun (s, rest) =>
      match Uuid.ofText? s with
      | some u => .ok (u, rest)
      | none => .error (.here .badId rest)
  | .flag, text => readFlag Shape.flag.wanted text
  | .ratio, text => readNumberAs Shape.ratio.wanted acceptRatio text
  | .count, text => readNumberAs Shape.count.wanted (acceptCount Shape.count.wanted) text
  | .time, text => readNumberAs Shape.time.wanted (acceptTime Shape.time.wanted) text
  | .optional s, text =>
    match skipBlanks text with
    | 'n' :: rest => (readWord ['u', 'l', 'l'] rest).map (none, ·)
    | text => (readShape inner s text).map fun (v, rest) => (some v, rest)
  | .ratios, text =>
    atValue text fun
      | '{' :: rest => descend inner ('{' :: rest) fun read rest =>
        (readRatios (read .ratio) (rest.length + 1) true .empty rest).map fun (m, rest) => (m, passBrace rest)
      | text => .error (misfit Shape.ratios.wanted text)
  | .list s, text =>
    atValue text fun
      | '[' :: rest => descend inner ('[' :: rest) fun read rest =>
        (readElements (read s) (rest.length + 1) true rest).map fun (vs, rest) => (vs, passBracket rest)
      | text => .error (misfit (Shape.list s).wanted text)
  | .record k, text =>
    atValue text fun
      | '{' :: rest => descend inner ('{' :: rest) fun read rest => readObject read k rest
      | '[' :: rest => descend inner ('[' :: rest) fun read rest => readArray read k rest
      | text => .error (misfit (Shape.record k).wanted text)

/-- A value whose containers nest at most `depth` levels. -/
def readWithin : (depth : Nat) → ShapeReader
  | 0 => readShape none
  | depth + 1 => readShape (some (readWithin depth))

def depthLimit : Nat := 127

def readAll (s : Shape) (text : List Char) : Except Fault s.Carrier :=
  (readWithin depthLimit s text).bind fun (v, rest) =>
    match skipBlanks rest with
    | [] => .ok v
    | rest => .error (.next .trailingCharacters rest)

def read (s : Shape) (text : String) : Except Problem s.Carrier :=
  (readAll s text.toList).mapError (Fault.locate text.toList)

end PresetWorkspace.Document
