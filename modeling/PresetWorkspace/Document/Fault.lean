import PresetWorkspace.Json
import PresetWorkspace.Text.Quoted

/-!
# Faults of a document

Why a text is no document of the wanted shape, and where. A fault is noticed
with some bytes of the text still unread; `Fault.locate` turns their number
into a line and the number of bytes since the last line end. What is wrong
with a whole record has no place of its own and gets that of the record's end.
-/

namespace PresetWorkspace.Document

inductive Found where
  | null
  | boolean (b : Bool)
  | number (n : Json.Number)
  | text (s : String)
  | sequence
  | map

inductive Cause where
  | endInList
  | endInObject
  | endInString
  | endInValue
  | noColon
  | noCommaOrBracket
  | noCommaOrBrace
  | badWord
  | noValue
  | badEscape
  | badNumber
  | hugeNumber
  | controlCharacter
  | keyNotText
  | loneSurrogate
  | cutSurrogate
  | trailingComma
  | trailingCharacters
  | tooDeep
  | wrongType (found : Found) (wanted : String)
  | wrongInteger (n : Int) (wanted : String)
  | missingField (name : String)
  | duplicateField (name : String)
  | wrongLength (found : Nat) (wanted : String) (size : Nat)
  | badColor (value : String)
  | badId

inductive Cause.Class where
  | eof
  | syntactic
  | data
  deriving DecidableEq

def Cause.class : Cause → Cause.Class
  | .endInList | .endInObject | .endInString | .endInValue => .eof
  | .wrongType .. | .wrongInteger .. | .missingField _ | .duplicateField _ | .wrongLength ..
  | .badColor _ | .badId => .data
  | _ => .syntactic

/-! ## Wording -/

def Found.describe : Found → String
  | .null => "null"
  | .boolean b => s!"boolean `{b}`"
  | .number (.whole n) => s!"integer `{n}`"
  | .number (.ratio x) => "floating point `" ++ String.ofList x.numeral ++ "`"
  | .text s => "string " ++ Text.quoted s
  | .sequence => "sequence"
  | .map => "map"

def Cause.describe : Cause → String
  | .endInList => "EOF while parsing a list"
  | .endInObject => "EOF while parsing an object"
  | .endInString => "EOF while parsing a string"
  | .endInValue => "EOF while parsing a value"
  | .noColon => "expected `:`"
  | .noCommaOrBracket => "expected `,` or `]`"
  | .noCommaOrBrace => "expected `,` or `\x7d`"
  | .badWord => "expected ident"
  | .noValue => "expected value"
  | .badEscape => "invalid escape"
  | .badNumber => "invalid number"
  | .hugeNumber => "number out of range"
  | .controlCharacter => "control character (\\u0000-\\u001F) found while parsing a string"
  | .keyNotText => "key must be a string"
  | .loneSurrogate => "lone leading surrogate in hex escape"
  | .cutSurrogate => "unexpected end of hex escape"
  | .trailingComma => "trailing comma"
  | .trailingCharacters => "trailing characters"
  | .tooDeep => "recursion limit exceeded"
  | .wrongType found wanted => "invalid type: " ++ found.describe ++ ", expected " ++ wanted
  | .wrongInteger n wanted => s!"invalid value: integer `{n}`, expected " ++ wanted
  | .missingField name => "missing field `" ++ name ++ "`"
  | .duplicateField name => "duplicate field `" ++ name ++ "`"
  | .wrongLength found wanted size =>
    s!"invalid length {found}, expected " ++ wanted ++ s!" with {size} element" ++ if size = 1 then "" else "s"
  | .badColor value => "invalid color '" ++ value ++ "': expected #RRGGBB"
  | .badId => "UUID parsing failed"

/-! ## Places -/

def byteCount : List Char → Nat
  | [] => 0
  | c :: cs => c.utf8Size + byteCount cs

/-- What is wrong, and where: with so many bytes unread, or after a record that is still to be closed. -/
inductive Fault where
  | placed (cause : Cause) (unread : Nat)
  | pending (cause : Cause) (rest : List Char)

namespace Fault

def here (cause : Cause) (rest : List Char) : Fault := .placed cause (byteCount rest)

/-- A fault of the first unread byte: its place is that of the byte after it. -/
def next (cause : Cause) (rest : List Char) : Fault := .placed cause (byteCount rest - 1)

/-- Gives a fault of a whole record the place that `close` reaches. -/
def settle (close : List Char → List Char) : Fault → Fault
  | .placed cause unread => .placed cause unread
  | .pending cause rest => here cause (close rest)

end Fault

structure Place where
  line : Nat
  column : Nat
  deriving DecidableEq

def placeAt (offset : Nat) (at' : Place) : List Char → Place
  | [] => at'
  | c :: cs =>
    if offset < c.utf8Size then { at' with column := at'.column + offset }
    else placeAt (offset - c.utf8Size)
      (if c = '\n' then ⟨at'.line + 1, 0⟩ else { at' with column := at'.column + c.utf8Size }) cs

structure Problem where
  cause : Cause
  place : Place

def Fault.locate (text : List Char) : Fault → Problem
  | .placed cause unread => ⟨cause, placeAt (byteCount text - unread) ⟨1, 0⟩ text⟩
  | .pending cause rest => ⟨cause, placeAt (byteCount text - byteCount rest) ⟨1, 0⟩ text⟩

def Problem.message (p : Problem) : String :=
  p.cause.describe ++ s!" at line {p.place.line} column {p.place.column}"

end PresetWorkspace.Document
