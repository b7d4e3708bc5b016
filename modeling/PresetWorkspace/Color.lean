/-!
# Colors

A color is the sign `#` and six hexadecimal digits of either case.
-/

namespace PresetWorkspace

def isHexDigit (c : Char) : Bool :=
  ('0' ≤ c && c ≤ '9') || ('a' ≤ c && c ≤ 'f') || ('A' ≤ c && c ≤ 'F')

def isHexColor (s : String) : Bool :=
  match s.toList with
  | '#' :: digits => digits.length = 6 && digits.all isHexDigit
  | _ => false

end PresetWorkspace
