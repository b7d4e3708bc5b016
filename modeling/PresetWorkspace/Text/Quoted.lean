import PresetWorkspace.Text.Visible

/-!
# Quoted texts

How messages quote a text: between double quotes, with a backslash before a
quote or a backslash, short escapes for tab, line ends and NUL, and the code
point of every other hidden character.
-/

namespace PresetWorkspace.Text

def quotedChar (c : Char) : List Char :=
  if c = '"' then ['\\', '"']
  else if c = '\\' then ['\\', '\\']
  else if c = '\t' then ['\\', 't']
  else if c = '\r' then ['\\', 'r']
  else if c = '\n' then ['\\', 'n']
  else if c = '\x00' then ['\\', '0']
  else if isVisible c then [c]
  else ['\\', 'u', '{'] ++ Nat.toDigits 16 c.toNat ++ ['}']

def quoted (s : String) : String :=
  String.ofList ('"' :: s.toList.flatMap quotedChar ++ ['"'])

end PresetWorkspace.Text
