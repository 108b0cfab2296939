import Crosswalk.Text.Unprintable

/-!
# Quoted texts and characters

A quoted text stands between double quotes, a quoted character between single ones. The
quote in use, the backslash, NUL, tab and the two line ends have short escapes; a character
that is not shown as it is stands as its code point in hexadecimal.
-/

namespace Crosswalk.Text

/-- A character inside a text quoted by `quote`. -/
def escaped (quote c : Char) : List Char :=
  if c = '\x00' then ['\\', '0']
  else if c = '\t' then ['\\', 't']
  else if c = '\r' then ['\\', 'r']
  else if c = '\n' then ['\\', 'n']
  else if c = '\\' ∨ c = quote then ['\\', c]
  else if joinsPrevious c || !isPrintable c then
    ['\\', 'u', '\x7b'] ++ Nat.toDigits 16 c.toNat ++ ['\x7d']
  else [c]

/-- The text in double quotes. -/
def quoted (s : String) : String :=
  String.ofList ('"' :: s.toList.flatMap (escaped '"') ++ ['"'])

/-- The character in single quotes. -/
def quotedChar (c : Char) : String :=
  String.ofList ('\'' :: escaped '\'' c ++ ['\''])

end Crosswalk.Text
