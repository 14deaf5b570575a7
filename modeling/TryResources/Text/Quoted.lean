import TryResources.Text.Unprintable

/-!
# Quoted texts

How a text of the input is shown inside an error message: between double quotes, with a double
quote or backslash after a backslash, the usual names for tab, line ends and zero, and a number in
braces for whatever else cannot be seen.
-/

namespace TryResources.Text

/-- A character shown by its number in lowercase hexadecimal, as in `\u{ad}`. -/
def byNumber (c : Char) : List Char :=
  ['\\', 'u', '\x7b'] ++ Nat.toDigits 16 c.toNat ++ ['\x7d']

/-- How one character is shown. -/
def showChar (c : Char) : List Char :=
  if c = '\x00' then ['\\', '0']
  else if c = '\t' then ['\\', 't']
  else if c = '\r' then ['\\', 'r']
  else if c = '\n' then ['\\', 'n']
  else if c = '"' ∨ c = '\\' then ['\\', c]
  else if isUnprintable c then byNumber c
  else [c]

/-- A text between double quotes. -/
def quote (s : String) : String :=
  "\"" ++ String.ofList (s.toList.flatMap showChar) ++ "\""

end TryResources.Text
