/-!
# Numerals

An unsigned decimal number in a text: an optional plus sign, then ASCII digits, of which leading
zeros count nothing. `numeral?` also bounds the value.
-/

namespace TryResources.Text

/-- The value of an ASCII digit. -/
def digit? (c : Char) : Option Nat :=
  if '0' ≤ c ∧ c ≤ '9' then some (c.toNat - '0'.toNat) else none

/-- Reads the digits of `cs` behind those that make up `value`. -/
def digitsAfter (value : Nat) : List Char → Option Nat
  | [] => some value
  | c :: cs => (digit? c).bind fun d => digitsAfter (10 * value + d) cs

/-- The value of one or more digits. -/
def digits? : List Char → Option Nat
  | [] => none
  | c :: cs => digitsAfter 0 (c :: cs)

/-- The value of a numeral, if it is one and does not exceed `bound`. -/
def numeral? (bound : Nat) (cs : List Char) : Option Nat :=
  let value := match cs with
    | '+' :: ds => digits? ds
    | ds => digits? ds
  value.filter (· ≤ bound)

end TryResources.Text
