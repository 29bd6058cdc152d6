import CommandGrammar.Text.Basic

/-!
# Natural numbers in decimal

A natural number is written with the fewest digits. Reading accepts leading zeros and one leading
plus sign, and only values below a bound: an index or a duration has to fit the machine word it
is declared with.
-/

namespace CommandGrammar

namespace Decimal

/-- The value of a digit, for the ten ASCII digits. -/
def digit? (c : Char) : Option Nat :=
  if '0' ≤ c && c ≤ '9' then some (c.toNat - '0'.toNat) else none

/-- The number that `digits` extend `value` to, if all of them are digits. -/
def extend? (value : Nat) : Text → Option Nat
  | [] => some value
  | c :: cs =>
    match digit? c with
    | some d => extend? (10 * value + d) cs
    | none => none

/-- The number a non-empty run of digits stands for. -/
def digits? : Text → Option Nat
  | [] => none
  | c :: cs => extend? 0 (c :: cs)

/-- One more than the largest value of a 64-bit word. -/
def wordBound : Nat := 18446744073709551616

/-- Reads a run of digits with an optional plus sign as a number below `bound`. -/
def readBelow? (bound : Nat) (text : Text) : Option Nat :=
  let digits := match text with
    | '+' :: rest => rest
    | _ => text
  (digits? digits).filter (· < bound)

/-- Reads a number that fits a 64-bit word. -/
def read? (text : Text) : Option Nat := readBelow? wordBound text

/-- The decimal digits of a number, most significant first. -/
def write (n : Nat) : Text := Nat.toDigits 10 n

/-- The digit character for a value below sixteen, in lower case. -/
def hexDigit (d : Nat) : Char := Nat.digitChar d

/-- The hexadecimal digits of a number, most significant first and in lower case. -/
def writeHex (n : Nat) : Text := Nat.toDigits 16 n

/-- The value of a hexadecimal digit in either case. -/
def hexDigit? (c : Char) : Option Nat :=
  if '0' ≤ c && c ≤ '9' then some (c.toNat - '0'.toNat)
  else if 'a' ≤ c && c ≤ 'f' then some (c.toNat - 'a'.toNat + 10)
  else if 'A' ≤ c && c ≤ 'F' then some (c.toNat - 'A'.toNat + 10)
  else none

/-- The number a non-empty run of digits stands for in a base of at most sixteen. -/
def inBase? (base : Nat) : Text → Option Nat
  | [] => none
  | c :: cs => (c :: cs).foldl
      (fun value c =>
        match value, hexDigit? c with
        | some v, some d => if d < base then some (base * v + d) else none
        | _, _ => none)
      (some 0)

example : read? "+07".toList = some 7 := by decide
example : read? "-7".toList = none := by decide
example : read? "18446744073709551616".toList = none := by decide
example : writeHex 0x1F = "1f".toList := by decide

end Decimal

end CommandGrammar
