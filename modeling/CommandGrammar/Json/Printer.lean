import CommandGrammar.Json.Basic
import CommandGrammar.Text.Decimal

/-!
# Writing JSON

Two layouts of the same values: `compact` on one line without blanks, and `pretty` with one item
to a line, two spaces deeper for every level, where an empty list or object stays on its line.
-/

namespace CommandGrammar

namespace Json

/-- A character inside a string: the quote, the backslash and controls are escaped. -/
def escapeChar (c : Char) : Text :=
  if c == '"' then ['\\', '"']
  else if c == '\\' then ['\\', '\\']
  else if c == '\n' then ['\\', 'n']
  else if c == '\r' then ['\\', 'r']
  else if c == '\t' then ['\\', 't']
  else if c == '\x08' then ['\\', 'b']
  else if c == '\x0c' then ['\\', 'f']
  else if c.toNat < 0x20 then
    ['\\', 'u', '0', '0', Decimal.hexDigit (c.toNat / 16), Decimal.hexDigit (c.toNat % 16)]
  else [c]

def stringText (t : Text) : Text := ['"'] ++ t.flatMap escapeChar ++ ['"']

/-- A value that has no parts. -/
def leafText : Json → Text
  | null => "null".toList
  | bool true => "true".toList
  | bool false => "false".toList
  | natural n => Decimal.write n
  | negative n => '-' :: Decimal.write n
  | real => "0.0".toList
  | text t => stringText t
  | list _ => "[]".toList
  | object _ => "\x7b\x7d".toList

mutual

def compact : Json → Text
  | list items => ['['] ++ compactItems items ++ [']']
  | object members => ['\x7b'] ++ compactMembers members ++ ['\x7d']
  | leaf => leafText leaf

def compactItems : List Json → Text
  | [] => []
  | [item] => compact item
  | item :: items => compact item ++ [','] ++ compactItems items

def compactMembers : List (Text × Json) → Text
  | [] => []
  | [(name, value)] => stringText name ++ [':'] ++ compact value
  | (name, value) :: members =>
    stringText name ++ [':'] ++ compact value ++ [','] ++ compactMembers members

end

def margin (level : Nat) : Text := '\n' :: Text.spaces (2 * level)

mutual

/-- A value at a level, its parts on lines of their own. -/
def prettyAt (level : Nat) : Json → Text
  | list [] => "[]".toList
  | list (item :: items) =>
    ['['] ++ prettyItems (level + 1) (item :: items) ++ margin level ++ [']']
  | object [] => "\x7b\x7d".toList
  | object (member :: members) =>
    ['\x7b'] ++ prettyMembers (level + 1) (member :: members) ++ margin level ++ ['\x7d']
  | leaf => leafText leaf

/-- Items on lines of their own with commas after all but the last. -/
def prettyItems (level : Nat) : List Json → Text
  | [] => []
  | [item] => margin level ++ prettyAt level item
  | item :: items => margin level ++ prettyAt level item ++ [','] ++ prettyItems level items

/-- Members on lines of their own with commas after all but the last. -/
def prettyMembers (level : Nat) : List (Text × Json) → Text
  | [] => []
  | [(name, value)] => margin level ++ stringText name ++ [':', ' '] ++ prettyAt level value
  | (name, value) :: members =>
    margin level ++ stringText name ++ [':', ' '] ++ prettyAt level value ++ [',']
      ++ prettyMembers level members

end

/-- A value with one item to a line. -/
def pretty (value : Json) : Text := prettyAt 0 value

end Json

end CommandGrammar
