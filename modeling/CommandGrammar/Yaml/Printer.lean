import CommandGrammar.Json.Basic
import CommandGrammar.Yaml.Scalar
import CommandGrammar.Yaml.Token

/-!
# Writing YAML

Values are written in block form: every member and item on lines of its own, the items of a list
inside a mapping at the column of its key, empty lists and objects in brackets. A text is plain
where it reads back as the same text; else it is put in single quotes, or in double quotes with
escapes if it holds characters that are not printed. A text with line feeds is a literal block
unless its blanks would be lost there.
-/

namespace CommandGrammar

namespace Yaml

/-! ### Which forms a text may take -/

/-- Whether a character is written as it is; tabs and characters beyond the first plane are
escaped. -/
def isPrinted (c : Char) : Bool :=
  let n := c.toNat
  n == 0x0A || (0x20 ≤ n && n ≤ 0x7E) || (0xA0 ≤ n && n ≤ 0xD7FF)
    || (0xE000 ≤ n && n ≤ 0xFFFD && n != 0xFEFF)

/-- Whether a character begins an indicator when it stands first in a plain scalar. -/
def isLeadingIndicator (c : Char) (next : Option Char) : Bool :=
  "#,[]\x7b\x7d&*!|>'\"%@`".toList.contains c
    || ((c == '?' || c == ':' || c == '-') && endsWord next)

/-- Whether a plain scalar would end or begin a comment inside a text; `last` is the character
before. -/
def hasInnerIndicator : Char → Text → Bool
  | _, [] => false
  | last, c :: cs =>
    (c == ':' && endsWord cs.head?) || (c == '#' && endsWord (some last)) || hasInnerIndicator c cs

/-- Whether the characters of a text would be read as indicators outside quotes. -/
def hasIndicator : Text → Bool
  | [] => false
  | c :: cs =>
    Text.startsWith ['-', '-', '-'] (c :: cs) || Text.startsWith ['.', '.', '.'] (c :: cs)
      || isLeadingIndicator c cs.head? || hasInnerIndicator c cs

/-- Whether one character of the first kind stands directly before one of the second. -/
def hasPair (p q : Char → Bool) : Text → Bool
  | a :: b :: rest => (p a && q b) || hasPair p q (b :: rest)
  | _ => false

/-- Whether a text holds a character that only double quotes can show. -/
def hasSpecial (t : Text) : Bool := t.any (fun c => !isPrinted c)

def endsIn (p : Char → Bool) (t : Text) : Bool := (t.getLast?.map p).getD false

def beginsWith (p : Char → Bool) (t : Text) : Bool := (t.head?.map p).getD false

/-- Whether a text keeps its meaning without quotes. -/
def plainAllowed (t : Text) : Bool :=
  !(t.isEmpty || hasIndicator t || hasSpecial t || t.any isBreak
    || beginsWith (· == ' ') t || endsIn (· == ' ') t)

/-- Whether a text keeps its blanks in single quotes. -/
def singleAllowed (t : Text) : Bool :=
  !(hasSpecial t || hasPair isBreak (· == ' ') t || hasPair (· == ' ') isBreak t)

/-- Whether a text keeps its blanks in a literal block. -/
def literalAllowed (t : Text) : Bool :=
  !(t.isEmpty || hasSpecial t || endsIn (· == ' ') t || hasPair (· == ' ') isBreak t)

/-! ### The forms -/

/-- Hexadecimal digits in upper case, `width` of them. -/
def hexUpper (width n : Nat) : Text :=
  let digits := (Decimal.writeHex n).map Char.toUpper
  List.replicate (width - digits.length) '0' ++ digits

def doubleChar (c : Char) : Text :=
  let n := c.toNat
  if isPrinted c && !isBreak c && c != '"' && c != '\\' then [c]
  else if n == 0 then "\\0".toList
  else if n == 7 then "\\a".toList
  else if n == 8 then "\\b".toList
  else if n == 9 then "\\t".toList
  else if n == 10 then "\\n".toList
  else if n == 11 then "\\v".toList
  else if n == 12 then "\\f".toList
  else if n == 13 then "\\r".toList
  else if n == 0x1B then "\\e".toList
  else if c == '"' then "\\\"".toList
  else if c == '\\' then "\\\\".toList
  else if n == 0x85 then "\\N".toList
  else if n == 0x2028 then "\\L".toList
  else if n == 0x2029 then "\\P".toList
  else if n ≤ 0xFF then "\\x".toList ++ hexUpper 2 n
  else if n ≤ 0xFFFF then "\\u".toList ++ hexUpper 4 n
  else "\\U".toList ++ hexUpper 8 n

def doubleQuoted (t : Text) : Text := ['"'] ++ t.flatMap doubleChar ++ ['"']

/-- The characters of a text in single quotes; after line breaks the margin is written again, and
a run of breaks that begins with a line feed gets one more. -/
def singleBody (margin : Nat) : Bool → Text → Text
  | _, [] => []
  | broken, c :: cs =>
    if isBreak c then
      (if !broken && c == '\n' then ['\n'] else []) ++ [c] ++ singleBody margin true cs
    else
      (if broken then Text.spaces margin else []) ++ (if c == '\'' then ['\'', '\''] else [c])
        ++ singleBody margin false cs

def singleQuoted (margin : Nat) (t : Text) : Text :=
  ['\''] ++ singleBody margin false t
    ++ (if endsIn isBreak t then Text.spaces margin else []) ++ ['\'']

/-- The lines of a literal block; each is moved to the margin. -/
def literalBody (margin : Nat) : Bool → Text → Text
  | _, [] => []
  | broken, c :: cs =>
    if isBreak c then c :: literalBody margin true cs
    else (if broken then Text.spaces margin else []) ++ [c] ++ literalBody margin false cs

/-- A text as a literal block: the margin is announced if the text begins with a blank, and the
line breaks at its end by a minus or plus sign. -/
def literal (margin : Nat) (t : Text) : Text :=
  let hint := if beginsWith (fun c => c == ' ' || isBreak c) t then ['2'] else []
  let chomp :=
    if !endsIn isBreak t then ['-']
    else if endsIn isBreak t.dropLast || t.length == 1 then ['+']
    else []
  ['|'] ++ hint ++ chomp ++ ['\n'] ++ literalBody margin true t

def scalarText (margin : Nat) (t : Text) : Text :=
  if t.contains '\n' then
    if literalAllowed t then literal margin t else doubleQuoted t
  else if kindOf t != .text || isPaddedDigits t || !plainAllowed t then
    if singleAllowed t then singleQuoted margin t else doubleQuoted t
  else t

/-- A value without parts, at the margin of its continuation lines. -/
def leaf (margin : Nat) : Json → Text
  | .null => "null".toList
  | .bool true => "true".toList
  | .bool false => "false".toList
  | .natural n => Decimal.write n
  | .negative n => '-' :: Decimal.write n
  | .real => ".nan".toList
  | .text t => scalarText margin t
  | .list _ => "[]".toList
  | .object _ => "\x7b\x7d".toList

/-- A line break, unless the text before already ends in one. -/
def closeLine (t : Text) : Text := if endsIn (· == '\n') t then t else t ++ ['\n']

/-! ### Collections -/

mutual

/-- The lines of a value at a column, the first one without its margin. -/
def block (column : Nat) : Json → Text
  | .list (item :: items) => blockItems column (item :: items)
  | .object (member :: members) => blockMembers column (member :: members)
  | value => closeLine (leaf (column + 2) value)

def blockItems (column : Nat) : List Json → Text
  | [] => []
  | [item] => ['-', ' '] ++ block (column + 2) item
  | item :: items =>
    ['-', ' '] ++ block (column + 2) item ++ Text.spaces column ++ blockItems column items

def blockMembers (column : Nat) : List (Text × Json) → Text
  | [] => []
  | [(name, value)] => scalarText column name ++ [':'] ++ memberValue column value
  | (name, value) :: members =>
    scalarText column name ++ [':'] ++ memberValue column value ++ Text.spaces column
      ++ blockMembers column members

def memberValue (column : Nat) : Json → Text
  | .list (item :: items) => ['\n'] ++ Text.spaces column ++ blockItems column (item :: items)
  | .object (member :: members) =>
    ['\n'] ++ Text.spaces (column + 2) ++ blockMembers (column + 2) (member :: members)
  | value => [' '] ++ closeLine (leaf (column + 2) value)

end

def render (value : Json) : Text := block 0 value

end Yaml

end CommandGrammar
