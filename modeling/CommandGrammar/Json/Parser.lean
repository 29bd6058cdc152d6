import CommandGrammar.Document.Tree
import CommandGrammar.Json.Basic

/-!
# Reading JSON

The reader accepts exactly one value with blanks around it. It refuses control characters inside
strings, unknown escapes, surrogates without their partner, numbers with leading zeros or missing
digits, and anything after the value.

The reader of a value calls itself for the items of lists and objects; every call stands after at
least one more character, so the length of the text bounds their depth.
-/

namespace CommandGrammar

namespace Json

def skipBlanks : Text → Text
  | c :: cs => if c == ' ' || c == '\n' || c == '\r' || c == '\t' then skipBlanks cs else c :: cs
  | [] => []

/-- The unit that four hexadecimal digits stand for, and what follows them. -/
def hexUnit? : Text → Option (Nat × Text)
  | a :: b :: c :: d :: rest => (Decimal.inBase? 16 [a, b, c, d]).map (·, rest)
  | _ => none

def letterEscape? (c : Char) : Option Char :=
  if c == '"' then some '"'
  else if c == '\\' then some '\\'
  else if c == '/' then some '/'
  else if c == 'b' then some '\x08'
  else if c == 'f' then some '\x0c'
  else if c == 'n' then some '\n'
  else if c == 'r' then some '\r'
  else if c == 't' then some '\t'
  else none

/-- The character of a `\u` escape after the `u`, two escapes if it is a surrogate pair. -/
def unicodeEscape? (cs : Text) : Option (Char × Text) :=
  match hexUnit? cs with
  | none => none
  | some (unit, rest) =>
    if 0xD800 ≤ unit && unit < 0xDC00 then
      match rest with
      | '\\' :: 'u' :: rest =>
        match hexUnit? rest with
        | some (low, rest) =>
          if 0xDC00 ≤ low && low < 0xE000 then
            some (Char.ofNat (0x10000 + (unit - 0xD800) * 0x400 + (low - 0xDC00)), rest)
          else none
        | none => none
      | _ => none
    else if 0xDC00 ≤ unit && unit < 0xE000 then none
    else some (Char.ofNat unit, rest)

/-- The characters of a string up to its closing quote, and what follows it; `done` holds those
already read, last first. -/
def stringBody : Nat → Text → Text → Option (Text × Text)
  | 0, _, _ => none
  | _ + 1, _, [] => none
  | _ + 1, done, '"' :: rest => some (done.reverse, rest)
  | fuel + 1, done, '\\' :: 'u' :: rest =>
    match unicodeEscape? rest with
    | some (c, rest) => stringBody fuel (c :: done) rest
    | none => none
  | fuel + 1, done, '\\' :: c :: rest =>
    match letterEscape? c with
    | some c => stringBody fuel (c :: done) rest
    | none => none
  | fuel + 1, done, c :: rest =>
    if c == '\\' || c.toNat < 0x20 then none else stringBody fuel (c :: done) rest

/-- The longest run of digits at the beginning of a text, and what follows it. -/
def digitRun (cs : Text) : Text × Text :=
  (cs.takeWhile (fun c => '0' ≤ c && c ≤ '9'), cs.dropWhile (fun c => '0' ≤ c && c ≤ '9'))

/-- What follows a fraction, or the same text if there is none; a point needs digits. -/
def fraction? : Text → Option (Bool × Text)
  | '.' :: rest =>
    let (digits, rest) := digitRun rest
    if digits.isEmpty then none else some (true, rest)
  | rest => some (false, rest)

/-- What follows an exponent, or the same text if there is none; the mark needs digits. -/
def exponent? : Text → Option (Bool × Text)
  | c :: rest =>
    if c == 'e' || c == 'E' then
      let (digits, rest) := digitRun (match rest with
        | '+' :: rest => rest
        | '-' :: rest => rest
        | rest => rest)
      if digits.isEmpty then none else some (true, rest)
    else some (false, c :: rest)
  | [] => some (false, [])

/-- The value of an integer, if it fits a 64-bit word; zero with a minus sign is no integer. -/
def integer (minus : Bool) (n : Nat) : Json :=
  if minus then if n = 0 || n > Decimal.wordBound / 2 then .real else .negative n
  else if n < Decimal.wordBound then .natural n else .real

def number? (cs : Text) : Option (Json × Text) := do
  let (minus, cs) := match cs with
    | '-' :: cs => (true, cs)
    | cs => (false, cs)
  let (digits, rest) := digitRun cs
  let n ← Decimal.digits? digits
  if digits.length > 1 && digits.head? == some '0' then none
  let (broken, rest) ← fraction? rest
  let (scaled, rest) ← exponent? rest
  return (if broken || scaled then .real else integer minus n, rest)

mutual

/-- A value at the beginning of a text, and what follows it. -/
def value? : Nat → Text → Option (Json × Text)
  | 0, _ => none
  | fuel + 1, input =>
    match skipBlanks input with
    | '"' :: rest => (stringBody (rest.length + 1) [] rest).map fun (t, rest) => (.text t, rest)
    | '[' :: rest =>
      match skipBlanks rest with
      | ']' :: rest => some (.list [], rest)
      | rest => (items? fuel [] rest).map fun (items, rest) => (.list items, rest)
    | '\x7b' :: rest =>
      match skipBlanks rest with
      | '\x7d' :: rest => some (.object [], rest)
      | rest => (members? fuel [] rest).map fun (members, rest) => (.object members, rest)
    | 'n' :: 'u' :: 'l' :: 'l' :: rest => some (.null, rest)
    | 't' :: 'r' :: 'u' :: 'e' :: rest => some (.bool true, rest)
    | 'f' :: 'a' :: 'l' :: 's' :: 'e' :: rest => some (.bool false, rest)
    | rest => number? rest

/-- The items of a list up to its closing bracket, and what follows it. -/
def items? : Nat → List Json → Text → Option (List Json × Text)
  | 0, _, _ => none
  | fuel + 1, done, input =>
    match value? fuel input with
    | none => none
    | some (item, rest) =>
      match skipBlanks rest with
      | ',' :: rest => items? fuel (item :: done) rest
      | ']' :: rest => some ((item :: done).reverse, rest)
      | _ => none

/-- The members of an object up to its closing brace, and what follows it. -/
def members? : Nat → List (Text × Json) → Text → Option (List (Text × Json) × Text)
  | 0, _, _ => none
  | fuel + 1, done, input =>
    match skipBlanks input with
    | '"' :: rest =>
      match stringBody (rest.length + 1) [] rest with
      | none => none
      | some (name, rest) =>
        match skipBlanks rest with
        | ':' :: rest =>
          match value? fuel rest with
          | none => none
          | some (value, rest) =>
            match skipBlanks rest with
            | ',' :: rest => members? fuel ((name, value) :: done) rest
            | '\x7d' :: rest => some (((name, value) :: done).reverse, rest)
            | _ => none
        | _ => none
    | _ => none

end

/-- The value a text stands for, if it is one. -/
def parse? (input : Text) : Option Json :=
  match value? (2 * input.length + 2) input with
  | some (value, rest) => if (skipBlanks rest).isEmpty then some value else none
  | none => none

/-! ### As a tree -/

mutual

/-- A value as an untyped document; only a string has a text. -/
def toTree : Json → Tree
  | .null => .leaf .null none
  | .bool b => .leaf (.bool b) none
  | .natural n => .leaf (.natural n) none
  | .negative _ => .leaf .otherNumber none
  | .real => .leaf .otherNumber none
  | .text t => .leaf .text (some t)
  | .list items => .list (toTrees items)
  | .object members => .fields (toFields members)

def toTrees : List Json → List Tree
  | [] => []
  | item :: items => toTree item :: toTrees items

def toFields : List (Text × Json) → List (Option Text × Tree)
  | [] => []
  | (name, value) :: rest => (some name, toTree value) :: toFields rest

end

def parseTree? (input : Text) : Option Tree := (parse? input).map toTree

end Json

end CommandGrammar
