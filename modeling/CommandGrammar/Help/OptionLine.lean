import CommandGrammar.Text.Blank

/-!
# Lines that list options

An option line is an indentation, a list of spellings, and possibly a description after a tab or
two spaces:

    -o, --output=FILE      write output to FILE

A spelling is a flag with placeholders. There are flags with one or two dashes and operands such
as `bs=BYTES`; a placeholder is joined to what precedes it or stands after one space. Spellings
follow each other after a comma, the word "or" or a space.

A line can often be cut into spellings in several ways. Readers below answer every place where
they can stop, the preferred one first: a run of characters prefers to be long, and a list of
spellings prefers to go on, first with a placeholder and then with another spelling. The first
list in this order whose rest is a description or blank is the one the line has. `readings` finds
it for every end of a line, from the shortest to the longest, so no place is looked at twice.
-/

namespace CommandGrammar

namespace OptionLine

/-! ### Flags -/

/-- The places in a run of characters at which it may stop, the last one first. -/
def runs (p : Char → Bool) : Text → List Text
  | [] => [[]]
  | c :: cs => if p c then runs p cs ++ [c :: cs] else [c :: cs]

def isLower (c : Char) : Bool := 'a' ≤ c && c ≤ 'z'

def isUpper (c : Char) : Bool := 'A' ≤ c && c ≤ 'Z'

def isDigit (c : Char) : Bool := '0' ≤ c && c ≤ '9'

/-- Whether a character may follow the dashes of a flag. -/
def isFlagHead (c : Char) : Bool :=
  isLower c || isUpper c || isDigit c || c == '?' || c == '#' || c == '@'

/-- Whether a character may go on with a flag. -/
def isFlagBody (c : Char) : Bool :=
  isLower c || isUpper c || isDigit c || "-_.+#@".toList.contains c

/-- The ends of the part of a flag after its dashes. -/
def flagBody : Text → List Text
  | c :: cs => if isFlagHead c then runs isFlagBody cs else []
  | [] => []

/-- The ends of an equals sign and a placeholder in capitals after the name of an operand. -/
def assigned : Text → List Text
  | '=' :: c :: cs =>
    if isUpper c then runs (fun c => isUpper c || isDigit c || c == '_') cs else []
  | _ => []

/-- The ends of an operand with an equals sign and a placeholder. -/
def operand : Text → List Text
  | c :: cs =>
    if isLower c then assigned (cs.dropWhile fun c => isLower c || isDigit c || c == '_') else []
  | [] => []

def flag : Text → List Text
  | '-' :: '-' :: cs => flagBody cs
  | '-' :: cs => flagBody cs
  | cs => operand cs

/-! ### Placeholders -/

def bracketed (closing : Char) (cs : Text) : List Text :=
  match cs.dropWhile (· != closing) with
  | _ :: rest => [rest]
  | [] => []

/-- The ends of a placeholder in brackets. -/
def inBrackets : Text → List Text
  | '[' :: cs => bracketed ']' cs
  | '<' :: cs => bracketed '>' cs
  | '\x7b' :: cs => bracketed '\x7d' cs
  | _ => []

/-- Whether a character may follow an equals sign. -/
def isJoined (c : Char) : Bool :=
  isLower c || isUpper c || isDigit c || "_.:/|<>-".toList.contains c

/-- Whether a character may go on with a placeholder in capitals. -/
def isCapital (c : Char) : Bool := isUpper c || isDigit c || "_.:-".toList.contains c

/-- The ends of a placeholder in capitals, with or without an ellipsis. -/
def capitals : Text → List Text
  | c :: cs =>
    if isUpper c then
      (runs isCapital cs).flatMap fun rest =>
        match Text.dropPrefix? ['.', '.', '.'] rest with
        | some shorter => [shorter, rest]
        | none => [rest]
    else []
  | [] => []

def placeholder : Text → List Text
  | '=' :: cs => runs isJoined cs
  | ' ' :: cs => capitals cs ++ inBrackets cs
  | cs => inBrackets cs

/-! ### Lists of spellings -/

/-- The ends of a separator and the flag after it. -/
def nextFlag : Text → List Text
  | ',' :: ' ' :: cs => flag cs
  | ',' :: cs => flag cs
  | ' ' :: cs =>
    (match Text.dropPrefix? "or ".toList cs with
      | some rest => flag rest
      | none => []) ++ flag cs
  | _ => []

/-- The places to which a list of spellings may go on, the preferred one first. -/
def goOn (cs : Text) : List Text := placeholder cs ++ nextFlag cs

def isMargin (c : Char) : Bool := c == ' ' || c == '\t'

/-- What follows a comma at the beginning of a text. -/
def afterComma : Text → Text
  | ',' :: rest => rest
  | cs => cs

/-- What follows the tabs, or the two or more spaces, at the beginning of a text. -/
def afterGap : Text → Text
  | '\t' :: rest => rest.dropWhile (· == '\t')
  | ' ' :: ' ' :: rest => rest.dropWhile (· == ' ')
  | _ => []

/-- The description after a tab or two spaces, if it is one, and what is left blank of the line;
the answer is the text from the description on, or nothing for a line without one. -/
def description? (cs : Text) : Option (Option Text) :=
  let cs := afterComma cs
  if cs.all isMargin then some none
  else
    match afterGap cs with
    | c :: rest => if Text.isBlank c then none else some (some (c :: rest))
    | [] => none

/-- What the end of a line is read as: where its list of spellings stops, and the text from the
description on. -/
structure Reading where
  after : Text
  description : Option Text
deriving DecidableEq, Repr

def firstReading? (length : Nat) (all : List (Option Reading)) (ends : List Text) :
    Option Reading :=
  ends.findSome? fun rest => (all[length - rest.length]?).getD none

/-- The readings of all ends of a line, the longest end first. -/
def readings : Text → List (Option Reading)
  | [] => [(description? []).map (Reading.mk [])]
  | c :: cs =>
    let shorter := readings cs
    (match firstReading? cs.length shorter (goOn (c :: cs)) with
      | some reading => some reading
      | none => (description? (c :: cs)).map (Reading.mk (c :: cs))) :: shorter

/-- The reading of a line after its indentation. -/
def reading? (body : Text) : Option Reading :=
  match flag body with
  | [] => none
  | ends => firstReading? body.length (readings body) ends

/-! ### Columns -/

/-- The distance between tab stops. -/
def tabWidth : Nat := 8

/-- The column after a text that starts at a column; a tab leads to the next stop. -/
def columnAfter (column : Nat) (text : Text) : Nat :=
  text.foldl (fun column c => if c == '\t' then (column / tabWidth + 1) * tabWidth else column + 1)
    column

def indentOf (line : Text) : Nat := columnAfter 0 (line.takeWhile Text.isBlank)

/-- A line indented deeper than this is prose. -/
def maxIndent : Nat := 24

end OptionLine

/-- A line that lists the spellings of an option. -/
structure OptionLine where
  indent : Nat
  flags : Text
  /-- The description on the same line and the column it begins at. -/
  description : Option (Nat × Text)
deriving DecidableEq, Repr

namespace OptionLine

/-- The beginning of a line before one of its ends. -/
def before (line rest : Text) : Text := line.take (line.length - rest.length)

def read? (line : Text) : Option OptionLine :=
  let body := line.dropWhile isMargin
  let indent := columnAfter 0 (line.takeWhile isMargin)
  match reading? body with
  | none => none
  | some reading =>
    if maxIndent < indent then none
    else
      some
        { indent := indent
          flags := before body reading.after
          description := reading.description.map fun text =>
            (columnAfter 0 (before line text), Text.trim text) }

end OptionLine

end CommandGrammar
