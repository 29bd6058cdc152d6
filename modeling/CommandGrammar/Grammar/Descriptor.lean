import CommandGrammar.Grammar.Spec

/-!
# Option descriptors

An option is declared by one line such as

    -o, --output=FILE      write output to FILE

The first tab or run of spaces splits the definition from the description. The definition is cut
into spellings where a comma or a blank stands before a dash outside brackets, and each spelling
into its flag and its value descriptor:

* `--opt` and `--opt ARG`: a separate value, if any;
* `--opt=ARG`: separate or joined by the equals sign;
* `--opt[=ARG]`: joined by the equals sign or left out;
* `-I<DIR>` and `-I\x7bA,B\x7d` with braces: joined without a delimiter;
* `-O[LEVEL]`: joined without a delimiter or left out.
-/

namespace CommandGrammar

namespace Descriptor

/-! ### Definition and description -/

/-- The parts before and after the first tab or the first two spaces in a row; further tabs or
spaces belong to the break. -/
def columnBreak? : Text → Option (Text × Text)
  | [] => none
  | '\t' :: rest => some ([], rest.dropWhile (· == '\t'))
  | ' ' :: ' ' :: rest => some ([], rest.dropWhile (· == ' '))
  | c :: rest => (columnBreak? rest).map fun (left, right) => (c :: left, right)

/-- The definition of a descriptor and its description, if it has one. -/
def splitHelp (descriptor : Text) : Text × Option Text :=
  let trimmed := Text.trim descriptor
  match columnBreak? trimmed with
  | some (left, right) =>
    let help := Text.trim right
    (Text.trim left, if help.isEmpty then none else some help)
  | none => (trimmed, none)

/-! ### Spellings -/

/-- The depth of brackets after a character; closing brackets beyond the first level count for
nothing. -/
def depthAfter (depth : Nat) (c : Char) : Nat :=
  if c == '[' || c == '<' || c == '\x7b' then depth + 1
  else if c == ']' || c == '>' || c == '\x7d' then depth - 1
  else depth

def isSeparator (c : Char) : Bool := c == ',' || Text.isBlank c

/-- A spelling, if it is more than blanks. -/
def spelling? (current : Text) : List Text :=
  let s := Text.trim current
  if s.isEmpty then [] else [s]

/-- Cuts a definition: `depth` brackets are open, `current` is the spelling read so far, and while
`skipping` the separators before the next spelling are dropped. -/
def cutSpellings (depth : Nat) (skipping : Bool) (current : Text) : Text → List Text
  | [] => spelling? current
  | c :: cs =>
    if skipping && isSeparator c then cutSpellings depth true current cs
    else
      let depth := depthAfter depth c
      if depth == 0 && isSeparator c then
        match cs.dropWhile isSeparator with
        | [] => spelling? current
        | '-' :: _ =>
          if Text.isAllBlank current then cutSpellings depth false (current ++ [c]) cs
          else spelling? current ++ cutSpellings depth true [] cs
        | _ => cutSpellings depth false (current ++ [c]) cs
      else cutSpellings depth false (current ++ [c]) cs

/-- Both spellings of `--[no-]name`; any other spelling stands for itself. -/
def expandNegatable (spelling : Text) : List Text :=
  match Text.dropPrefix? "--[no-]".toList spelling with
  | some rest => ["--".toList ++ rest, "--no-".toList ++ rest]
  | none => [spelling]

def splitSpellings (definition : Text) : List Text :=
  (cutSpellings 0 false [] (Text.replaceAll " or -".toList ", -".toList definition)).flatMap
    expandNegatable

/-! ### Value descriptors -/

/-- Cuts value descriptors at blanks outside brackets. -/
def cutMetavars (depth : Nat) (current : Text) : Text → List Text
  | [] => if current.isEmpty then [] else [current]
  | c :: cs =>
    let depth := depthAfter depth c
    if Text.isBlank c && depth == 0 then
      if current.isEmpty then cutMetavars depth [] cs else current :: cutMetavars depth [] cs
    else cutMetavars depth (current ++ [c]) cs

def splitMetavars (text : Text) : List Text := cutMetavars 0 [] text

/-- The surface form of one spelling. -/
structure FlagSyntax where
  flag : Text
  style : ValueStyle := .separate
  delimiter : Text := []
  suffix : Text := [' ']
  valueOptional : Bool := false
  metavars : List Text := []
  /-- Whether a value descriptor ends in an ellipsis. -/
  repeatable : Bool := false
deriving DecidableEq, Repr

def endsFlag (c : Char) : Bool := " \t=[<\x7b".toList.contains c

/-- The flag of a spelling and what follows it; the first character always belongs to the flag. -/
def splitFlag : Text → Text × Text
  | [] => ([], [])
  | c :: cs =>
    (c :: cs.takeWhile (fun c => !endsFlag c), cs.dropWhile (fun c => !endsFlag c))

def hasEllipsis (metavar : Text) : Bool := Text.endsWith ['.', '.', '.'] metavar

/-- A surface form with value descriptors; a descriptor that names no value still declares one. -/
def FlagSyntax.withMetavars (syn : FlagSyntax) (metavars : List Text) : FlagSyntax :=
  let metavars := if metavars.isEmpty then [[]] else metavars
  { syn with metavars := metavars, repeatable := metavars.any hasEllipsis }

/-- The surface form of a flag with the text after it; nothing if a bracket is not closed. -/
def flagSyntax? (flag rest : Text) : Option FlagSyntax :=
  match rest with
  | [] => some { flag := flag }
  | '[' :: '=' :: inner =>
    (Text.dropSuffix? [']'] inner).map fun inner =>
      FlagSyntax.withMetavars
        { flag := flag, style := .inline, delimiter := ['='], suffix := ['='],
          valueOptional := true }
        (splitMetavars inner)
  | '=' :: inner =>
    some (FlagSyntax.withMetavars
      { flag := flag, style := .separateOrInline, delimiter := ['='], suffix := ['='] }
      (splitMetavars inner))
  | '[' :: inner =>
    (Text.dropSuffix? [']'] inner).map fun inner =>
      FlagSyntax.withMetavars
        { flag := flag, style := .inline, suffix := [], valueOptional := true }
        (splitMetavars inner)
  | c :: _ =>
    if c == '<' || c == '\x7b' then
      some (FlagSyntax.withMetavars { flag := flag, style := .inline, suffix := [] }
        (splitMetavars rest))
    else
      let metavars := splitMetavars rest
      some (FlagSyntax.withMetavars
        { flag := flag, valueOptional := ((metavars.head?.bind List.head?) == some '[') } metavars)

/-- The surface form of one spelling, blanks around it and commas after it aside. -/
def parseSpelling (spelling : Text) : Except GrammarError FlagSyntax :=
  let spelling := Text.dropWhileEnd (· == ',') (Text.trim spelling)
  if spelling.isEmpty then .error (.invalidDescriptor spelling)
  else
    let (flag, rest) := splitFlag spelling
    match flagSyntax? flag rest with
    | some s => .ok s
    | none => .error (.invalidDescriptor spelling)

example : splitSpellings "-x or --exclude=PAT".toList = ["-x".toList, "--exclude=PAT".toList] := by
  decide
example : splitSpellings "--[no-]color".toList = ["--color".toList, "--no-color".toList] := by
  decide
example : splitHelp "-x\tExclude".toList = ("-x".toList, some "Exclude".toList) := by decide

end Descriptor

end CommandGrammar
