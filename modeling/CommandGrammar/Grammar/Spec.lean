import CommandGrammar.Grammar.Error
import CommandGrammar.Source.Basic
import CommandGrammar.Text.Blank

/-!
# Specifications

A grammar is a list of specifications, one for every spelling of an option and one for every
positional slot. A specification says how the option or slot is named, how it receives its values,
what it excludes once it was used, and whether it hands the line over to an embedded command.
-/

namespace CommandGrammar

/-! ### Names -/

/-- The place of a positional slot: an index, or whatever is left of the line. -/
inductive PositionalIndex
  | at (n : Nat)
  | rest
deriving DecidableEq, Repr

namespace PositionalIndex

/-- Whether a slot is filled before another; the rest comes after every index. -/
def lt : PositionalIndex → PositionalIndex → Bool
  | .at a, .at b => a < b
  | .at _, .rest => true
  | .rest, _ => false

/-- The index that a name denotes, blanks around it aside. -/
def parse (name : Text) : Except GrammarError PositionalIndex :=
  if Text.trim name = ['*'] then .ok rest
  else
    match Decimal.read? (Text.trim name) with
    | some n => .ok (.at n)
    | none => .error (.invalidPositional name)

def write : PositionalIndex → Text
  | .at n => Decimal.write n
  | .rest => ['*']

end PositionalIndex

inductive SpecName
  /-- The spelling of an option. -/
  | flag (spelling : Text)
  | positional (index : PositionalIndex)
deriving DecidableEq, Repr

def SpecName.write : SpecName → Text
  | .flag spelling => spelling
  | .positional index => index.write

/-- How an option receives its first value. -/
inductive ValueStyle
  /-- As a word of its own. -/
  | separate
  /-- Joined to the flag. -/
  | inline
  | separateOrInline
deriving DecidableEq, Repr

namespace ValueStyle

/-- Whether a value may be joined to the flag. -/
def acceptsInline : ValueStyle → Bool
  | separate => false
  | inline => true
  | separateOrInline => true

def write : ValueStyle → Text
  | separate => "separate".toList
  | inline => "inline".toList
  | separateOrInline => "separate-or-inline".toList

end ValueStyle

/-- A command line of another program inside the line, up to one of its terminators. -/
structure Embedding where
  /-- Words that end the embedded line; without any it goes on to the end. -/
  terminators : List Text := []
deriving DecidableEq, Repr

/-- What becomes unavailable once a specification was used. -/
inductive Exclusion
  | allOptions
  | allPositionals
  | name (name : SpecName)
deriving DecidableEq, Repr

namespace Exclusion

/-- The exclusion a token denotes: a dash for all options, a hash for all positionals, a star or
an index for a slot, anything else for an option. -/
def parse (token : Text) : Except GrammarError Exclusion :=
  if token.isEmpty || token.any Text.isBlank then .error (.invalidExclusion token)
  else if token = ['-'] then .ok allOptions
  else if token = ['#'] then .ok allPositionals
  else if token = ['*'] then .ok (name (.positional .rest))
  else
    match Decimal.read? token with
    | some n => .ok (name (.positional (.at n)))
    | none => .ok (name (.flag token))

def write : Exclusion → Text
  | allOptions => ['-']
  | allPositionals => ['#']
  | name n => n.write

end Exclusion

/-! ### Specifications -/

/-- One spelling of an option or one positional slot. -/
structure Spec where
  name : SpecName
  /-- The other spellings of the same option. -/
  aliases : List Text := []
  style : ValueStyle := .separate
  /-- What joins the flag and a value in one word. -/
  delimiter : Text := []
  /-- What follows the flag once it was completed. -/
  suffix : Text := [' ']
  /-- Whether the value may be left out. -/
  valueOptional : Bool := false
  /-- The value slots. -/
  actions : List Action := []
  excludes : List Exclusion := []
  repeatable : Bool := false
  /-- Whether value slots are neither given to the other spellings nor taken from them. -/
  independent : Bool := false
  embedded : Option Embedding := none
  help : Text := []
deriving DecidableEq, Repr

/-- Whether a spelling is long: it begins with two dashes or is longer than two characters. -/
def isLongFlag (flag : Text) : Bool := Text.startsWith ['-', '-'] flag || flag.length > 2

namespace Spec

def flag? (s : Spec) : Option Text :=
  match s.name with
  | .flag spelling => some spelling
  | .positional _ => none

def index? (s : Spec) : Option PositionalIndex :=
  match s.name with
  | .flag _ => none
  | .positional index => some index

def isOption (s : Spec) : Bool := s.flag?.isSome

def isPositional (s : Spec) : Bool := s.index?.isSome

/-- Whether a slot takes whatever is left of the line. -/
def isUnbounded (s : Spec) : Bool := s.index? == some .rest

def isLong (s : Spec) : Bool := (s.flag?.map isLongFlag).getD false

def takesValue (s : Spec) : Bool := !s.actions.isEmpty

/-- The name under which matches are recorded. -/
def label (s : Spec) : Text := s.name.write

/-- Whether a name is the spelling of an option or one of its aliases. -/
def answersTo (s : Spec) (name : Text) : Bool := s.flag? == some name || s.aliases.contains name

end Spec

/-- Whether a specification is removed by an exclusion. -/
def Exclusion.covers (e : Exclusion) (s : Spec) : Bool :=
  match e with
  | .allOptions => s.isOption
  | .allPositionals => s.isPositional
  | .name (.flag spelling) => s.answersTo spelling
  | .name n => s.name == n

end CommandGrammar
