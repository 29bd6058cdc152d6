import CommandGrammar.Source.Provider

/-!
# Sources and value slots

A value slot names what it expects and where its completions come from. A *source* is a literal
enumeration, a provider, nothing at all, or one of two things to be settled when the line has been
read: a guess from the names involved, or a generator that looks at the values typed before.

Providers and generators are compared by a handle: two providers of the same description are
different sources unless one is a copy of the other. Handle zero belongs to the providers this
library brings along.
-/

namespace CommandGrammar

/-- Where the completions of a value slot come from. -/
inductive Source
  | literal (values : List Text)
  | guess
  | nothing
  /-- The generator with the given number computes the source from the line. -/
  | dynamic (generator : Nat)
  /-- A provider under the handle by which it is compared. -/
  | static (handle : Nat) (provider : Provider)
deriving DecidableEq, Repr

namespace Source

/-- The enumeration of some values, each once and in the order of its first occurrence. -/
def ofValues (values : List Text) : Source := literal (Text.distinct values)

/-- Whether a source is settled only when a line has been read. -/
def isDeferred : Source → Bool
  | guess => true
  | dynamic _ => true
  | _ => false

/-- The short name of a source in summaries. -/
def label (host : Host) : Source → Text
  | literal values => ['\x7b'] ++ Text.joinWith [','] values ++ ['\x7d']
  | guess => "guess".toList
  | nothing => "none".toList
  | dynamic _ => "dynamic:FnGenerator".toList
  | static _ provider => provider.describe host

/-- A source with its kind and all it holds. -/
def describe (host : Host) : Source → Text
  | literal values => "Literal(".toList ++ Text.quotedList values ++ [')']
  | guess => "Guess".toList
  | nothing => "None".toList
  | dynamic _ => "Dynamic(FnGenerator)".toList
  | static _ provider => "Static(".toList ++ provider.describe host ++ [')']

end Source

/-- The sources that a document names by a keyword. -/
inductive Keyword
  | guess
  | nothing
  | files
  | directories
  | users
  | groups
  | commands
deriving DecidableEq, Repr

namespace Keyword

def ofText? (t : Text) : Option Keyword :=
  if t = "guess".toList then some guess
  else if t = "none".toList then some nothing
  else if t = "files".toList then some files
  else if t = "directories".toList then some directories
  else if t = "users".toList then some users
  else if t = "groups".toList then some groups
  else if t = "commands".toList then some commands
  else none

/-- The source a keyword stands for, its provider under a handle. -/
def toSource (handle : Nat) : Keyword → Source
  | guess => .guess
  | nothing => .nothing
  | files => .static handle .files
  | directories => .static handle .directories
  | users => .static handle .users
  | groups => .static handle .groups
  | commands => .static handle (.commands none)

end Keyword

/-- One value slot. -/
structure Action where
  /-- The placeholder that names the expected value. -/
  metavar : Text := []
  source : Source := .guess
  /-- What ends the word after this slot was completed. -/
  suffix : Option Text := none
deriving DecidableEq, Repr

namespace Action

/-- A slot known by its placeholder alone. -/
def guessed (metavar : Text) : Action := { metavar := metavar }

end Action

end CommandGrammar
