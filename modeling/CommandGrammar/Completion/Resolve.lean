import CommandGrammar.Completion.Fit
import CommandGrammar.Grammar.Guess
import CommandGrammar.Line.Usage

/-!
# Completing the last word of a line

The last record of a trace names the slot that completes the last word. Its source is settled: a
guess is made from the name of the record and the placeholder of the slot, and a generator is
asked with the values seen on the line, as is the generator it may answer with, eight times at
most. An empty trace completes file names.

Generators are functions of the values seen; a source refers to one by its number.
-/

namespace CommandGrammar

/-- What every generator answers. -/
abbrev Generators := Nat → Context → Source

/-- How completions are guessed and presented. -/
structure ResolveOptions where
  /-- Whether candidates are shown with their notes. -/
  showNotes : Bool := true
  /-- The columns of a note. -/
  noteWidth : Nat := 40
  /-- Hints for open guesses, consulted before the built-in table. -/
  guesses : List GuessRule := []
deriving Repr

/-- What completes the last word. -/
structure Completion where
  provider : Provider
  /-- What ends the word after a candidate without a suffix of its own. -/
  suffix : Text := [' ']
  /-- The part of the word typed so far. -/
  stub : Text := []
  context : Option MatchContext := none
  name : Option Text := none
  metavar : Text := []
  showNotes : Bool
  noteWidth : Nat
deriving Repr

namespace Completion

/-! ### Settling a source -/

/-- How many generators are asked for one word. -/
def generatorLimit : Nat := 8

/-- The source that a source stands for in the slot of a record; `limit` generators may still be
asked. -/
def settleSource (generators : Generators) (hints : List GuessRule) (record : Record)
    (context : Context) : Nat → Source → Source
  | _, .guess => guessSource record.name record.action.metavar hints
  | 0, .dynamic _ => .nothing
  | limit + 1, .dynamic generator =>
    settleSource generators hints record context limit (generators generator context)
  | _, .literal values => .literal values
  | _, .nothing => .nothing
  | _, .static handle provider => .static handle provider

/-- The provider of a settled source; what a hint left open completes file names. -/
def providerOf : Source → Provider
  | .static _ provider => provider
  | .literal values => .listed (values.map fun v => { value := v })
  | .nothing => .nothing
  | .guess => .files
  | .dynamic _ => .files

/-- The completion of the last word of a trace. -/
def resolve (generators : Generators) (options : ResolveOptions) (history : List Record) :
    Completion :=
  match history.getLast? with
  | none =>
    { provider := .files, showNotes := options.showNotes,
      noteWidth := options.noteWidth }
  | some last =>
    { provider := providerOf (settleSource generators options.guesses last
        (Context.ofHistory history) generatorLimit last.action.source),
      suffix := last.action.suffix.getD [' '],
      stub := last.stub,
      context := some last.context,
      name := some last.name,
      metavar := last.action.metavar,
      showNotes := options.showNotes,
      noteWidth := options.noteWidth }

/-! ### Candidates -/

/-- Whether file names may be offered where there is no candidate. -/
def allowsFallback (c : Completion) : Bool := c.provider.allowsFallback

variable [Widths]

/-- A candidate as it is presented: with a suffix, and with a note that fits. -/
def present (c : Completion) (candidate : Candidate) : Candidate :=
  { candidate with
    suffix := some (candidate.suffix.getD c.suffix)
    note := if c.showNotes then candidate.note.map (Note.fit · c.noteWidth) else none }

def candidatesFor (host : Host) (c : Completion) (stub : Text) : List Candidate :=
  (c.provider.complete host stub).map c.present

/-- The candidates for the word typed so far. -/
def candidates (host : Host) (c : Completion) : List Candidate := c.candidatesFor host c.stub

theorem map_value_candidatesFor (host : Host) (c : Completion) (stub : Text) :
    (c.candidatesFor host stub).map Candidate.value
      = (c.provider.complete host stub).map Candidate.value := by
  simp [candidatesFor, present, Function.comp_def]

end Completion

end CommandGrammar
