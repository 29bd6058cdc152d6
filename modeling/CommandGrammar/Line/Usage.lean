import CommandGrammar.Line.Context
import CommandGrammar.Line.Record

/-!
# What a trace says about values

The parts of one match stand next to each other in a trace and share an occurrence number; the
last of them knows all values. Every match of a known specification gives its list of values to
the name it was matched by and to every alias, so that a generator can ask for either spelling.
-/

namespace CommandGrammar

/-- One match of a trace: its first part, and the values known at its last. -/
structure Usage where
  record : Record
  values : List Text
deriving DecidableEq, Repr

/-- The matches of some parts that all belong to matches: neighbours with one occurrence number
are one match. -/
def Usage.ofMatches : List Record → List Usage
  | [] => []
  | r :: rs =>
    match ofMatches rs with
    | [] => [⟨r, r.valuesSoFar⟩]
    | u :: us =>
      if u.record.occurrence = r.occurrence then ⟨r, u.values⟩ :: us
      else ⟨r, r.valuesSoFar⟩ :: u :: us

/-- The matches of known specifications in a trace. -/
def Usage.ofHistory (history : List Record) : List Usage :=
  ofMatches (history.filter Record.isMatch)

/-- The names that learn of a match. -/
def Usage.names (u : Usage) : List Text :=
  u.record.name :: (u.record.member.map (fun m => m.spec.aliases)).getD []

/-- A context with the values of one more match. -/
def Context.insertUsage (context : Context) (u : Usage) : Context :=
  u.names.foldl (fun c name => c.insert name u.values) context

/-- The values seen on a line, by name. -/
def Context.ofHistory (history : List Record) : Context :=
  (Usage.ofHistory history).foldl Context.insertUsage []

end CommandGrammar
