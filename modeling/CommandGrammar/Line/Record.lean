import CommandGrammar.Files.Path
import CommandGrammar.Grammar.Basic

/-!
# Records of a line

Reading a command line leaves a trace of records. A record covers one word or one part of a word:
the name of an option, a value, an operand, or a word nobody knows. The records of one match share
an occurrence number, which is one more than all numbers given before.
-/

namespace CommandGrammar

/-- How a word was understood. -/
inductive MatchContext
  | option
  | positional
  | unknownOption
  | unknownPositional
deriving DecidableEq, Repr

namespace MatchContext

def isUnknown : MatchContext → Bool
  | unknownOption => true
  | unknownPositional => true
  | _ => false

def write : MatchContext → Text
  | option => "option".toList
  | positional => "positional".toList
  | unknownOption => "unknown-option".toList
  | unknownPositional => "unknown-positional".toList

end MatchContext

/-- One part of the trace. -/
structure Record where
  context : MatchContext := .option
  /-- The matched spelling, the label of the slot, or the word itself. -/
  name : Text := []
  member : Option Member := none
  /-- The slot that completes this part. -/
  action : Action := {}
  /-- The place of the value slot; a name has none. -/
  slot : Option Nat := none
  occurrence : Nat := 0
  /-- The values of the same match before this part. -/
  values : List Text := []
  /-- The text this part covers. -/
  stub : Text := []
deriving DecidableEq, Repr

namespace Record

def isValue (r : Record) : Bool := r.slot.isSome

/-- Whether a part belongs to the match of a known specification. -/
def isMatch (r : Record) : Bool := !r.context.isUnknown && r.member.isSome

/-- The values of the match up to this part. -/
def valuesSoFar (r : Record) : List Text := if r.isValue then r.values ++ [r.stub] else []

end Record

/-- The occurrence number of the next match. -/
def nextOccurrence (history : List Record) : Nat :=
  history.foldl (fun bound r => max bound (r.occurrence + 1)) 0

/-- A line being read. -/
structure Line where
  /-- The words still to be read. -/
  tokens : List Text
  /-- The specifications that may still be matched. -/
  available : List Member
  history : List Record := []
  /-- The programs whose grammar was asked for, in the order of asking. -/
  consulted : List Text := []
deriving Repr

namespace Line

def push (l : Line) (r : Record) : Line := { l with history := l.history ++ [r] }

/-- The name of a program without the directories before it. -/
def programName (command : Text) : Text := (Path.fileName? command).getD command

/-- The name of a program is found without its directories, and once more it is the same. -/
theorem programName_programName (command : Text) :
    programName (programName command) = programName command := by
  cases hname : Path.fileName? command with
  | none =>
    have hself : programName command = command := by
      unfold programName
      rw [hname]
      rfl
    rw [hself, hself]
  | some name =>
    have hself : programName command = name := by
      unfold programName
      rw [hname]
      rfl
    rw [hself, programName, Path.fileName?_fileName? hname]
    rfl

/-! ### Slots that are no values -/

/-- The slot that offers every option still available, with its description. -/
def catchAll (members : List Member) : Action :=
  { source := .static 0 (.listed (members.filterMap fun m =>
      m.spec.flag?.map fun flag =>
        ({ value := flag, suffix := some m.spec.suffix } : Candidate).withNote m.spec.help)) }

def unknownRecord (l : Line) (context : MatchContext) (token : Text) : Record :=
  { context := context, name := token, action := catchAll l.available,
    occurrence := nextOccurrence l.history, stub := token }

def markerRecord (l : Line) (token : Text) : Record :=
  { context := .option, name := token, action := { source := .nothing },
    occurrence := nextOccurrence l.history, stub := token }

/-- The name under which the program of an embedded line is recorded. -/
def commandName : Text := "COMMAND".toList

/-- The record of the program of an embedded line. -/
def commandRecord (l : Line) (command : Text) : Record :=
  { context := .positional, name := commandName,
    action := { metavar := commandName, source := .static 0 (.commands none) },
    slot := some 0, occurrence := nextOccurrence l.history, stub := command }

def terminatorRecord (l : Line) (token : Text) : Record :=
  { context := .positional, name := token, action := { source := .nothing },
    occurrence := nextOccurrence l.history, stub := token }

end Line

/-! ### Occurrence numbers -/

theorem le_foldl_occurrence (history : List Record) (bound : Nat) :
    bound ≤ history.foldl (fun bound r => max bound (r.occurrence + 1)) bound := by
  induction history generalizing bound with
  | nil => exact Nat.le_refl bound
  | cons r rs ih =>
    have := ih (max bound (r.occurrence + 1))
    rw [List.foldl_cons]
    omega

theorem occurrence_lt_foldl {history : List Record} {r : Record} (h : r ∈ history)
    (bound : Nat) :
    r.occurrence < history.foldl (fun bound r => max bound (r.occurrence + 1)) bound := by
  induction history generalizing bound with
  | nil => simp at h
  | cons x rs ih =>
    rw [List.foldl_cons]
    rcases List.mem_cons.1 h with rfl | h
    · have := le_foldl_occurrence rs (max bound (r.occurrence + 1))
      omega
    · exact ih h _

theorem occurrence_lt_nextOccurrence {history : List Record} {r : Record} (h : r ∈ history) :
    r.occurrence < nextOccurrence history := occurrence_lt_foldl h 0

end CommandGrammar
