import CommandGrammar.CodePoints.Word
import CommandGrammar.CodePoints.Basic
import CommandGrammar.Text.Blank
import CommandGrammar.Text.Decimal

/-!
# Log filters

A log filter is a list of directives between commas. A directive is a level, or the name of a
target, either of them followed by nothing, or by a span in square brackets with perhaps fields in
braces, and then by an equals sign and a level. Only whether a filter is well formed matters here.
-/

namespace CommandGrammar

namespace Tool

namespace LogFilter

/-- What has been read of a directive. -/
inductive State
  | start
  | target
  | span
  /-- A field, with its characters so far. -/
  | field (length : Nat)
  | fields
  | afterSpan
  /-- A level, with its characters so far. -/
  | level (read : Text)
deriving DecidableEq, Repr

def isTargetHead (c : Char) : Bool :=
  c == '-' || c == ':' || c == '_' || CodePoints.member CodePoints.word c.toNat

def levelNames : List Text :=
  ["off".toList, "error".toList, "warn".toList, "info".toList, "debug".toList, "trace".toList]

/-- Whether a text is a level: its name in any case, its number, or nothing. -/
def isLevel (text : Text) : Bool :=
  text.isEmpty || levelNames.contains (text.map Char.toLower)
    || ((Decimal.read? text).map fun n => decide (n ≤ 5)).getD false

/-- Reads a character of a directive; nothing if the directive is malformed. -/
def step (state : State) (c : Char) : Option State :=
  match state with
  | .start => if c = '[' then some .span else if isTargetHead c then some .target else none
  | .target => some (if c = '=' then .level [] else if c = '[' then .span else .target)
  | .span => some (if c = ']' then .afterSpan else if c = '\x7b' then .field 0 else .span)
  | .field length =>
    if c = '\x7d' then if length = 0 then none else some .fields else some (.field (length + 1))
  | .fields => if c = ']' then some .afterSpan else none
  | .afterSpan => if c = '=' then some (.level []) else none
  | .level read => some (.level (read ++ [c]))

/-- Whether a directive may end in a state. -/
def isFinal : State → Bool
  | .target | .afterSpan => true
  | .level read => isLevel read
  | _ => false

/-- Whether a directive is well formed. -/
def isDirective (text : Text) : Bool :=
  ((Text.trim text).foldlM step .start).any isFinal

def isWellFormed (text : Text) : Bool :=
  ((Text.splitWhere (· == ',') text).filter (fun d => !d.isEmpty)).all isDirective

example : isWellFormed "warn,engine=debug,[span\x7bf=1\x7d]=trace".toList = true := by decide
example : isWellFormed "][".toList = false := by decide

end LogFilter

end Tool

end CommandGrammar
