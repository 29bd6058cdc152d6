import CommandGrammar.Text.Basic

/-!
# JSON values

A value as it is written down: the members of an object keep their order and their duplicates, so
that a reader of a document can refuse a member that stands twice. Numbers other than integers of
a 64-bit word occur only to be refused, and keep no value.
-/

namespace CommandGrammar

/-- A JSON value. -/
inductive Json
  | null
  | bool (b : Bool)
  | natural (n : Nat)
  /-- The integer below zero with the given distance from it. -/
  | negative (n : Nat)
  /-- A number with a fraction, an exponent or too many digits. -/
  | real
  | text (t : Text)
  | list (items : List Json)
  | object (members : List (Text × Json))
deriving Repr, Inhabited

namespace Json

def get? (name : Text) : Json → Option Json
  | object members => (members.find? (fun m => m.1 == name)).map Prod.snd
  | _ => none

/-- A text given as a string literal or computed as a string. -/
def str (s : String) : Json := text s.toList

/-- An object whose member names are string literals. -/
def obj (members : List (String × Json)) : Json :=
  object (members.map fun (name, value) => (name.toList, value))

def textOrNull : Option Text → Json
  | some t => text t
  | none => null

end Json

end CommandGrammar
