import CommandGrammar.Text.Decimal

/-!
# Documents before they are typed

Grammar documents and configurations are written in YAML or in JSON. A `Tree` is what both have in
common: leaves with the kind of value they describe, lists, and named fields in the order of the
page. A leaf also keeps the text that a text field would take from it: in YAML every scalar has
one, in JSON only a string.

The readers below refuse, by answering `none`, whatever a field of their type does not take. A
record may be written with named fields, each known and standing once, or as a list of its fields
in order; a YAML field that is left empty is an empty list or a record without fields.
-/

namespace CommandGrammar

/-- The kind of value a leaf describes. -/
inductive Kind
  | null
  | bool (b : Bool)
  | natural (n : Nat)
  /-- Zero written with a minus sign. -/
  | minusZero
  /-- A number that is no natural number of a 64-bit word. -/
  | otherNumber
  | text
  /-- A value with a tag of its own. -/
  | foreign
deriving DecidableEq, Repr

/-- A document before it is typed. -/
inductive Tree
  | leaf (kind : Kind) (text : Option Text)
  | list (items : List Tree)
  | fields (entries : List (Option Text × Tree))
deriving Repr, Inhabited

namespace Tree

/-! ### Leaves -/

def text? : Tree → Option Text
  | leaf _ text => text
  | _ => none

/-- The text of a field that may be null. -/
def nullableText? : Tree → Option (Option Text)
  | leaf .null _ => some none
  | leaf _ (some t) => some (some t)
  | _ => none

def bool? : Tree → Option Bool
  | leaf (.bool b) _ => some b
  | _ => none

def naturalBelow? (bound : Nat) : Tree → Option Nat
  | leaf (.natural n) _ => if n < bound then some n else none
  | _ => none

/-- The text of a leaf that describes a text and nothing else. -/
def properText? : Tree → Option Text
  | leaf .text text => text
  | _ => none

def name? : Tree → Option Text
  | leaf .text text => text
  | leaf (.natural n) _ => some (Decimal.write n)
  | leaf .minusZero _ => some ['0']
  | _ => none

/-- The name of a variant without contents. -/
def variant? : Tree → Option Text
  | leaf _ text => text
  | fields [(some name, leaf .null none)] => some name
  | _ => none

/-! ### Lists and records -/

def isEmpty : Tree → Bool
  | leaf .null (some []) => true
  | _ => false

def items? (t : Tree) : Option (List Tree) :=
  match t with
  | list items => some items
  | t => if t.isEmpty then some [] else none

/-- The items of a list, each read by `read`. -/
def listOf? {α : Type} (read : Tree → Option α) (t : Tree) : Option (List α) :=
  t.items?.bind (fun items => items.mapM read)

/-- The fields of a record, in the order they are named here, those left out being empty. -/
def record? (names : List String) (t : Tree) : Option (List (Text × Tree)) :=
  match t with
  | fields entries =>
    (entries.mapM fun (entry : Option Text × Tree) => entry.1.map (·, entry.2)).filter fun known =>
      known.all (fun entry => names.any (fun n => n.toList == entry.1))
        && distinctNames (known.map Prod.fst)
  | list items =>
    if items.length ≤ names.length then some ((names.map String.toList).zip items) else none
  | t => if t.isEmpty then some [] else none
where
  /-- Whether no name stands twice. -/
  distinctNames : List Text → Bool
    | [] => true
    | n :: ns => !ns.contains n && distinctNames ns

/-- A field that must be there. -/
def required {α : Type} (name : String) (read : Tree → Option α) (entries : List (Text × Tree)) :
    Option α :=
  (entries.find? (fun e => e.1 == name.toList)).bind (fun e => read e.2)

/-- A field that has a value when it is left out. -/
def orDefault {α : Type} (name : String) (default : α) (read : Tree → Option α)
    (entries : List (Text × Tree)) : Option α :=
  match entries.find? (fun e => e.1 == name.toList) with
  | some e => read e.2
  | none => some default

end Tree

end CommandGrammar
