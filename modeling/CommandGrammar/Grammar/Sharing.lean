import CommandGrammar.Grammar.Spec

/-!
# Sharing value slots between the spellings of an option

A descriptor such as `-o, --output=FILE` attaches the value slot to the last spelling alone. The
spellings that declare a slot are *donors* to those that do not. A recipient prefers a donor of its
own length class, whose delimiter and suffix it takes over as they are; from a donor of the other
class it takes the slots and the style and derives delimiter and suffix for its own class, because
a long spelling joins its value with an equals sign and a short one with nothing.

Everything here works on the list of all specifications. A group is given by the places of its
members, and sharing changes a recipient in place: names, aliases and the number of specifications
stay.
-/

namespace CommandGrammar

/-! ### Delimiter and suffix by length class -/

/-- What joins a flag of a length class and an inline value. -/
def inlineDelimiter (long : Bool) : Text := if long then ['='] else []

/-- What follows a flag of a given form once it was completed. -/
def flagSuffix (style : ValueStyle) (delimiter : Text) (long : Bool) : Text :=
  match style with
  | .separate => [' ']
  | .separateOrInline => if long then delimiter else [' ']
  | .inline => delimiter

namespace Spec

/-! ### Donors and recipients -/

/-- Whether a specification gives its value slots to other spellings. -/
def isDonor (s : Spec) : Bool := s.takesValue && !s.independent

/-- Whether a specification takes the value slots of another spelling. -/
def isRecipient (s : Spec) : Bool := !s.takesValue && !s.independent

/-- The donor for a recipient: the first of its length class, else the first of all. -/
def donorFor? (donors : List Spec) (recipient : Spec) : Option Spec :=
  match donors.find? (fun d => d.isLong == recipient.isLong) with
  | some donor => some donor
  | none => donors.head?

/-- What joins flag and value once a specification has taken the slots of a donor. -/
def receivedDelimiter (recipient donor : Spec) : Text :=
  if donor.isLong == recipient.isLong then donor.delimiter
  else if donor.style == .separate then []
  else inlineDelimiter recipient.isLong

/-- What follows the flag once a specification has taken the slots of a donor. -/
def receivedSuffix (recipient donor : Spec) : Text :=
  if donor.isLong == recipient.isLong then donor.suffix
  else flagSuffix donor.style (recipient.receivedDelimiter donor) recipient.isLong

/-- A specification with the value slots of a donor. -/
def receive (recipient donor : Spec) : Spec :=
  { recipient with
    actions := donor.actions
    style := donor.style
    valueOptional := donor.valueOptional
    repeatable := recipient.repeatable || donor.repeatable
    delimiter := recipient.receivedDelimiter donor
    suffix := recipient.receivedSuffix donor }

def shareWith (donors : List Spec) (s : Spec) : Spec :=
  if s.isRecipient then
    match donorFor? donors s with
    | some donor => s.receive donor
    | none => s
  else s

end Spec

/-! ### Groups -/

def lastPlace? (specs : List Spec) (flag : Text) : Option Nat :=
  ((List.range specs.length).filter
    (fun i => ((specs[i]?).bind Spec.flag?) == some flag)).getLast?

/-- The places of an option and of its aliases, in increasing order. -/
def aliasGroup (specs : List Spec) (start : Nat) : List Nat :=
  match specs[start]? with
  | none => []
  | some s =>
    let places := s.aliases.filterMap (lastPlace? specs)
    (List.range specs.length).filter (fun i => i == start || places.contains i)

/-- The specifications after sharing among the members of one group. -/
def shareGroup (specs : List Spec) (group : List Nat) : List Spec :=
  let donors := (group.filterMap (fun i => specs[i]?)).filter Spec.isDonor
  specs.mapIdx (fun i s => if group.contains i then s.shareWith donors else s)

/-- Shares in the group of one place, unless a group seen before had it or it is no option. -/
def shareStep (state : List Spec × List Nat) (start : Nat) : List Spec × List Nat :=
  if state.2.contains start || !(((state.1)[start]?).any Spec.isOption) then state
  else
    let group := aliasGroup state.1 start
    (shareGroup state.1 group, state.2 ++ group)

/-- The specifications after sharing in every group, from the first place to the last. -/
def shareAliases (specs : List Spec) : List Spec :=
  ((List.range specs.length).foldl shareStep (specs, [])).1

/-! ### What sharing keeps -/

namespace Spec

theorem shareWith_name (donors : List Spec) (s : Spec) : (s.shareWith donors).name = s.name := by
  unfold shareWith
  split
  · split <;> rfl
  · rfl

theorem shareWith_aliases (donors : List Spec) (s : Spec) :
    (s.shareWith donors).aliases = s.aliases := by
  unfold shareWith
  split
  · split <;> rfl
  · rfl

theorem shareWith_of_takesValue (donors : List Spec) {s : Spec} (h : s.takesValue = true) :
    s.shareWith donors = s := by simp [shareWith, isRecipient, h]

end Spec

theorem length_shareGroup (specs : List Spec) (group : List Nat) :
    (shareGroup specs group).length = specs.length := by simp [shareGroup]

theorem length_foldl_shareStep (starts : List Nat) (state : List Spec × List Nat) :
    (starts.foldl shareStep state).1.length = state.1.length := by
  induction starts generalizing state with
  | nil => rfl
  | cons start starts ih =>
    rw [List.foldl_cons, ih]
    unfold shareStep
    split <;> simp [length_shareGroup]

theorem length_shareAliases (specs : List Spec) : (shareAliases specs).length = specs.length := by
  rw [shareAliases, length_foldl_shareStep]

end CommandGrammar
