import CommandGrammar.Line.Record

/-!
# Which option a word names

A word names an option by its exact spelling; or it carries a value after the longest matching
flag and delimiter; or it abbreviates a long option. Two options that fit equally well make the
word ambiguous. A short word that names no option may still be a cluster of short flags.
-/

namespace CommandGrammar

/-- What a word is, as far as options go. -/
inductive OptionHit
  /-- The word names the option; its values follow. -/
  | named (m : Member)
  /-- The word carries the first value after the flag. -/
  | inline (m : Member) (value : Text)
  | ambiguous
  | miss
deriving DecidableEq, Repr

namespace Line

/-- Whether a word looks like an option; a lone dash does while it is being completed. -/
def isFlagLike (token : Text) (isLast : Bool) : Bool :=
  match token with
  | '-' :: rest => !rest.isEmpty || isLast
  | _ => false

/-! ### Inline values -/

/-- The value a word carries for an option. -/
def inlineValue? (token : Text) (s : Spec) : Option Text :=
  match s.flag? with
  | none => none
  | some flag =>
    if s.takesValue && s.style.acceptsInline && decide (flag.length < token.length) then
      Text.dropPrefix? (flag ++ s.delimiter) token
    else none

/-- The options a word carries a value for, with the values. -/
def inlineFits (members : List Member) (token : Text) : List (Member × Text) :=
  members.filterMap fun m => (inlineValue? token m.spec).map fun value => (m, value)

/-- The fits whose flag and delimiter are the longest, so that their values are the shortest. -/
def longestFits (fits : List (Member × Text)) : List (Member × Text) :=
  fits.filter fun fit => fits.all fun other => fit.2.length ≤ other.2.length

/-! ### Abbreviations -/

/-- The long options that begin with a text. -/
def abbreviated (members : List Member) (name : Text) : List Member :=
  members.filter fun m =>
    match m.spec.flag? with
    | some flag => Text.startsWith ['-', '-'] flag && Text.startsWith name flag
    | none => false

/-- The option that a word abbreviates. The last word may still grow and abbreviates nothing, but
for one with an equals sign, whose part before it is complete. -/
def abbreviation (members : List Member) (token : Text) (isLast : Bool) : OptionHit :=
  if !Text.startsWith ['-', '-'] token || token.length < 3 then .miss
  else
    match Text.cutAt? (· == '=') token with
    | some (name, value) =>
      match abbreviated members name with
      | [] => .miss
      | [m] => if m.spec.takesValue && m.spec.style.acceptsInline then .inline m value else .miss
      | _ => .ambiguous
    | none =>
      if isLast then .miss
      else
        match abbreviated members token with
        | [] => .miss
        | [m] => .named m
        | _ => .ambiguous

/-! ### Options and clusters -/

def exactly? (members : List Member) (token : Text) : Option Member :=
  members.find? fun m => m.spec.flag? == some token

/-- The option a word names. -/
def findOption (members : List Member) (token : Text) (isLast : Bool) : OptionHit :=
  match exactly? members token with
  | some m => .named m
  | none =>
    match longestFits (inlineFits members token) with
    | [] => abbreviation members token isLast
    | [(m, value)] => .inline m value
    | _ => .ambiguous

/-- Whether a word may grow into the spelling of an option. -/
def growsIntoFlag (members : List Member) (token : Text) : Bool :=
  members.any fun m => (m.spec.flag?.map (Text.startsWith token)).getD false

/-- The short option at the beginning of a cluster, and what follows its two characters. What
would be left as a word with two dashes is taken only by an option with a value. -/
def splitCluster (members : List Member) (token : Text) (isLast : Bool) :
    Option (Member × Text) :=
  match token with
  | '-' :: c :: next :: rest =>
    if c == '-' then none
    else if isLast && growsIntoFlag members token then none
    else
      match exactly? members ['-', c] with
      | some m => if next == '-' && !m.spec.takesValue then none else some (m, next :: rest)
      | none => none
  | _ => none

/-! ### Operands -/

/-- The first of two slots in the order of their indices; the earlier one if they are equal. -/
def earlierSlot (a b : Member) : Member :=
  match a.spec.index?, b.spec.index? with
  | some i, some j => if j.lt i then b else a
  | _, _ => a

/-- The slot that takes the next operand. -/
def firstPositional? (members : List Member) : Option Member :=
  match members.filter (fun m => m.spec.isPositional) with
  | [] => none
  | m :: ms => some (ms.foldl earlierSlot m)

/-- Whether the next word is tried as an option: it looks like one, there is no slot for an
operand, or some option is spelled without a dash. -/
def wantsOption (members : List Member) (flagLike : Bool) : Bool :=
  flagLike || !members.any (fun m => m.spec.isPositional)
    || members.any (fun m => (m.spec.flag?.map (fun flag => !Text.startsWith ['-'] flag)).getD false)

/-! ### What a match removes -/

/-- Whether a specification is the matched one or another spelling of it. -/
def isSpellingOf (matched s : Spec) : Bool :=
  s.name == matched.name || (s.flag?.map matched.aliases.contains).getD false

/-- Whether a specification stays available after a match. -/
def staysAfter (matched s : Spec) : Bool :=
  (matched.isUnbounded || matched.repeatable || !isSpellingOf matched s)
    && !matched.excludes.any (fun e => e.covers s)

def remaining (members : List Member) (matched : Spec) : List Member :=
  members.filter fun m => staysAfter matched m.spec

end Line

end CommandGrammar
