import CommandGrammar.Pattern.Property
import CommandGrammar.Text.Decimal

/-!
# Reading a pattern

The written form is that of common regular expressions: `a|b`, `(..)`, `[..]` with nested classes
and the set operators `&&`, `--` and `~~`, `*`, `+`, `?`, `{m,n}`, anchors, escapes, properties by name,
named and non-capturing groups and the flags `i`, `m`, `s`, `U`, `u`, `x` and `R`. Looking around,
references back, unknown escapes and names, repetitions of nothing and unbalanced brackets are
refused, and so is a byte class that would match half a character.

Reading a group calls the reader of whole patterns again, on what is left after the opening
bracket; the depth of those calls is bounded by the length of the text.
-/

namespace CommandGrammar

namespace Pattern

/-- The flags in force. -/
structure Flags where
  anyCase : Bool := false
  multiLine : Bool := false
  dotAll : Bool := false
  carriageReturn : Bool := false
  unicode : Bool := true
  verbose : Bool := false
deriving DecidableEq, Repr

/-- What a reader has left, the flags in force and the group names already used. -/
structure Cursor where
  rest : Text
  flags : Flags := {}
  names : List Text := []

/-- A step of reading that may refuse. -/
abbrev Reader := StateT Cursor Option

/-- The next character, if there is one. -/
def peek : Reader (Option Char) := return (← get).rest.head?

/-- Steps over `n` characters. -/
def skip (n : Nat) : Reader Unit := modify fun c => { c with rest := c.rest.drop n }

/-- Steps over a piece if the text goes on with it, and says whether it did. -/
def accept (piece : Text) : Reader Bool := do
  match Text.dropPrefix? piece (← get).rest with
  | some rest => modify fun c => { c with rest := rest }; return true
  | none => return false

/-- The text after blanks and `#` comments. -/
def dropVerbose : Bool → Text → Text
  | _, [] => []
  | true, c :: cs => dropVerbose (c != '\n') cs
  | false, c :: cs =>
    if Text.isBlank c then dropVerbose false cs
    else if c == '#' then dropVerbose true cs
    else c :: cs

/-- Steps over blanks and comments where the flag `x` allows them. -/
def skipBlank : Reader Unit := modify fun c =>
  if c.flags.verbose then { c with rest := dropVerbose false c.rest } else c

/-- A step that must find more text. -/
def needMore : Reader Unit := do if (← peek).isNone then failure

/-! ### Escapes -/

/-- Characters with a meaning of their own, which an escape takes away. -/
def isMeta (c : Char) : Bool := "\\.+*?()|[]\x7b\x7d^$#&-~".toList.contains c

/-- Characters that may be escaped although they mean only themselves. -/
def isEscapable (c : Char) : Bool :=
  c.toNat < 0x80 && !(('0' ≤ c && c ≤ '9') || ('A' ≤ c && c ≤ 'Z') || ('a' ≤ c && c ≤ 'z'))
    && c != '<' && c != '>'

/-- What one item of a pattern or a class stands for. -/
inductive Item
  | literal (c : Char)
  | cls (c : CharClass)
  | place (a : Anchor)

/-- The character with a given code, unless it is a surrogate or out of range. -/
def charOfCode? (n : Nat) : Option Char :=
  if n < 0xD800 || (0xDFFF < n && n < 0x110000) then some (Char.ofNat n) else none

/-- Reads the digits of a hexadecimal escape, in braces or of the given number. -/
def hexEscape (digits : Nat) : Reader Char := do
  if ← accept ['\x7b'] then
    let rest := (← get).rest
    match Text.cutAt? (· == '\x7d') rest with
    | none => failure
    | some (body, rest) =>
      modify fun c => { c with rest := rest }
      match (Decimal.inBase? 16 body).bind charOfCode? with
      | some c => return c
      | none => failure
  else
    let body := (← get).rest.take digits
    if body.length < digits then failure
    skip digits
    match (Decimal.inBase? 16 body).bind charOfCode? with
    | some c => return c
    | none => failure

/-- The special boundary named in braces after `\b`. -/
def boundaryName (u : Bool) : Reader (Option Anchor) := do
  match (← get).rest with
  | '\x7b' :: c :: _ =>
    if c == '-' || c.isAlpha then
      if ← accept "\x7bstart\x7d".toList then return some (.wordStart u)
      else if ← accept "\x7bend\x7d".toList then return some (.wordEnd u)
      else if ← accept "\x7bstart-half\x7d".toList then return some (.wordStartHalf u)
      else if ← accept "\x7bend-half\x7d".toList then return some (.wordEndHalf u)
      else failure
    else return none
  | _ => return none

/-- Reads the name of a property from its opening to its closing brace. -/
def bracedName : Nat → Reader Text
  | 0 => failure
  | fuel + 1 => do
    skip 1
    skipBlank
    match ← peek with
    | none => failure
    | some '\x7d' => skip 1; return []
    | some c => return c :: (← bracedName fuel)

/-- The class that a name in braces stands for: the name alone, or a property and its value with
`=` or `:` between them, or with `!=` for all other values. -/
def propertyClass? (name : Text) : Option CharClass :=
  match Text.cutAt? (· == '!') name with
  | some (property, '=' :: value) => (CharClass.ofValue? property value).map .except
  | _ =>
    match (Text.cutAt? (· == ':') name).or (Text.cutAt? (· == '=') name) with
    | some (property, value) => CharClass.ofValue? property value
    | none => CharClass.ofName? name

def property : Reader CharClass := do
  skipBlank
  match (← get).rest with
  | [] => failure
  | '\\' :: _ => failure
  | '\x7b' :: rest => propertyClass? (← bracedName (rest.length + 1))
  | c :: _ => skip 1; CharClass.ofName? [c]

def escape : Reader Item := do
  let u := (← get).flags.unicode
  let fold := if (← get).flags.anyCase then CharClass.anyCase else id
  match (← get).rest with
  | [] => failure
  | c :: _ =>
    skip 1
    if c == 'x' then return .literal (← hexEscape 2)
    else if c == 'u' then return .literal (← hexEscape 4)
    else if c == 'U' then return .literal (← hexEscape 8)
    else if c == 'd' then return .cls (.digit u)
    else if c == 's' then return .cls (.blank u)
    else if c == 'w' then return .cls (.word u)
    else if c == 'D' then if u then return .cls (.except (.digit true)) else failure
    else if c == 'S' then if u then return .cls (.except (.blank true)) else failure
    else if c == 'W' then if u then return .cls (.except (.word true)) else failure
    else if c == 'p' then if u then return .cls (fold (← property)) else failure
    else if c == 'P' then if u then return .cls (.except (fold (← property))) else failure
    else if isMeta c || isEscapable c then return .literal c
    else if c == 'a' then return .literal '\x07'
    else if c == 'f' then return .literal '\x0c'
    else if c == 't' then return .literal '\t'
    else if c == 'n' then return .literal '\n'
    else if c == 'r' then return .literal '\r'
    else if c == 'v' then return .literal '\x0b'
    else if c == 'A' then return .place .textStart
    else if c == 'z' then return .place .textEnd
    else if c == 'b' then return .place ((← boundaryName u).getD (.wordBoundary u))
    else if c == 'B' then return .place (.noWordBoundary u)
    else if c == '<' then return .place (.wordStart u)
    else if c == '>' then return .place (.wordEnd u)
    else failure

/-! ### Classes -/

def asciiClass? (name : Text) : Option CharClass :=
  let table : List (String × List (Nat × Nat)) :=
    [("alnum", [(0x30, 0x39), (0x41, 0x5A), (0x61, 0x7A)]), ("alpha", [(0x41, 0x5A), (0x61, 0x7A)]),
      ("ascii", [(0, 0x7F)]), ("blank", [(9, 9), (0x20, 0x20)]),
      ("cntrl", [(0, 0x1F), (0x7F, 0x7F)]), ("digit", [(0x30, 0x39)]), ("graph", [(0x21, 0x7E)]),
      ("lower", [(0x61, 0x7A)]), ("print", [(0x20, 0x7E)]),
      ("punct", [(0x21, 0x2F), (0x3A, 0x40), (0x5B, 0x60), (0x7B, 0x7E)]),
      ("space", [(9, 13), (0x20, 0x20)]), ("upper", [(0x41, 0x5A)]),
      ("word", [(0x30, 0x39), (0x41, 0x5A), (0x5F, 0x5F), (0x61, 0x7A)]),
      ("xdigit", [(0x30, 0x39), (0x41, 0x46), (0x61, 0x66)])]
  (table.find? (fun row => row.1.toList == name)).map (fun row => CharClass.ofRanges row.2)

/-- Reads `[:name:]` or `[:^name:]` if the text goes on with one. -/
def namedClass : Reader (Option CharClass) := do
  match Text.dropPrefix? ['[', ':'] (← get).rest with
  | none => return none
  | some rest =>
    let (negated, rest) := match rest with
      | '^' :: rest => (true, rest)
      | _ => (false, rest)
    match Text.cutAt? (· == ':') rest with
    | some (name, ']' :: rest) =>
      match asciiClass? name with
      | some c =>
        modify fun s => { s with rest := rest }
        return some (if negated then .except c else c)
      | none => return none
    | _ => return none

def classItem : Reader Item := do
  match (← get).rest with
  | [] => failure
  | '\\' :: _ => skip 1; escape
  | c :: _ => skip 1; return .literal c

/-- What an item contributes to a class; a place is no member. -/
def Item.member : Item → Reader CharClass
  | .literal c => do
    if (← get).flags.unicode || c.toNat < 0x80 then return .single c else failure
  | .cls c => return c
  | .place _ => failure

def classRange : Reader CharClass := do
  let first ← classItem
  skipBlank
  needMore
  let rest := (← get).rest
  let verbose := (← get).flags.verbose
  let afterDash := match rest with
    | '-' :: rest => ((if verbose then dropVerbose false rest else rest).head?)
    | _ => some '-'
  if afterDash == some ']' || afterDash == some '-' then first.member
  else
    skip 1
    skipBlank
    needMore
    match first, ← classItem with
    | .literal a, .literal b =>
      if a.toNat ≤ b.toNat && ((← get).flags.unicode || b.toNat < 0x80) then
        return .range a.toNat b.toNat
      else failure
    | _, _ => failure

/-- A set operator between two classes. -/
inductive SetOp
  | and
  | minus
  | differ

/-- A class being read: the operator that joins it to what stands before it, and its members. -/
structure OpenClass where
  negated : Bool
  pending : Option (CharClass × SetOp) := none
  members : CharClass := .none

/-- The members of an open class joined to what stands before them. -/
def OpenClass.joined (c : OpenClass) (fold : CharClass → CharClass) : CharClass :=
  match c.pending with
  | none => c.members
  | some (before, .and) => .both (fold before) (fold c.members)
  | some (before, .minus) => .both (fold before) (.except (fold c.members))
  | some (before, .differ) => .differ (fold before) (fold c.members)

/-- Reads the opening of a class: the bracket, a caret, dashes and a bracket that stand for
themselves. -/
def openClass : Reader OpenClass := do
  skip 1
  skipBlank
  needMore
  let negated ← accept ['^']
  if negated then
    skipBlank
    needMore
  let dashes := ((← get).rest.takeWhile (· == '-')).length
  for _ in [0:dashes] do
    skip 1
    skipBlank
    needMore
  let c : OpenClass := ⟨negated, none, if dashes == 0 then .none else .single '-'⟩
  if dashes == 0 && (← peek) == some ']' then
    skip 1
    skipBlank
    needMore
    return { c with members := .single ']' }
  return c

/-- Reads the members of a class up to its closing bracket; `outer` holds the classes around it. -/
def classBody (fold : CharClass → CharClass) (unicode : Bool) :
    Nat → List OpenClass → OpenClass → Reader CharClass
  | 0, _, _ => failure
  | fuel + 1, outer, current => do
    skipBlank
    match (← get).rest with
    | [] => failure
    | '[' :: _ =>
      match ← namedClass with
      | some c => classBody fold unicode fuel outer { current with members := .either current.members c }
      | none => classBody fold unicode fuel (current :: outer) (← openClass)
    | ']' :: _ =>
      skip 1
      let whole := fold (current.joined fold)
      if current.negated && !unicode then failure
      let c := if current.negated then .except whole else whole
      match outer with
      | [] => return c
      | parent :: outer =>
        classBody fold unicode fuel outer { parent with members := .either parent.members c }
    | '&' :: '&' :: _ => skip 2; operator fuel outer current .and
    | '-' :: '-' :: _ => skip 2; operator fuel outer current .minus
    | '~' :: '~' :: _ => skip 2; operator fuel outer current .differ
    | _ =>
      let c ← classRange
      classBody fold unicode fuel outer { current with members := .either current.members c }
where
  /-- Closes the left side of a set operator and goes on with its right side. -/
  operator (fuel : Nat) (outer : List OpenClass) (current : OpenClass) (op : SetOp) :
      Reader CharClass :=
    classBody fold unicode fuel outer
      { current with pending := some (current.joined fold, op), members := .none }

/-! ### Repetition -/

/-- Reads digits with blanks around them; `none` where there are no digits. -/
def countText : Reader (Option Nat) := do
  modify fun c => { c with rest := Text.trimStart c.rest }
  let digits := (← get).rest.takeWhile (fun c => '0' ≤ c && c ≤ '9')
  skip digits.length
  modify fun c => { c with rest := Text.trimStart c.rest }
  if digits.isEmpty then return none
  match Decimal.readBelow? 4294967296 digits with
  | some n => return some n
  | none => failure

/-- Reads `{m}`, `{m,}` or `{m,n}` after the opening brace. -/
def counts : Reader (Nat × Option Nat) := do
  skip 1
  skipBlank
  needMore
  let least ← countText
  needMore
  let some least := least | failure
  let bounds : Nat × Option Nat ←
    if ← accept [','] then do
      skipBlank
      needMore
      if (← peek) == some '\x7d' then pure (least, none)
      else
        match ← countText with
        | some most => pure (least, some most)
        | none => failure
    else pure (least, some least)
  if !(← accept ['\x7d']) then failure
  match bounds.2 with
  | some most => if least ≤ most then return bounds else failure
  | none => return bounds

/-- Steps over the question mark that makes a repetition lazy. -/
def skipLazy : Reader Unit := do
  skipBlank
  let _ ← accept ['?']

/-- Replaces the last item of a sequence, which must not be missing or a flag setting. -/
def wrapLast (wrap : Pattern → Pattern) : List (Option Pattern) → Option (List (Option Pattern))
  | some p :: items => some (some (wrap p) :: items)
  | _ => none

/-! ### Groups -/

def isNameChar (first : Bool) (c : Char) : Bool :=
  c == '_'
    || (!first && (c == '.' || c == '[' || c == ']' || (CharClass.digit true).contains c.toNat))
    || c.isAlpha
    || (c.toNat ≥ 0x80 && (CharClass.word true).contains c.toNat)

/-- Reads the name of a group up to its closing bracket; names are not used twice. -/
def groupName : Reader Unit := do
  match Text.cutAt? (· == '>') (← get).rest with
  | none => failure
  | some (name, rest) =>
    let fine := match name with
      | [] => false
      | c :: cs => isNameChar true c && cs.all (isNameChar false)
    if !fine || (← get).names.contains name then failure
    modify fun c => { c with rest := rest, names := name :: c.names }

def Flags.assign (flags : Flags) (c : Char) (value : Bool) : Option Flags :=
  if c == 'i' then some { flags with anyCase := value }
  else if c == 'm' then some { flags with multiLine := value }
  else if c == 's' then some { flags with dotAll := value }
  else if c == 'U' then some flags
  else if c == 'u' then some { flags with unicode := value }
  else if c == 'R' then some { flags with carriageReturn := value }
  else if c == 'x' then some { flags with verbose := value }
  else none

/-- Applies the letters of a flag setting; each letter and the dash may stand once, and a dash
needs a letter after it. -/
def flagLetters (negated dangling : Bool) (used : Text) (flags : Flags) : Text → Option Flags
  | [] => if dangling then none else some flags
  | '-' :: cs => if negated then none else flagLetters true true used flags cs
  | c :: cs =>
    if used.contains c then none
    else (flags.assign c (!negated)).bind fun flags => flagLetters negated false (c :: used) flags cs

/-- Whether a group looks around, which is refused. -/
def isLookAround (rest : Text) : Bool :=
  ["?=", "?!", "?<=", "?<!"].any (fun s => Text.startsWith s.toList rest)

inductive Opening
  /-- A group around a pattern. -/
  | group
  /-- A flag setting for the rest of the group around it. -/
  | setting

/-- Reads the opening of a group after its bracket and sets the flags it asks for. -/
def opening : Reader Opening := do
  skipBlank
  if isLookAround (← get).rest then failure
  if ← accept "?P<".toList then groupName; return .group
  else if ← accept "?<".toList then groupName; return .group
  else if ← accept ['?'] then
    match Text.cutAt? (fun c => c == ':' || c == ')') (← get).rest with
    | none => failure
    | some (letters, rest) =>
      let colon := ((← get).rest.drop letters.length).head? == some ':'
      if !colon && letters.isEmpty then failure
      match flagLetters false false [] (← get).flags letters with
      | none => failure
      | some flags =>
        modify fun c => { c with rest := rest, flags := flags }
        return if colon then .group else .setting
  else return .group

/-! ### Whole patterns -/

def literalPattern (flags : Flags) (c : Char) : Pattern :=
  .one (if flags.anyCase then .anyCase (.single c) else .single c)

def itemPattern (flags : Flags) : Item → Pattern
  | .literal c => literalPattern flags c
  | .cls c => .one c
  | .place a => .anchor a

/-- Items in a row; the list holds the last one first. -/
def sequenceOf (items : List (Option Pattern)) : Pattern :=
  items.foldl (fun after item =>
    match item with
    | none => after
    | some p => if after = .nothing then p else .sequence p after) .nothing

/-- Alternatives of a group; the list holds the last one first. -/
def choiceOf (last : Pattern) (earlier : List Pattern) : Pattern :=
  earlier.foldl (fun after p => .choice p after) last

/-- Reads a whole pattern up to the end of the text or the bracket that closes its group; `done`
holds the alternatives before the present one and `items` its items, last first. -/
def alternatives : Nat → List Pattern → List (Option Pattern) → Reader Pattern
  | 0, _, _ => failure
  | fuel + 1, done, items => do
    skipBlank
    let flags := (← get).flags
    match (← get).rest with
    | [] => return choiceOf (sequenceOf items) done
    | ')' :: _ => return choiceOf (sequenceOf items) done
    | '|' :: _ => skip 1; alternatives fuel (sequenceOf items :: done) []
    | '(' :: _ =>
      skip 1
      match ← opening with
      | .setting => alternatives fuel done (none :: items)
      | .group =>
        let inner ← alternatives fuel [] []
        if !(← accept [')']) then failure
        modify fun c => { c with flags := flags }
        alternatives fuel done (some inner :: items)
    | '[' :: _ =>
      let fold := if flags.anyCase then CharClass.anyCase else id
      let c ← classBody fold flags.unicode fuel [] (← openClass)
      alternatives fuel done (some (.one c) :: items)
    | '*' :: _ => skip 1; skipLazy; again fuel done (wrapLast (.repeated · 0 none) items)
    | '+' :: _ => skip 1; skipLazy; again fuel done (wrapLast (.repeated · 1 none) items)
    | '?' :: _ => skip 1; skipLazy; again fuel done (wrapLast (.repeated · 0 (some 1)) items)
    | '\x7b' :: _ =>
      let (least, most) ← counts
      skipLazy
      again fuel done (wrapLast (.repeated · least most) items)
    | '.' :: _ =>
      if !flags.unicode then failure
      skip 1
      alternatives fuel done (some (.one (.dot flags.dotAll flags.carriageReturn)) :: items)
    | '^' :: _ =>
      skip 1
      let a := if flags.multiLine then Anchor.lineStart flags.carriageReturn else .textStart
      alternatives fuel done (some (.anchor a) :: items)
    | '$' :: _ =>
      skip 1
      let a := if flags.multiLine then Anchor.lineEnd flags.carriageReturn else .textEnd
      alternatives fuel done (some (.anchor a) :: items)
    | '\\' :: _ =>
      skip 1
      let item ← escape
      alternatives fuel done (some (itemPattern flags item) :: items)
    | c :: _ => skip 1; alternatives fuel done (some (literalPattern flags c) :: items)
where
  /-- Goes on after a repetition, if it had something to repeat. -/
  again (fuel : Nat) (done : List Pattern) : Option (List (Option Pattern)) → Reader Pattern
    | some items => alternatives fuel done items
    | none => failure

/-- The pattern a text stands for, if it is one. -/
def parse? (text : Text) : Option Pattern :=
  match (alternatives (2 * text.length + 2) [] []).run ⟨text, {}, []⟩ with
  | some (p, cursor) => if cursor.rest.isEmpty then some p else none
  | none => none

end Pattern

end CommandGrammar
