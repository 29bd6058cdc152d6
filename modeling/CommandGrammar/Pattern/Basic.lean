import CommandGrammar.CodePoints.CaseFold
import CommandGrammar.CodePoints.Word
import CommandGrammar.Text.Blank

/-!
# Search patterns

A pattern describes a set of texts; a rule or a boundary asks whether some part of a line belongs
to it. The constructors are those of regular expressions with anchors: single characters out of a
class, places between characters, sequence, choice and counted repetition. There is no looking
around and no reference back, so whether a text contains a match does not depend on the order in
which alternatives are tried.
-/

namespace CommandGrammar

/-- A class of characters, given by set operations over ranges and properties. -/
inductive CharClass
  | none
  | range (first last : Nat)
  | property (members : CodePoints.Boundaries)
  | either (a b : CharClass)
  | both (a b : CharClass)
  | except (a : CharClass)
  /-- The members of a class and everything that differs from one in case alone. -/
  | anyCase (a : CharClass)
deriving DecidableEq, Repr

namespace CharClass

def contains : CharClass → Nat → Bool
  | none, _ => false
  | range first last, n => first ≤ n && n ≤ last
  | property members, n => CodePoints.member members n
  | either a b, n => a.contains n || b.contains n
  | both a b, n => a.contains n && b.contains n
  | except a, n => !a.contains n
  | anyCase a, n => (CodePoints.caseClass n).any a.contains

def single (c : Char) : CharClass := .range c.toNat c.toNat

/-- The members of either class but not of both. -/
def differ (a b : CharClass) : CharClass := .either (.both a (.except b)) (.both b (.except a))

def ofRanges (ranges : List (Nat × Nat)) : CharClass :=
  ranges.foldr (fun (a, b) c => .either (.range a b) c) .none

/-- Decimal digits, of all scripts or of ASCII alone. -/
def digit (unicode : Bool) : CharClass :=
  if unicode then .property CodePoints.decimalDigit else .range 0x30 0x39

/-- Blank characters, of all scripts or of ASCII alone. -/
def blank (unicode : Bool) : CharClass :=
  if unicode then
    ofRanges [(9, 13), (0x20, 0x20), (0x85, 0x85), (0xA0, 0xA0), (0x1680, 0x1680),
      (0x2000, 0x200A), (0x2028, 0x2029), (0x202F, 0x202F), (0x205F, 0x205F), (0x3000, 0x3000)]
  else ofRanges [(9, 13), (0x20, 0x20)]

/-- The letters, digits and underscore of ASCII. -/
def asciiWord : CharClass := ofRanges [(0x30, 0x39), (0x41, 0x5A), (0x5F, 0x5F), (0x61, 0x7A)]

/-- Word characters, of all scripts or of ASCII alone. -/
def word (unicode : Bool) : CharClass :=
  if unicode then .property CodePoints.word else asciiWord

/-- Every character, the line feed excepted unless `lineFeed` is set. -/
def dot (lineFeed carriageReturn : Bool) : CharClass :=
  if lineFeed then .except .none
  else if carriageReturn then .except (ofRanges [(0x0A, 0x0A), (0x0D, 0x0D)])
  else .except (.range 0x0A 0x0A)

end CharClass

/-- A place between two characters. -/
inductive Anchor
  | textStart
  | textEnd
  /-- The start of a line; with `carriageReturn` lines may also end in a carriage return. -/
  | lineStart (carriageReturn : Bool)
  | lineEnd (carriageReturn : Bool)
  | wordBoundary (unicode : Bool)
  | noWordBoundary (unicode : Bool)
  | wordStart (unicode : Bool)
  | wordEnd (unicode : Bool)
  | wordStartHalf (unicode : Bool)
  | wordEndHalf (unicode : Bool)
deriving DecidableEq, Repr

/-- A regular expression over characters. -/
inductive Pattern
  | nothing
  | one (c : CharClass)
  | anchor (a : Anchor)
  | sequence (p q : Pattern)
  | choice (p q : Pattern)
  /-- At least `least` and, if a bound is given, at most `most` repetitions. -/
  | repeated (p : Pattern) (least : Nat) (most : Option Nat)
deriving DecidableEq, Repr

end CommandGrammar
