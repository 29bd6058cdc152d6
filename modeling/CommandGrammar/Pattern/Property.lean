import CommandGrammar.CodePoints.Categories
import CommandGrammar.CodePoints.Scripts
import CommandGrammar.Pattern.Basic

/-!
# Classes by the name of a property

A pattern may name a class after a general category or a script of its characters, or after being
alphabetic, of lower or upper case, or blank; `Any`, `Assigned` and `ASCII` are names as well. No
other properties have names here.
-/

namespace CommandGrammar

namespace CharClass

/-- A name in the form in which names are the same: in lower case, without blanks, dashes and
underscores, and without an `is` before it. -/
def plainName (name : Text) : Text :=
  let marked := (name.take 2).map Char.toLower == "is".toList
  let letters := (if marked then name.drop 2 else name).filter fun c =>
    c.toNat < 0x80 && c != ' ' && c != '_' && c != '-'
  let plain := letters.map Char.toLower
  -- `isc` is short for a property with no class
  if marked && plain == ['c'] then "isc".toList else plain

/-- The characters of some general categories, and the other letters of some kinds. -/
def letters (categories others : List String) : CharClass :=
  let among (values : List String) (value : Text) := (values.map String.toList).contains value
  .either (.property (CodePoints.categories.boundaries (among categories)))
    (.property (CodePoints.otherLetters.boundaries (among others)))

/-- Alphabetic characters, those of one case, and blanks. -/
def ofQuality? (name : Text) : Option CharClass :=
  let table : List (String × CharClass) :=
    [("alpha alphabetic", letters ["Lu", "Ll", "Lt", "Lm", "Lo", "Nl"] ["a", "l", "u"]),
      ("lower lowercase", letters ["Ll"] ["l"]), ("upper uppercase", letters ["Lu"] ["u"]),
      ("space wspace whitespace", blank true)]
  (table.find? fun row => (Text.words row.1.toList).contains name).map Prod.snd

def ofCategory? (name : Text) : Option CharClass :=
  if name = "any".toList then some (.except .none)
  else if name = "ascii".toList then some (.range 0 0x7F)
  else if name = "assigned".toList then
    (CodePoints.categories.named? CodePoints.categoryNames "cn".toList).map
      fun unassigned => .except (.property unassigned)
  else (CodePoints.categories.named? CodePoints.categoryNames name).map .property

def ofScript? (name : Text) : Option CharClass :=
  (CodePoints.scripts.named? CodePoints.scriptNames name).map .property

def ofName? (name : Text) : Option CharClass :=
  let name := plainName name
  (ofQuality? name).or ((ofCategory? name).or (ofScript? name))

def ofValue? (property value : Text) : Option CharClass :=
  let property := plainName property
  if ["gc", "generalcategory"].any (·.toList == property) then ofCategory? (plainName value)
  else if ["sc", "script"].any (·.toList == property) then ofScript? (plainName value)
  else none

end CharClass

end CommandGrammar
