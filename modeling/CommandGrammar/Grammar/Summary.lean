import CommandGrammar.Grammar.Basic
import CommandGrammar.Json.Basic

/-!
# Summaries

A summary is the printable view of a grammar: its program and, for every specification, the fields
that say something. Flags that are not set and empty lists and texts are left out; a source is
shown by its label.
-/

namespace CommandGrammar

namespace Summary

/-- A member that is left out unless `shown`. -/
def member? (shown : Bool) (name : String) (value : Json) : List (String × Json) :=
  if shown then [(name, value)] else []

def ofAction (host : Host) (a : Action) : Json :=
  Json.obj ([("metavar", .text a.metavar), ("source", .text (a.source.label host))]
    ++ member? a.suffix.isSome "suffix" (Json.textOrNull a.suffix))

def ofTexts (ts : List Text) : Json := .list (ts.map .text)

/-- A specification whose value slots are shown by `actionView`. -/
def ofSpecWith (actionView : Action → Json) (s : Spec) : List (String × Json) :=
  [("name", .text s.label), ("kind", .str (if s.isOption then "option" else "positional"))]
    ++ member? (!s.aliases.isEmpty) "aliases" (ofTexts s.aliases)
    ++ [("style", .text s.style.write), ("delimiter", .text s.delimiter),
      ("suffix", .text s.suffix)]
    ++ member? s.valueOptional "value_optional" (.bool true)
    ++ [("actions", .list (s.actions.map actionView))]
    ++ member? (!s.excludes.isEmpty) "excludes" (ofTexts (s.excludes.map Exclusion.write))
    ++ member? s.repeatable "repeatable" (.bool true)
    ++ member? s.embedded.isSome "subparser" (.bool true)
    ++ member? (!s.help.isEmpty) "help" (.text s.help)

def ofSpec (host : Host) (s : Spec) : Json := Json.obj (ofSpecWith (ofAction host) s)

def ofGrammar (host : Host) (g : Grammar) : Json :=
  Json.obj [("program", .text g.program), ("specs", .list (g.specs.map (ofSpec host)))]

end Summary

end CommandGrammar
