import CommandGrammar.Help.Entry
import CommandGrammar.Json.Printer
import CommandGrammar.Yaml.Printer

/-!
# Printing entries

Entries are printed as JSON, as YAML, or as a table: two spaces, the flags padded to the widest
ones, two more spaces and the description. The tables of several programs stand one after another
under the names of the programs. What is no list of entries has no table.
-/

namespace CommandGrammar

/-- The forms in which results are printed. -/
inductive OutputFormat
  | json
  | yaml
  | table
deriving DecidableEq, Repr

structure ProgramEntries where
  program : Text
  entries : List OptionEntry
deriving DecidableEq, Repr

namespace OutputFormat

/-- A value in a form; there is no table of it. -/
def value? (format : OutputFormat) (v : Json) : Option Text :=
  match format with
  | json => some v.pretty
  | yaml => some (Yaml.render v)
  | table => none

/-- Why a value cannot be printed. -/
def noTableMessage : Text := "table output is not available for this value".toList

def row (width : Nat) (e : OptionEntry) : Text :=
  Text.spaces 2 ++ e.flags ++ Text.spaces (width - e.flags.length) ++ Text.spaces 2
    ++ e.description ++ ['\n']

def flagWidth (es : List OptionEntry) : Nat :=
  es.foldl (fun width e => max width e.flags.length) 0

def tableOf (es : List OptionEntry) : Text := es.flatMap (row (flagWidth es))

def entryValue (e : OptionEntry) : Json :=
  Json.obj [("flags", .text e.flags), ("description", .text e.description)]

def entriesValue (es : List OptionEntry) : Json := .list (es.map entryValue)

def programValue (p : ProgramEntries) : Json :=
  Json.obj [("program", .text p.program), ("entries", entriesValue p.entries)]

def programTable (p : ProgramEntries) : Text := p.program ++ [':', '\n'] ++ tableOf p.entries

def entries (format : OutputFormat) (es : List OptionEntry) : Text :=
  (format.value? (entriesValue es)).getD (tableOf es)

def programs (format : OutputFormat) (ps : List ProgramEntries) : Text :=
  (format.value? (.list (ps.map programValue))).getD
    (Text.joinWith ['\n'] (ps.map programTable))

end OutputFormat

end CommandGrammar
