import CommandGrammar.Help.Clean
import CommandGrammar.Help.OptionLine
import CommandGrammar.Pattern.Parser
import CommandGrammar.Pattern.Search

/-!
# Option entries of a page

A page is scanned line by line. An option line opens an entry; the lines after it that are indented
at least as deeply as its description belong to the description, and a shallower line ends it. An
option line without a description takes it from the next line, if that one is indented deeper than
the option and is none itself. Blank lines do not end a description whose next line is deep enough.

Entries without any description get the one of the next entry that has one: a page usually lists a
bare alias right before the entry that describes it.
-/

namespace CommandGrammar

/-- The spellings of an option and what they do. -/
structure OptionEntry where
  flags : Text
  description : Text
deriving DecidableEq, Repr

namespace OptionEntry

def descriptor (e : OptionEntry) : Text :=
  if e.description.isEmpty then e.flags else e.flags ++ [' ', ' '] ++ e.description

end OptionEntry

/-! ### Scanning lines -/

/-- An entry whose description may go on. -/
structure OpenEntry where
  indent : Nat
  flags : Text
  /-- The column of the description, once there is one. -/
  column : Option Nat
  parts : List Text
deriving DecidableEq, Repr

namespace OpenEntry

def ofLine (l : OptionLine) : OpenEntry :=
  { indent := l.indent, flags := l.flags, column := l.description.map Prod.fst,
    parts := (l.description.map Prod.snd).toList }

/-- The entry without lines to come; spellings are separated by commas. -/
def close (e : OpenEntry) : OptionEntry :=
  ⟨Text.replaceAll " or ".toList [',', ' '] e.flags, Text.joinWith [' '] e.parts⟩

/-- The column from which on a line belongs to the description of an entry: that of the
description, or for an entry without one its own, if the line is deeper and lists no option. -/
def takes? (e : OpenEntry) (line : Text) : Option Nat :=
  let depth := OptionLine.indentOf line
  match e.column with
  | some column => if column ≤ depth then some column else none
  | none => if e.indent < depth && (OptionLine.read? line).isNone then some depth else none

/-- Whether an entry goes on after a blank line: its description has begun and the next line with
anything on it belongs to it. -/
def survivesBlank (e : OpenEntry) (rest : List Text) : Bool :=
  match e.column, rest.dropWhile Text.isAllBlank with
  | some column, next :: _ => column ≤ OptionLine.indentOf next
  | _, _ => false

def extend? (e : OpenEntry) (line : Text) (rest : List Text) : Option OpenEntry :=
  if Text.isAllBlank line then if e.survivesBlank rest then some e else none
  else (e.takes? line).map fun column =>
    { e with column := some column, parts := e.parts ++ [Text.trim line] }

end OpenEntry

namespace Page

def opened (line : Text) : Option OpenEntry := (OptionLine.read? line).map OpenEntry.ofLine

/-- The entry in progress without lines to come. -/
def closed (current : Option OpenEntry) : List OptionEntry :=
  (current.map OpenEntry.close).toList

/-- The entries of some lines; `current` is in progress before them. -/
def scan (current : Option OpenEntry) : List Text → List OptionEntry
  | [] => closed current
  | line :: rest =>
    match current.bind (fun e => e.extend? line rest) with
    | some e => scan (some e) rest
    | none => closed current ++ scan (opened line) rest

/-- Entries in which those without a description have the next one there is. -/
def backfill : List OptionEntry → List OptionEntry
  | [] => []
  | e :: es =>
    (if e.description.isEmpty then
      match es.find? (fun later => !later.description.isEmpty) with
      | some later => { e with description := later.description }
      | none => e
    else e) :: backfill es

/-! ### Which lines are scanned -/

/-- A change of the text before it is scanned. -/
inductive Filter
  /-- Bullets before a dash become spaces. -/
  | unbullet
  /-- Tabs become eight spaces. -/
  | untab
  /-- ASCII letters become capitals. -/
  | upper
deriving DecidableEq, Repr

def Filter.apply (text : Text) : Filter → Text
  | unbullet => Text.replaceAll "* -".toList "  -".toList text
  | untab => Text.replaceAll ['\t'] (Text.spaces 8) text
  | upper => text.map Char.toUpper

structure ScanOptions where
  /-- The page is scanned after the first line that matches this pattern. -/
  start : Option Text := none
  /-- The scan stops before the first line that matches this pattern. -/
  stop : Option Text := none
  filters : List Filter := []
deriving DecidableEq, Repr

/-- The pattern of a boundary; a malformed one is no boundary. -/
def boundary? (written : Option Text) : Option Pattern := written.bind Pattern.parse?

/-- The lines after the first one that matches, or all of them if none does. -/
def linesAfter (p : Pattern) (lines : List Text) : List Text :=
  match lines.dropWhile (fun line => !p.occursIn line) with
  | _ :: rest => rest
  | [] => lines

def linesBefore (p : Pattern) (lines : List Text) : List Text :=
  lines.takeWhile (fun line => !p.occursIn line)

/-- The lines between the boundaries. -/
def between (options : ScanOptions) (lines : List Text) : List Text :=
  let lines := match boundary? options.start with
    | some p => linesAfter p lines
    | none => lines
  match boundary? options.stop with
  | some p => linesBefore p lines
  | none => lines

def entries (options : ScanOptions) (text : Text) : List OptionEntry :=
  backfill (scan none (between options
    (Text.lines (options.filters.foldl Filter.apply (clean text)))))

end Page

end CommandGrammar
