import CommandGrammar.Cache.Time
import CommandGrammar.Completion.Resolve
import CommandGrammar.Document.Tree
import CommandGrammar.Files.System
import CommandGrammar.Session.Error
import CommandGrammar.Yaml.Node
import CommandGrammar.Yaml.Printer

/-!
# Configuration

A configuration is a YAML document with three sections: how long results are kept, how pages are
obtained, and how candidates are presented. Every field may be left out; one that is not known
makes the document malformed. Numbers are natural numbers of the width of their field.
-/

namespace CommandGrammar

/-- The configuration of a session. -/
structure Config where
  /-- The longest time anything is kept. -/
  maxSeconds : Nat := 86400
  /-- How long a grammar made from a page is kept. -/
  grammarSeconds : Nat := 3600
  /-- How long a page is kept. -/
  helpSeconds : Nat := 3600
  /-- The milliseconds that a program may take to print its page. -/
  helpTimeout : Nat := 2000
  /-- Whether the manual is read where the help page lists no option. -/
  useManual : Bool := true
  /-- The columns of a rendered manual page. -/
  manualWidth : Nat := 1000
  /-- Whether candidates are shown with their notes. -/
  showNotes : Bool := true
  /-- The columns of a note. -/
  noteWidth : Nat := 40
deriving DecidableEq, Repr

namespace Config

/-! ### Derived values -/

/-- The longest time anything is kept. -/
def maxLifetime (c : Config) : Duration := .ofSeconds c.maxSeconds

/-- How long a grammar made from a page is kept. -/
def grammarLifetime (c : Config) : Duration := .ofSeconds c.grammarSeconds

def helpLifetime (c : Config) : Duration := .ofSeconds c.helpSeconds

/-- How completions are presented. -/
def resolveOptions (c : Config) : ResolveOptions :=
  { showNotes := c.showNotes, noteWidth := c.noteWidth }

/-! ### Reading -/

/-- One more than the largest value of a 32-bit word. -/
def halfWordBound : Nat := 4294967296

/-- Reads a number of a 64-bit word. -/
def word? (t : Tree) : Option Nat := t.naturalBelow? Decimal.wordBound

/-- Reads a number of a 32-bit word. -/
def halfWord? (t : Tree) : Option Nat := t.naturalBelow? halfWordBound

def cacheSection? (c : Config) (t : Tree) : Option Config := do
  let entries ← t.record? ["max_ttl_secs", "grammar_ttl_secs", "help_ttl_secs"]
  let maxSeconds ← Tree.orDefault "max_ttl_secs" c.maxSeconds word? entries
  let grammarSeconds ← Tree.orDefault "grammar_ttl_secs" c.grammarSeconds word? entries
  let helpSeconds ← Tree.orDefault "help_ttl_secs" c.helpSeconds word? entries
  some { c with
    maxSeconds := maxSeconds, grammarSeconds := grammarSeconds, helpSeconds := helpSeconds }

def extractionSection? (c : Config) (t : Tree) : Option Config := do
  let entries ← t.record? ["help_timeout_ms", "use_manual", "manual_width"]
  let helpTimeout ← Tree.orDefault "help_timeout_ms" c.helpTimeout word? entries
  let useManual ← Tree.orDefault "use_manual" c.useManual Tree.bool? entries
  let manualWidth ← Tree.orDefault "manual_width" c.manualWidth halfWord? entries
  some { c with helpTimeout := helpTimeout, useManual := useManual, manualWidth := manualWidth }

def completionSection? (c : Config) (t : Tree) : Option Config := do
  let entries ← t.record? ["annotate", "annotation_width"]
  let showNotes ← Tree.orDefault "annotate" c.showNotes Tree.bool? entries
  let noteWidth ← Tree.orDefault "annotation_width" c.noteWidth word? entries
  some { c with showNotes := showNotes, noteWidth := noteWidth }

def ofTree? (t : Tree) : Option Config := do
  let entries ← t.record? ["cache", "extraction", "completion"]
  let c ← Tree.orDefault "cache" {} (cacheSection? {}) entries
  let c ← Tree.orDefault "extraction" c (extractionSection? c) entries
  Tree.orDefault "completion" c (completionSection? c) entries

def parse? (text : Text) : Option Config := (Yaml.Node.parseTree? text).bind ofTree?

/-- The text of a document in one of the encodings its first bytes tell. -/
def decodeDocument? : List UInt8 → Option Text
  | 0xFF :: 0xFE :: rest => Utf16.decode? true rest
  | 0xFE :: 0xFF :: rest => Utf16.decode? false rest
  | bytes => Utf8.decode? bytes

def load (files : FileSystem) (path : Text) : Except SessionError Config :=
  match files.read? path with
  | none => .error (.inaccessible path)
  | some bytes =>
    match (decodeDocument? bytes).bind parse? with
    | some c => .ok c
    | none => .error .malformedConfig

/-! ### Writing -/

def toJson (c : Config) : Json :=
  Json.obj [
    ("cache", Json.obj [("max_ttl_secs", .natural c.maxSeconds),
      ("grammar_ttl_secs", .natural c.grammarSeconds), ("help_ttl_secs", .natural c.helpSeconds)]),
    ("extraction", Json.obj [("help_timeout_ms", .natural c.helpTimeout),
      ("use_manual", .bool c.useManual), ("manual_width", .natural c.manualWidth)]),
    ("completion", Json.obj [("annotate", .bool c.showNotes),
      ("annotation_width", .natural c.noteWidth)])]

def render (c : Config) : Text := Yaml.render c.toJson

def save (files : FileSystem) (path : Text) (c : Config) : Except SessionError FileSystem :=
  match files.write? path (Utf8.encode c.render) with
  | some files => .ok files
  | none => .error (.inaccessible path)

end Config

end CommandGrammar
