import CommandGrammar.Help.Table
import CommandGrammar.Tool.Arguments

/-!
# Invocations of the command line tool

The tool has three commands: it extracts option entries from pages, compiles a grammar document,
and completes the last word of a line. The options for the log filter and the configuration may
stand before the command or after it; of two values the one after it counts.
-/

namespace CommandGrammar

namespace Tool

/-- Where entries are extracted from. -/
inductive EntrySource
  | input
  | file (path : Text)
  | programs (names : List Text)
deriving DecidableEq, Repr

/-- What the tool is asked to do. -/
inductive Request
  | extract (source : EntrySource) (options : Page.ScanOptions) (useManual : Bool)
      (format : OutputFormat)
  | compile (path : Text) (format : OutputFormat)
  /-- Completes the last word; as an object if `asObject` is set. -/
  | complete (catalogs : List Text) (offline asObject : Bool) (program : Text)
      (tokens : List Text)
deriving Repr

/-- A request and the settings that all requests have. -/
structure Invocation where
  logFilter : Text
  config : Option Text
  request : Request
deriving Repr

namespace Invocation

/-! ### What the tool takes -/

def isPath (text : Text) : Bool := !text.isEmpty

def format? (text : Text) : Option OutputFormat :=
  if text = "json".toList then some .json
  else if text = "yaml".toList then some .yaml
  else if text = "table".toList then some .table
  else none

/-- Whether a text names a form in which candidates are listed. -/
def isListing (text : Text) : Bool := text == "plain".toList || text == "json".toList

def formatSetting : Setting := ⟨"format".toList, true, false, fun v => (format? v).isSome⟩

def textSetting (name : String) : Setting := ⟨name.toList, true, false, fun _ => true⟩

def pathSetting (name : String) : Setting := ⟨name.toList, true, false, isPath⟩

def switchSetting (name : String) : Setting := ⟨name.toList, false, false, fun _ => true⟩

def commonSettings : List Setting := [textSetting "log-level", pathSetting "config"]

/-- What stands before a command. -/
def toolUsage : Usage where
  settings := commonSettings
  commands := ["extract".toList, "compile".toList, "complete".toList, "help".toList]
  hasVersion := true

def extractUsage : Usage where
  settings := [pathSetting "input", textSetting "commands", textSetting "start",
    textSetting "end", switchSetting "no-manual", formatSetting] ++ commonSettings

def compileUsage : Usage where
  settings := formatSetting :: commonSettings
  operands := [isPath]

def completeUsage : Usage where
  settings := [⟨"catalog".toList, true, true, isPath⟩, switchSetting "offline",
    ⟨"format".toList, true, false, isListing⟩] ++ commonSettings
  operands := [fun _ => true]
  trails := true

/-! ### Requests -/

/-- The non-blank items of a list between commas. -/
def listItems (text : Text) : List Text :=
  ((Text.splitWhere (· == ',') text).map Text.trim).filter (fun item => !item.isEmpty)

def formatOf (a : Arguments) (default : OutputFormat) : OutputFormat :=
  ((a.value? "format").bind format?).getD default

def extractRequest (a : Arguments) : Except Stop Request :=
  let programs := ((a.value? "commands").map listItems).getD []
  let source := if !programs.isEmpty then .programs programs
    else match a.value? "input" with
      | some path => .file path
      | none => .input
  if (a.value? "input").isSome && (a.value? "commands").isSome then .error .misuse
  else .ok (.extract source { start := a.value? "start", stop := a.value? "end" }
    (!a.has "no-manual") (formatOf a .table))

def compileRequest (a : Arguments) : Except Stop Request :=
  match a.operands with
  | path :: _ => .ok (.compile path (formatOf a .yaml))
  | [] => .error .misuse

def completeRequest (a : Arguments) : Except Stop Request :=
  match a.operands with
  | program :: _ =>
    .ok (.complete (a.all "catalog") (a.has "offline") (a.value? "format" == some "json".toList)
      program a.trailing)
  | [] => .error .misuse

def command? (name : Text) : Option (Usage × (Arguments → Except Stop Request)) :=
  if name = "extract".toList then some (extractUsage, extractRequest)
  else if name = "compile".toList then some (compileUsage, compileRequest)
  else if name = "complete".toList then some (completeUsage, completeRequest)
  else none

/-- What a question about a command is answered with. -/
def helpStop : List Text → Stop
  | [] => .help
  | [name] => if toolUsage.commands.contains name then .help else .misuse
  | _ => .misuse

def parse (arguments : List Text) : Except Stop Invocation := do
  let (common, rest) ← toolUsage.read {} none arguments
  match rest with
  | [] => .error .misuse
  | name :: words =>
    match command? name with
    | none => .error (helpStop words)
    | some (usage, request) =>
      let (own, _) ← usage.read {} none words
      let request ← request own
      let both := fun name => (own.value? name).or (common.value? name)
      .ok ⟨(both "log-level").getD "warn".toList, both "config", request⟩

def readsInput (i : Invocation) : Bool :=
  match i.request with
  | .extract .input _ _ _ => true
  | _ => false

end Invocation

end Tool

end CommandGrammar
