import CommandGrammar.Grammar.Summary
import CommandGrammar.Help.Programs
import CommandGrammar.Session.Basic
import CommandGrammar.Text.Columns
import CommandGrammar.Tool.Invocation
import CommandGrammar.Tool.LogFilter

/-!
# Answers of the command line tool

An answer is an exit code with the text for either output: 0 with a result, 1 with what went wrong,
2 if the arguments cannot be understood. The log filter is checked first, then the configuration is
loaded, and only then the request is carried out. Programs that list no option are named in a
message beside the result.
-/

namespace CommandGrammar

namespace Tool

/-- What a run of the tool leaves behind. -/
structure Answer where
  code : Nat := 0
  output : Text := []
  messages : Text := []
deriving DecidableEq, Repr

/-- What the tool finds in its surroundings. -/
structure Surroundings where
  host : Host
  run : Runner
  /-- The standard input. -/
  input : Text := []
  /-- A log filter that counts instead of the one among the arguments, unless it is blank. -/
  logFilter : Text := []

namespace Answer

/-! ### Texts -/

def versionText : Text := "argspec 0.1.0\n".toList

/-- What the tool can be asked. -/
def helpText : Text :=
  ("Argument grammar extraction and command-line completion\n\n"
    ++ "Usage: argspec [OPTIONS] <COMMAND>\n\n"
    ++ "Commands:\n"
    ++ "  extract   Extract option descriptions from help text\n"
    ++ "  compile   Compile a grammar document and print the normalized specifications\n"
    ++ "  complete  Complete the last token of a command line\n"
    ++ "  help      Print this message\n\n"
    ++ "Options:\n"
    ++ "      --log-level <LOG_LEVEL>  Log filter [default: warn]\n"
    ++ "      --config <CONFIG>        Engine configuration file (YAML)\n"
    ++ "  -h, --help                   Print help\n"
    ++ "  -V, --version                Print version\n").toList

def ofStop : Stop → Answer
  | .help => { output := helpText }
  | .version => { output := versionText }
  | .misuse =>
    { code := 2
      messages := "error: invalid arguments\n\nFor more information, try '--help'.\n".toList }

def failure (message : Text) : Answer :=
  { code := 1, messages := "error: ".toList ++ message ++ ['\n'] }

/-- A text that, unless it is empty, ends its last line. -/
def endLine (text : Text) : Text :=
  if text.isEmpty || text.getLast? = some '\n' then text else text ++ ['\n']

def cannot (doing path reason : Text) : Text :=
  "Failed to ".toList ++ doing ++ " '".toList ++ path ++ "': ".toList ++ reason

/-! ### Extraction -/

def limits (c : Config) : ProgramLimits := ⟨.ofMilliseconds c.helpTimeout, c.manualWidth⟩

def programEntries (run : Runner) (c : Config) (options : Page.ScanOptions) (useManual : Bool)
    (program : Text) : ProgramEntries :=
  let desk : HelpDesk := { pages := (limits c).pages run }
  ⟨program, ((desk.programEntries 0 options (useManual && c.useManual) program).map
    Prod.fst).getD []⟩

def emptyMessage (programs : List ProgramEntries) : Text :=
  let empty := (programs.filter fun p => p.entries.isEmpty).map ProgramEntries.program
  if empty.isEmpty then []
  else "No options found for: ".toList ++ Text.joinWith ", ".toList empty ++ ['\n']

def ofPage (options : Page.ScanOptions) (format : OutputFormat) (page : Text) : Answer :=
  { output := endLine (format.entries (Page.entries options page)) }

def extract (s : Surroundings) (c : Config) (options : Page.ScanOptions) (useManual : Bool)
    (format : OutputFormat) : EntrySource → Answer
  | .input => ofPage options format s.input
  | .file path =>
    match s.host.files.readText? path with
    | some page => ofPage options format page
    | none => failure (cannot "read".toList path (SessionError.inaccessible path).message)
  | .programs names =>
    let programs := names.map (programEntries s.run c options useManual)
    { output := endLine (format.programs programs), messages := emptyMessage programs }

/-! ### Compilation -/

def compile (host : Host) (path : Text) (format : OutputFormat) : Answer :=
  match GrammarDocument.load host.files path with
  | .error e => failure e.message
  | .ok document =>
    match document.compile builtinEmbeddings with
    | .error e => failure (SessionError.document path e).message
    | .ok g =>
      match format.value? (Summary.ofGrammar host g) with
      | some text => { output := endLine text }
      | none => failure OutputFormat.noTableMessage

/-! ### Completion -/

def candidateLine (c : Candidate) : Text :=
  c.value ++ c.suffix.getD []
    ++ (match c.note with
      | some note => '\t' :: Text.trimEnd note
      | none => [])
    ++ ['\n']

def candidateValue (c : Candidate) : Json :=
  Json.obj ([("value", .text c.value), ("suffix", .text (c.suffix.getD []))]
    ++ (c.note.toList.map fun note => ("annotation", .text note)))

def completionValue (program : Text) (c : Completion) (candidates : List Candidate) : Json :=
  Json.obj [("program", .text program), ("stub", .text c.stub),
    ("context", Json.textOrNull (c.context.map MatchContext.write)),
    ("name", Json.textOrNull c.name), ("metavar", .text c.metavar),
    ("fallback", .bool c.allowsFallback),
    ("candidates", .list (candidates.map candidateValue))]

def session (run : Runner) (c : Config) (offline : Bool) : Session :=
  .start c (if offline then none else some
    { pages := (limits c).pages run
      kept := some ⟨c.helpLifetime, .empty c.maxLifetime⟩ })

def loadCatalogs (files : FileSystem) (s : Session) : List Text → Except Text Session
  | [] => .ok s
  | directory :: directories =>
    match s.loadCatalog files directory with
    | .ok (_, s) => loadCatalogs files s directories
    | .error e => .error (cannot "load catalog".toList directory e.message)

def complete (s : Surroundings) (c : Config) (catalogs : List Text) (offline asObject : Bool)
    (program : Text) (tokens : List Text) : Answer :=
  match loadCatalogs s.host.files (session s.run c offline) catalogs with
  | .error message => failure message
  | .ok session =>
    match session.complete (fun _ _ => .nothing) program tokens with
    | none => { failure SessionError.endOfTime.message with code := 101 }
    | some (completion, _) =>
      let candidates := completion.candidates s.host
      if asObject then
        { output := (completionValue program completion candidates).pretty ++ ['\n'] }
      else { output := candidates.flatMap candidateLine }

/-! ### All requests -/

def logFilter (s : Surroundings) (i : Invocation) : Text :=
  if Text.isAllBlank s.logFilter then i.logFilter else s.logFilter

def config (files : FileSystem) (i : Invocation) : Except Text Config :=
  match i.config with
  | none => .ok {}
  | some path =>
    (Config.load files path).mapError fun e => cannot "load config".toList path e.message

def ofRequest (s : Surroundings) (c : Config) : Request → Answer
  | .extract source options useManual format => extract s c options useManual format source
  | .compile path format => compile s.host path format
  | .complete catalogs offline asObject program tokens =>
    complete s c catalogs offline asObject program tokens

def ofInvocation (s : Surroundings) (i : Invocation) : Answer :=
  if LogFilter.isWellFormed (logFilter s i) then
    match config s.host.files i with
    | .ok c => ofRequest s c i.request
    | .error message => failure message
  else failure "invalid log filter: invalid filter directive".toList

def ofArguments (s : Surroundings) (arguments : List Text) : Answer :=
  match Invocation.parse arguments with
  | .ok i => ofInvocation s i
  | .error stop => ofStop stop

end Answer

end Tool

end CommandGrammar
