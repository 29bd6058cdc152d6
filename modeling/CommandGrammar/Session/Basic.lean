import CommandGrammar.Help.Desk
import CommandGrammar.Line.Match
import CommandGrammar.Session.Catalog
import CommandGrammar.Session.Config
import CommandGrammar.Session.Discovery

/-!
# Sessions

A session completes the lines of any number of programs. It looks a program up by its name without
directories: first among the registered grammars, then, if it has a help desk, among the grammars
made from pages, which are kept for a time.

While one line is read, the grammars of embedded programs are what the session would answer at the
beginning of the line; afterwards the session carries out the lookups in the order in which the
line asked for them, so its copies and its desk are as if each had been answered at once. A guess in
the last word is settled with the hints of the grammar to which the specification of that word
belongs.

A grammar is registered as it is, so grammars that share specifications go on sharing them. What a
session compiles itself gets a new edition; the grammars made from pages for one line are one
edition.

Every operation that keeps a result answers nothing if it would have to be kept past the last
instant of the clock.
-/

namespace CommandGrammar

/-- The state of a session. -/
structure Session where
  config : Config
  /-- The registered grammars by program. -/
  registered : List (Text × Grammar) := []
  /-- The grammars made from pages, by program; also that there is none. -/
  discovered : Cache Text (Option Grammar)
  /-- Where pages come from; a session without it knows registered grammars only. -/
  desk : Option HelpDesk := none
  /-- The embeddings that declarations may name; of two with one name the first counts. -/
  embeddings : List (Text × Embedding) := builtinEmbeddings
  now : Instant := 0
  /-- The edition of what is compiled next, later than those of all registered grammars. -/
  editions : Nat := 0

namespace Session

def start (config : Config) (desk : Option HelpDesk) : Session :=
  { config := config, discovered := .empty config.maxLifetime, desk := desk }

/-- The session some time later. -/
def advance (d : Duration) (s : Session) : Option Session :=
  (s.now.later? d).map fun now => { s with now := now }

/-! ### Registering grammars -/

/-- What compilations in a session depend on. -/
def compileOptions (s : Session) : CompileOptions := { embeddings := s.embeddings }

def addEmbedding (name : Text) (e : Embedding) (s : Session) : Session :=
  { s with embeddings := (name, e) :: s.embeddings }

def registered? (s : Session) (program : Text) : Option Grammar :=
  (s.registered.find? (fun r => r.1 == program)).map Prod.snd

/-- The session with a grammar in the place of any other one of its program. -/
def register (g : Grammar) (s : Session) : Session :=
  { s with
    registered := s.registered.filter (fun r => !(r.1 == g.program)) ++ [(g.program, g)]
    editions := max s.editions g.nextEdition }

/-- The session with some grammars registered one after the other. -/
def registerAll (grammars : List Grammar) (s : Session) : Session :=
  grammars.foldl (fun s g => s.register g) s

def registerDeclarations (program : Text) (declarations : List Declaration) (s : Session) :
    Except SessionError Session :=
  match compileGrammar s.compileOptions program declarations with
  | .ok g => .ok (s.register (g.issue s.editions))
  | .error e => .error (.grammar e)

def registerDocument (document : GrammarDocument) (s : Session) : Except SessionError Session :=
  match document.compile s.embeddings with
  | .ok g => .ok (s.register (g.issue s.editions))
  | .error e => .error (.grammar e)

/-- Registers every grammar of a catalog directory, or none if one of them fails; the answer has
the number of grammars. -/
def loadCatalog (files : FileSystem) (directory : Text) (s : Session) :
    Except SessionError (Nat × Session) := do
  let catalog ← Catalog.load files directory
  let grammars ← catalog.compile s.embeddings
  .ok (grammars.length, s.registerAll (Grammar.issueAll s.editions grammars))

/-! ### Looking grammars up -/

/-- The grammar that the pages about a program make, if they list any option. -/
def discover (program : Text) (desk : HelpDesk) (s : Session) :
    Option (Option Grammar × HelpDesk) :=
  (desk.programEntries s.now {} s.config.useManual program).map fun (entries, desk) =>
    if entries.isEmpty then (none, desk)
    else
      match Discovery.grammarOf s.compileOptions program entries with
      | .ok g => (some (g.issue s.editions), desk)
      | .error _ => (none, desk)

/-- The grammar made from the pages about a program, from its copy if there is one. -/
def discoveredFor (program : Text) (desk : HelpDesk) (s : Session) :
    Option (Option Grammar × Session) :=
  let discovered := s.discovered.getOrPut? s.now program s.config.grammarLifetime
    (fun desk => s.discover program desk) desk
  discovered.map fun (g, discovered, desk) =>
    (g, { s with discovered := discovered, desk := some desk })

def grammarFor (command : Text) (s : Session) : Option (Option Grammar × Session) :=
  let program := Line.programName command
  match s.registered? program, s.desk with
  | some g, _ => some (some g, s)
  | none, none => some (none, s)
  | none, some desk => s.discoveredFor program desk

def lookup (s : Session) (command : Text) : Option Grammar :=
  (s.grammarFor command).bind Prod.fst

/-- Carries out lookups for their effect on the session. -/
def replay (commands : List Text) (s : Session) : Option Session :=
  commands.foldlM (fun s command => (s.grammarFor command).map Prod.snd) s

/-! ### Reading and completing lines -/

/-- Reads the words after a program's name, with the grammar of the program. -/
def matchLine (program : Text) (tokens : List Text) (s : Session) :
    Option (Option Grammar × Line × Session) := do
  let (g, s) ← s.grammarFor program
  let line := Line.parse s.lookup tokens ((g.map Grammar.members).getD [])
  let s ← s.replay line.consulted
  some (g, line, { s with editions := s.editions + 1 })

/-- Reads the words after a program's name. -/
def parse (program : Text) (tokens : List Text) (s : Session) : Option (Line × Session) :=
  (s.matchLine program tokens).map fun (_, line, s) => (line, s)

/-- The first grammar of some commands that owns a specification. -/
def firstOwner (m : Member) : List Text → Session → Option (Option Grammar × Session)
  | [], s => some (none, s)
  | command :: commands, s => do
    let (g, s) ← s.grammarFor command
    match g.filter (fun g => g.owns m) with
    | some g => some (some g, s)
    | none => firstOwner m commands s

/-- The programs of the embedded lines of a trace, the last one first. -/
def embeddedCommands (history : List Record) : List Text :=
  (history.filter fun r => r.member.isNone && r.name == Line.commandName).reverse.map Record.stub

/-- The grammar to which the specification of the last record belongs: the program's own, or that
of an embedded line, the last one first. -/
def owningGrammar (top : Option Grammar) (history : List Record) (s : Session) :
    Option (Option Grammar × Session) :=
  match history.getLast?.bind Record.member with
  | none => some (none, s)
  | some m =>
    match top.filter (fun g => g.owns m) with
    | some g => some (some g, s)
    | none => firstOwner m (embeddedCommands history) s

/-- Completes the last of the words after a program's name. -/
def complete (generators : Generators) (program : Text) (tokens : List Text) (s : Session) :
    Option (Completion × Session) := do
  let (top, line, s) ← s.matchLine program tokens
  let (owner, s) ← s.owningGrammar top line.history
  let options :=
    { s.config.resolveOptions with guesses := (owner.map Grammar.guesses).getD [] }
  some (Completion.resolve generators options line.history, s)

/-- Drops expired copies of grammars, or all of them, and answers their number. -/
def flush (force : Bool) (s : Session) : Nat × Session :=
  let (n, discovered) := s.discovered.flush s.now force
  (n, { s with discovered := discovered })

end Session

end CommandGrammar
