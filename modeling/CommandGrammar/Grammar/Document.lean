import CommandGrammar.Document.Tree
import CommandGrammar.Grammar.Compile
import CommandGrammar.Json.Parser
import CommandGrammar.Yaml.Node

/-!
# Grammar documents

A document describes one program, in YAML or in JSON:

    program: tar
    guesses:
      - pattern: "^--format="
        source: [gnu, posix, ustar]
    specs:
      - kind: option
        name: "-f, --file=ARCHIVE   use archive file"
      - kind: argument
        name: "* FILE"

Every field but the program, the kind and the name of a declaration and both fields of a hint may
be left out; a field that is not known makes the document malformed.
-/

namespace CommandGrammar

/-- A declared hint. -/
structure GuessDecl where
  pattern : Text
  source : SourceDecl
deriving DecidableEq, Repr

/-- The declarations of one program. -/
structure GrammarDocument where
  program : Text
  noSharing : Bool := false
  guesses : List GuessDecl := []
  declarations : List Declaration := []
deriving DecidableEq, Repr

namespace GrammarDocument

/-! ### Reading the fields -/

/-- Reads a source: a keyword, or a list of texts. -/
def source? (t : Tree) : Option SourceDecl :=
  match t with
  | .list items => (items.mapM Tree.properText?).map .values
  | t => (t.properText?.bind Keyword.ofText?).map .keyword

def kind? (t : Tree) : Option SpecKind :=
  match t.variant? with
  | some name =>
    if name = "option".toList then some .option
    else if name = "positional".toList || name = "argument".toList then some .positional
    else none
  | none => none

def actionDecl? (t : Tree) : Option ActionDecl := do
  let entries ← t.record? ["metavar", "source", "suffix"]
  let metavar ← Tree.orDefault "metavar" [] Tree.text? entries
  let source ← Tree.orDefault "source" (.keyword .guess) source? entries
  let suffix ← Tree.orDefault "suffix" none Tree.nullableText? entries
  some ⟨metavar, source, suffix⟩

def declaration? (t : Tree) : Option Declaration := do
  let entries ← t.record?
    ["kind", "name", "actions", "excludes", "repeatable", "independent", "help", "subparser"]
  let kind ← Tree.required "kind" kind? entries
  let name ← Tree.required "name" Tree.name? entries
  let actions ← Tree.orDefault "actions" [] (Tree.listOf? actionDecl?) entries
  let excludes ← Tree.orDefault "excludes" [] (Tree.listOf? Tree.text?) entries
  let repeatable ← Tree.orDefault "repeatable" false Tree.bool? entries
  let independent ← Tree.orDefault "independent" false Tree.bool? entries
  let help ← Tree.orDefault "help" [] Tree.text? entries
  let embeddingName ← Tree.orDefault "subparser" none Tree.nullableText? entries
  some
    { kind := kind, name := name, actions := actions, excludes := excludes,
      repeatable := repeatable, independent := independent, help := help,
      embeddingName := embeddingName }

def guessDecl? (t : Tree) : Option GuessDecl := do
  let entries ← t.record? ["pattern", "source"]
  let pattern ← Tree.required "pattern" Tree.text? entries
  let source ← Tree.required "source" source? entries
  some ⟨pattern, source⟩

def ofTree? (t : Tree) : Option GrammarDocument := do
  let entries ← t.record? ["program", "no_shared_args", "guesses", "specs"]
  let program ← Tree.required "program" Tree.text? entries
  let noSharing ← Tree.orDefault "no_shared_args" false Tree.bool? entries
  let guesses ← Tree.orDefault "guesses" [] (Tree.listOf? guessDecl?) entries
  let declarations ← Tree.orDefault "specs" [] (Tree.listOf? declaration?) entries
  some ⟨program, noSharing, guesses, declarations⟩

/-- A document that was read, or the error for one that was not. -/
def orMalformed : Option GrammarDocument → Except GrammarError GrammarDocument
  | some d => .ok d
  | none => .error (.declaration "malformed document".toList)

def ofYaml (text : Text) : Except GrammarError GrammarDocument :=
  orMalformed ((Yaml.Node.parseTree? text).bind ofTree?)

def ofJson (text : Text) : Except GrammarError GrammarDocument :=
  orMalformed ((Json.parseTree? text).bind ofTree?)

/-! ### Compiling -/

def compileGuesses (guesses : List GuessDecl) : Except GrammarError (List GuessRule) :=
  guesses.mapM fun g => GuessRule.compile g.pattern g.source.toSource

def compile (embeddings : List (Text × Embedding)) (d : GrammarDocument) :
    Except GrammarError Grammar := do
  let guesses ← compileGuesses d.guesses
  compileGrammar ⟨guesses, d.noSharing, embeddings⟩ d.program d.declarations

end GrammarDocument

end CommandGrammar
