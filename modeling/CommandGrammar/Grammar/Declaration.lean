import CommandGrammar.Grammar.Guess
import CommandGrammar.Grammar.Spec

/-!
# Declarations

A grammar is written as a list of declarations. An option is declared by its descriptor, a
positional slot by its index or a star with the placeholders of its values. What a descriptor
cannot say stands beside it: value slots with a source, exclusions, and the embedded command line
that follows.
-/

namespace CommandGrammar

/-- Where a declared slot gets its completions. -/
inductive SourceDecl
  | keyword (keyword : Keyword)
  | values (values : List Text)
  | given (source : Source)
deriving DecidableEq, Repr

/-- The source a declaration stands for; providers named by a keyword share one handle. -/
def SourceDecl.toSource : SourceDecl → Source
  | keyword k => k.toSource 0
  | values vs => Source.ofValues vs
  | given source => source

/-- A declared value slot. -/
structure ActionDecl where
  metavar : Text := []
  source : SourceDecl := .keyword .guess
  suffix : Option Text := none
deriving DecidableEq, Repr

def ActionDecl.toAction (a : ActionDecl) : Action := ⟨a.metavar, a.source.toSource, a.suffix⟩

inductive SpecKind
  | option
  | positional
deriving DecidableEq, Repr

structure Declaration where
  kind : SpecKind
  /-- A descriptor, or an index with placeholders. -/
  name : Text
  actions : List ActionDecl := []
  excludes : List Text := []
  repeatable : Bool := false
  independent : Bool := false
  help : Text := []
  /-- The name of a registered embedding. -/
  embeddingName : Option Text := none
  /-- An embedding given directly; it wins over a name. -/
  embedding : Option Embedding := none
deriving DecidableEq, Repr

namespace Declaration

def option (descriptor : Text) : Declaration := { kind := .option, name := descriptor }

/-- A positional slot known by its index and placeholders alone. -/
def positional (descriptor : Text) : Declaration := { kind := .positional, name := descriptor }

end Declaration

/-- The embeddings that declarations can name without registering them. -/
def builtinEmbeddings : List (Text × Embedding) :=
  [("command".toList, {}), ("exec".toList, { terminators := [[';'], ['+']] })]

/-- What a compilation depends on besides the declarations. -/
structure CompileOptions where
  /-- Hints consulted before the built-in guess table. -/
  guesses : List GuessRule := []
  /-- Whether spellings keep their value slots to themselves. -/
  noSharing : Bool := false
  /-- The embeddings that declarations may name; of two with one name the first counts. -/
  embeddings : List (Text × Embedding) := []
deriving Repr

namespace CompileOptions

def embedding? (options : CompileOptions) (name : Text) : Option Embedding :=
  (options.embeddings.find? (fun e => e.1 == name)).map Prod.snd

end CompileOptions

end CommandGrammar
