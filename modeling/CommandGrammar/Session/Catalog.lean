import CommandGrammar.Files.System
import CommandGrammar.Grammar.Document
import CommandGrammar.Session.Error

/-!
# Catalogs of documents

A catalog is a directory of grammar documents, told by their extension; other files do not matter.
The documents are read in the order of their names, and of two for one program the later counts. A
document that cannot be read makes the whole catalog fail.
-/

namespace CommandGrammar

/-- The forms in which a document is written. -/
inductive DocumentFormat
  | yaml
  | json
deriving DecidableEq, Repr

def DocumentFormat.ofPath? (path : Text) : Option DocumentFormat :=
  match Path.extension? path with
  | none => none
  | some extension =>
    if extension = "yaml".toList || extension = "yml".toList then some yaml
    else if extension = "json".toList then some json
    else none

/-- Reads a document in the form its path tells. -/
def GrammarDocument.ofFile (path text : Text) : Except GrammarError GrammarDocument :=
  match DocumentFormat.ofPath? path with
  | some .yaml => ofYaml text
  | some .json => ofJson text
  | none => .error (.declaration ("unsupported document extension: ".toList ++ path))

/-- Loads a document from a file. -/
def GrammarDocument.load (files : FileSystem) (path : Text) : Except SessionError GrammarDocument :=
  match files.readText? path with
  | none => .error (.inaccessible path)
  | some text => (ofFile path text).mapError (.document path)

/-- Documents by program, each with the path it came from. -/
structure Catalog where
  documents : List (Text × Text × GrammarDocument) := []
deriving Repr

namespace Catalog

def find? (c : Catalog) (program : Text) : Option (Text × GrammarDocument) :=
  (c.documents.find? (fun d => d.1 == program)).map Prod.snd

def insert (c : Catalog) (path : Text) (document : GrammarDocument) : Catalog :=
  ⟨c.documents.filter (fun d => !(d.1 == document.program)) ++ [(document.program, path, document)]⟩

def programs (c : Catalog) : List Text := Text.sorted (c.documents.map Prod.fst)

/-- The paths of the documents in a directory, in increasing order. -/
def paths (directory : Text) (entries : List (Text × FileTree)) : List Text :=
  (Text.sorted ((entries.filter fun e =>
    !e.2.isDirectory && (DocumentFormat.ofPath? e.1).isSome).map Prod.fst)).map
      (Path.join directory)

/-- Loads the documents of a directory. -/
def load (files : FileSystem) (directory : Text) : Except SessionError Catalog :=
  match files.list? directory with
  | none => .error (.inaccessible directory)
  | some entries =>
    (paths directory entries).foldlM
      (fun c path => (GrammarDocument.load files path).map (c.insert path)) {}

def compileProgram (embeddings : List (Text × Embedding)) (c : Catalog) (program : Text) :
    Except SessionError Grammar :=
  match c.find? program with
  | some (path, document) => (document.compile embeddings).mapError (.document path)
  | none => .error (.inaccessible program)

/-- The grammars of all programs, in the order of the programs. -/
def compile (embeddings : List (Text × Embedding)) (c : Catalog) :
    Except SessionError (List Grammar) :=
  c.programs.mapM (compileProgram embeddings c)

end Catalog

end CommandGrammar
