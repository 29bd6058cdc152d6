import CommandGrammar.Files.System
import CommandGrammar.Text.Blank
import CommandGrammar.Text.Quoted

/-!
# Candidates and the providers that list them

A *provider* answers a stub, the part of a word typed so far, with the candidates that begin with
it. There are five: a fixed list, the paths below a directory, the names of an account database,
the executables on a search path, and the provider of nothing, which also keeps a host from
offering file names on its own.

What a provider answers depends on its `Host`: the files it can read and the search path of the
environment. Paths, accounts and commands come in increasing order of their values, each value
once.
-/

namespace CommandGrammar

/-- One completion. -/
structure Candidate where
  /-- The text that replaces the stub. -/
  value : Text
  /-- A description shown beside the value. -/
  note : Option Text := none
  /-- What ends the word, if it is not what the completion as a whole says. -/
  suffix : Option Text := none
deriving DecidableEq, Repr

namespace Candidate

/-- The candidate with a note; an empty one counts as none. -/
def withNote (c : Candidate) (note : Text) : Candidate :=
  { c with note := if note.isEmpty then none else some note }

/-- Candidates with one put in its place by value; one of the same value gives way to it. -/
def insertSorted (c : Candidate) : List Candidate → List Candidate
  | [] => [c]
  | d :: ds =>
    if Text.before c.value d.value then c :: d :: ds
    else if c.value = d.value then c :: ds
    else d :: insertSorted c ds

/-- Candidates in increasing order of their values, each value once. -/
def sorted (cs : List Candidate) : List Candidate := cs.foldr insertSorted []

/-- The candidate as it is shown inside a description of its provider. -/
def describe (c : Candidate) : Text :=
  let optional (t : Option Text) : Text := match t with
    | some t => "Some(".toList ++ Text.quoted t ++ [')']
    | none => "None".toList
  "Candidate \x7b value: ".toList ++ Text.quoted c.value ++ ", annotation: ".toList
    ++ optional c.note ++ ", suffix: ".toList ++ optional c.suffix ++ " \x7d".toList

end Candidate

/-- Which kind of names an account database holds. -/
inductive AccountKind
  | users
  | groups
deriving DecidableEq, Repr

/-- What the environment of a command line offers. -/
structure Host where
  files : FileSystem
  searchPath : List Text
deriving Repr

/-- A source of candidates that needs nothing but its host. -/
inductive Provider
  | listed (candidates : List Candidate)
  /-- Paths relative to `root`, or to the working directory without one. -/
  | paths (directoriesOnly : Bool) (root : Option Text)
  /-- The names in the first column of a colon-separated file. -/
  | accounts (kind : AccountKind) (database : Text)
  /-- Executables in some directories, by default those on the search path of the host. -/
  | commands (directories : Option (List Text))
  | nothing
deriving DecidableEq, Repr

namespace Provider

/-! ### The usual providers -/

def files : Provider := paths false none

def directories : Provider := paths true none

def users : Provider := accounts .users "/etc/passwd".toList

def groups : Provider := accounts .groups "/etc/group".toList

/-! ### Candidates -/

/-- Whether a directory entry is offered for the beginning of a name: hidden names are offered
only where the dot was typed. -/
def offersName (base name : Text) : Bool :=
  Text.startsWith base name && !(name.head? == some '.' && base.head? != some '.')

/-- The candidate for a directory entry; a directory leaves the word open for the next part. -/
def entryCandidate (folder : Text) (entry : Text × FileTree) : Candidate :=
  if entry.2.isDirectory then ⟨folder ++ entry.1 ++ ['/'], none, some []⟩
  else ⟨folder ++ entry.1, none, none⟩

/-- The directory in which the paths below `folder` are looked up. -/
def searchFolder (root : Option Text) (folder : Text) : Text :=
  let folder := if folder.isEmpty then ['.'] else folder
  match root with
  | some root => Path.join root folder
  | none => folder

def completePaths (files : FileSystem) (directoriesOnly : Bool) (root : Option Text)
    (stub : Text) : List Candidate :=
  let (folder, base) := Path.splitLast stub
  match files.list? (searchFolder root folder) with
  | none => []
  | some entries =>
    Candidate.sorted ((entries.filter fun entry =>
      offersName base entry.1 && (!directoriesOnly || entry.2.isDirectory)).map
        (entryCandidate folder))

/-- The name in the first column of a line; comments and lines without a name have none. -/
def accountName? (line : Text) : Option Text :=
  if (Text.trimStart line).head? == some '#' then none
  else
    let name := Text.trim (line.takeWhile (· != ':'))
    if name.isEmpty then none else some name

def completeAccounts (files : FileSystem) (database stub : Text) : List Candidate :=
  match files.readText? database with
  | none => []
  | some raw =>
    Candidate.sorted ((((Text.lines raw).filterMap accountName?).filter
      (Text.startsWith stub)).map fun name => ⟨name, none, none⟩)

/-- The executables in some directories that begin with a stub; a stub with a slash is a path. -/
def completeCommands (files : FileSystem) (directories : List Text) (stub : Text) :
    List Candidate :=
  if stub.contains '/' then completePaths files false none stub
  else
    Candidate.sorted ((directories.flatMap fun directory =>
      ((files.list? directory).getD []).filter fun entry =>
        Text.startsWith stub entry.1 && entry.2.isExecutable).map fun entry =>
          ⟨entry.1, none, none⟩)

def complete (host : Host) (stub : Text) : Provider → List Candidate
  | listed candidates => candidates.filter fun c => Text.startsWith stub c.value
  | paths directoriesOnly root => completePaths host.files directoriesOnly root stub
  | accounts _ database => completeAccounts host.files database stub
  | commands directories =>
    completeCommands host.files (directories.getD host.searchPath) stub
  | nothing => []

/-- Whether a host may offer file names where a provider has no candidate. -/
def allowsFallback : Provider → Bool
  | nothing => false
  | _ => true

/-! ### Descriptions -/

/-- A path between double quotes, where the single quote is escaped as well. -/
def quotedPath (path : Text) : Text :=
  ['"'] ++ path.flatMap (fun c => if c == '\'' then ['\\', '\''] else Text.quoteChar c) ++ ['"']

def bracketed (items : List Text) : Text :=
  ['['] ++ Text.joinWith [',', ' '] items ++ [']']

/-- A provider in words, for summaries. -/
def describe (host : Host) : Provider → Text
  | listed candidates =>
    "LiteralProvider \x7b candidates: ".toList ++ bracketed (candidates.map Candidate.describe)
      ++ " \x7d".toList
  | paths directoriesOnly root =>
    "PathProvider \x7b directories_only: ".toList
      ++ (if directoriesOnly then "true" else "false").toList ++ ", root: ".toList
      ++ (match root with
        | some root => "Some(".toList ++ quotedPath root ++ [')']
        | none => "None".toList)
      ++ " \x7d".toList
  | accounts kind database =>
    "AccountProvider \x7b kind: ".toList
      ++ (match kind with
        | .users => "Users"
        | .groups => "Groups").toList
      ++ ", database: ".toList ++ quotedPath database ++ " \x7d".toList
  | commands directories =>
    "CommandProvider \x7b search_path: ".toList
      ++ bracketed ((directories.getD host.searchPath).map quotedPath) ++ " \x7d".toList
  | nothing => "NoCompletions".toList

end Provider

end CommandGrammar
