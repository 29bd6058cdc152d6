import CommandGrammar.Files.Path

/-!
# Directory trees

A directory has entries by name, each a file or another directory; a link counts as what it leads
to. Parts of a path lead from a directory downwards to the entry they name, or upwards, but never
above the directory where the tree begins.
-/

namespace CommandGrammar

inductive FileTree
  | file (bytes : List UInt8) (executable : Bool)
  | directory (entries : List (Text × FileTree))
deriving Repr, Inhabited

namespace FileTree

def empty : FileTree := directory []

def isDirectory : FileTree → Bool
  | directory _ => true
  | file _ _ => false

def isExecutable : FileTree → Bool
  | file _ executable => executable
  | directory _ => false

def child? (name : Text) : FileTree → Option FileTree
  | directory entries => (entries.find? (fun e => e.1 == name)).map Prod.snd
  | file _ _ => none

/-- Follows parts downwards and upwards; `above` holds the directories passed, innermost first.
Upwards from where the tree begins is there again. -/
def follow? : List FileTree → FileTree → List Text → Option FileTree
  | _, node, [] => some node
  | above, node, part :: parts =>
    if !node.isDirectory then none
    else if part = ['.', '.'] then
      match above with
      | parent :: above => follow? above parent parts
      | [] => follow? [] node parts
    else
      match node.child? part with
      | some next => follow? (node :: above) next parts
      | none => none

def setEntry (name : Text) (node : FileTree) : List (Text × FileTree) → List (Text × FileTree)
  | [] => [(name, node)]
  | e :: es => if e.1 = name then (name, node) :: es else e :: setEntry name node es

/-- A tree with a node put at some parts; `create` makes missing directories on the way. -/
def put? (create : Bool) (node : FileTree) : FileTree → List Text → Option FileTree
  | _, [] => some node
  | directory entries, [name] =>
    match (entries.find? (fun e => e.1 == name)).map Prod.snd, node with
    | some (directory _), file _ _ => none
    | some (directory old), directory _ => some (directory (setEntry name (directory old) entries))
    | _, _ => some (directory (setEntry name node entries))
  | directory entries, name :: parts =>
    match entries.find? (fun e => e.1 == name) with
    | some (_, next) => (put? create node next parts).map fun next =>
        directory (setEntry name next entries)
    | none =>
      if create then (put? create node empty parts).map fun next =>
        directory (setEntry name next entries)
      else none
  | file _ _, _ :: _ => none

end FileTree

end CommandGrammar
