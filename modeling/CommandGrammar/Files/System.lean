import CommandGrammar.Files.Tree
import CommandGrammar.Text.Utf8

/-!
# A file system as a value

Everything that reads or writes files works on the tree below the root of the machine, together with
the working directory. An absolute path starts from the root, any other path from the working
directory; either may go up, but not above the root.
-/

namespace CommandGrammar

/-- The files of a machine, as a process sees them. -/
structure FileSystem where
  root : FileTree
  /-- The parts that lead from the root to the working directory. -/
  directory : List Text := []
deriving Repr, Inhabited

namespace FileSystem

/-- The parts that a path has from the root on. -/
def parts (files : FileSystem) (path : Text) : List Text :=
  if Path.isAbsolute path then Path.parts path else files.directory ++ Path.parts path

def find? (files : FileSystem) (path : Text) : Option FileTree :=
  if path.isEmpty then none
  else
    match files.root.follow? [] (files.parts path) with
    | some node => if Path.namesDirectory path && !node.isDirectory then none else some node
    | none => none

def list? (files : FileSystem) (path : Text) : Option (List (Text × FileTree)) :=
  match files.find? path with
  | some (.directory entries) => some entries
  | _ => none

def read? (files : FileSystem) (path : Text) : Option (List UInt8) :=
  match files.find? path with
  | some (.file bytes _) => some bytes
  | _ => none

/-- The text of the file a path leads to, if its bytes are well-formed. -/
def readText? (files : FileSystem) (path : Text) : Option Text :=
  (files.read? path).bind Utf8.decode?

/-- The files with one written, which stays as executable as it was; its directory must be there
already. -/
def write? (files : FileSystem) (path : Text) (bytes : List UInt8) : Option FileSystem :=
  if path.isEmpty || Path.namesDirectory path then none
  else do
    let parts := files.parts path
    let folder ← files.root.follow? [] parts.dropLast
    if !folder.isDirectory then none
    else
      let executable := (files.find? path).any FileTree.isExecutable
      let root ← FileTree.put? false (.file bytes executable) files.root (Path.resolve parts)
      some { files with root := root }

/-- The files with a node added, the directories above it included; a path that cannot be taken
leaves them as they are. -/
def add (files : FileSystem) (path : Text) (node : FileTree) : FileSystem :=
  let root := FileTree.put? true node files.root (Path.resolve (files.parts path))
  { files with root := root.getD files.root }

end FileSystem

end CommandGrammar
