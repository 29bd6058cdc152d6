import CommandGrammar.Tool.Answer

/-!
# The command line tool

The outer layer of the tool: it takes a picture of the files a request may ask for, reads the
standard input if the request needs it, and prints the answer. The picture has the working
directory, followed to a fixed depth, the accounts of the machine and the names on the search path.
A file below the working directory is taken for a program if it begins as a script does. No program
is started from here, so none has a page.
-/

namespace CommandGrammar

namespace Tool

def scriptMark : List UInt8 := [35, 33]

/-- A picture of a file or a directory, and of the directories below it `depth` levels deep. -/
def snapshot : Nat → IO.FS.DirEntry → IO FileTree
  | 0, _ => pure .empty
  | depth + 1, entry => do
    if ← entry.path.isDir then
      let children ← (← entry.path.readDir).toList.mapM fun child => do
        pure (child.fileName.toList, ← snapshot depth child)
      pure (.directory children)
    else
      let bytes ← try IO.FS.readBinFile entry.path catch _ => pure ByteArray.empty
      pure (.file bytes.toList (bytes.toList.take 2 == scriptMark))

/-- How many levels of directories are followed. -/
def snapshotDepth : Nat := 8

/-- Adds a file, if it can be read. -/
def addFile (files : FileSystem) (path : String) : IO FileSystem := do
  try
    let bytes ← IO.FS.readBinFile path
    pure (files.add path.toList (.file bytes.toList false))
  catch _ => pure files

/-- Adds a directory of programs, which are not read, if it can be listed. -/
def addPrograms (files : FileSystem) (directory : Text) : IO FileSystem := do
  try
    let folder : IO.FS.DirEntry := ⟨String.ofList directory, "."⟩
    let programs := (← folder.path.readDir).toList.map fun entry =>
      (entry.fileName.toList, FileTree.file [] true)
    pure (files.add directory (.directory programs))
  catch _ => pure files

def searchPath (written : Option String) : List Text :=
  match written with
  | some path => Text.splitWhere (· == ':') path.toList
  | none => []

/-- Whether arguments make a request that reads the standard input. -/
def needsInput (arguments : List Text) : Bool :=
  match Invocation.parse arguments with
  | .ok i => i.readsInput
  | .error _ => false

end Tool

end CommandGrammar

open CommandGrammar Tool in
def main (arguments : List String) : IO UInt32 := do
  let words := arguments.map String.toList
  let directories := searchPath (← IO.getEnv "PATH")
  let start : FileSystem :=
    { root := .empty, directory := Path.parts (← IO.currentDir).toString.toList }
  let files := start.add ['.'] (← snapshot snapshotDepth ⟨".", "."⟩)
  let files ← ["/etc/passwd", "/etc/group"].foldlM addFile files
  let files ← directories.foldlM addPrograms files
  let filter ← IO.getEnv "ARGSPEC_LOG"
  let input ← if needsInput words then (← IO.getStdin).readToEnd else pure ""
  let answer := Answer.ofArguments
    { host := ⟨files, directories⟩, run := fun _ _ _ => none, input := input.toList,
      logFilter := (filter.getD "").toList }
    words
  (← IO.getStdout).putStr (String.ofList answer.output)
  (← IO.getStderr).putStr (String.ofList answer.messages)
  pure (UInt32.ofNat answer.code)
