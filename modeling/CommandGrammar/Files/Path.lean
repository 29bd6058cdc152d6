import CommandGrammar.Text.Basic

/-!
# Paths

A path is a text whose parts are separated by slashes. Empty parts and single dots change nothing,
two dots go up. These functions look at the text alone.
-/

namespace CommandGrammar

namespace Path

/-- The parts of a path that lead somewhere. -/
def parts (path : Text) : List Text :=
  (Text.splitWhere (· == '/') path).filter (fun p => p != [] && p != ['.'])

/-- Parts without those that go up, each of which takes the part before it along; above the root
there is nothing to take. -/
def resolve (parts : List Text) : List Text :=
  (parts.foldl (fun passed part => if part = ['.', '.'] then passed.tail else part :: passed)
    []).reverse

/-- Whether a path starts at the root of the file system. -/
def isAbsolute (path : Text) : Bool := path.head? == some '/'

/-- Whether a path names a directory by its form: it ends in a slash or a dot part. -/
def namesDirectory (path : Text) : Bool :=
  match (Text.splitWhere (· == '/') path).getLast? with
  | some last => last == [] || last == ['.'] || last == ['.', '.']
  | none => false

/-- The last part of a path, unless it goes up. -/
def fileName? (path : Text) : Option Text :=
  match (parts path).getLast? with
  | some last => if last = ['.', '.'] then none else some last
  | none => none

/-- The part of a file name after its last dot; a dot at its beginning does not count. -/
def extension? (path : Text) : Option Text :=
  match fileName? path with
  | none => none
  | some name =>
    let tail := (name.reverse.takeWhile (· != '.')).reverse
    let stem := name.take (name.length - tail.length - 1)
    if tail.length < name.length && stem != [] then some tail else none

/-- A path below a directory; an absolute path replaces the directory. -/
def join (directory path : Text) : Text :=
  if isAbsolute path || directory.isEmpty then path
  else if directory.getLast? = some '/' then directory ++ path
  else directory ++ ['/'] ++ path

/-- The directory part of a path, its slash included, and what follows it. -/
def splitLast (path : Text) : Text × Text :=
  ((path.reverse.dropWhile (· != '/')).reverse, (path.reverse.takeWhile (· != '/')).reverse)

theorem splitLast_append (path : Text) : (splitLast path).1 ++ (splitLast path).2 = path := by
  simp only [splitLast, ← List.reverse_append, List.takeWhile_append_dropWhile,
    List.reverse_reverse]

/-- A file name is not cut, and does not stand for a directory. -/
theorem splitWhere_of_fileName? {path name : Text} (h : fileName? path = some name) :
    Text.splitWhere (· == '/') name = [name] ∧ name ≠ [] ∧ name ≠ ['.'] ∧ name ≠ ['.', '.'] := by
  have hlast : (parts path).getLast? = some name ∧ name ≠ ['.', '.'] := by
    unfold fileName? at h
    split at h
    · split at h
      · exact absurd h (by simp)
      · rename_i hlast hup
        obtain rfl := Option.some.inj h
        exact ⟨hlast, hup⟩
    · exact absurd h (by simp)
  obtain ⟨hpiece, hpart⟩ := List.mem_filter.1 (List.mem_of_getLast? hlast.1)
  refine ⟨Text.splitWhere_eq_self (Text.forall_mem_of_mem_splitWhere name hpiece), ?_⟩
  simpa [hlast.2] using hpart

/-- A file name has one part, itself. -/
theorem parts_of_fileName? {path name : Text} (h : fileName? path = some name) :
    parts name = [name] := by
  obtain ⟨hsplit, hempty, hdot, -⟩ := splitWhere_of_fileName? h
  rw [parts, hsplit]
  simp [hempty, hdot]

/-- A file name is its own file name. -/
theorem fileName?_fileName? {path name : Text} (h : fileName? path = some name) :
    fileName? name = some name := by
  unfold fileName?
  rw [parts_of_fileName? h]
  exact if_neg (splitWhere_of_fileName? h).2.2.2

example : extension? "x.yaml.bak".toList = some "bak".toList := by decide
example : extension? ".yaml".toList = none := by decide
example : fileName? "/usr/bin/ls".toList = some "ls".toList := by decide
example : fileName? "a/..".toList = none := by decide

end Path

end CommandGrammar
