import CommandGrammar.Proofs.Directories
import CommandGrammar.Source.Provider

/-!
# Narrowing completions

What a provider answers begins with the stub it was asked for, and paths, accounts and commands come
in increasing order. So a host that has the answer for a stub can keep it while the word grows: for
the longer stub it drops the candidates that do not begin with it, and what is left is what the
provider would answer. There are two limits: the stub must not reach into another directory, and a
name that begins with a dot is not among the paths until its dot was typed.

* `Candidate.filter_sorted`: dropping candidates before they are sorted or after;
* `Path.splitLast_append_of_not_mem`: a stub that grows within its directory;
* `Provider.completePaths_append`, `Provider.completeNames_append`: the law for the two ways of
  listing candidates, `Provider.completeAccounts_eq` and `Provider.completeCommands_eq` say which
  one is used;
* `Provider.complete_narrows`: what a host may rely on.
-/

namespace CommandGrammar

namespace Text

/-- Of two beginnings of a text the longer one decides. -/
theorem startsWith_and_startsWith (p s t : Text) :
    (startsWith (p ++ s) t && startsWith p t) = startsWith (p ++ s) t := by
  cases hlong : startsWith (p ++ s) t with
  | false => rfl
  | true =>
    rw [startsWith_iff] at hlong
    exact startsWith_iff.2 ((List.prefix_append p s).trans hlong)

theorem startsWith_append_append (folder piece text : Text) :
    startsWith (folder ++ piece) (folder ++ text) = startsWith piece text := by
  rw [Bool.eq_iff_iff, startsWith_iff, startsWith_iff]
  exact List.prefix_append_right_inj folder

/-- A last character makes no difference to what begins without it. -/
theorem startsWith_concat {piece : Text} {c : Char} (h : c ∉ piece) (text : Text) :
    startsWith piece (text ++ [c]) = startsWith piece text := by
  rw [Bool.eq_iff_iff, startsWith_iff, startsWith_iff, List.prefix_concat_iff]
  refine ⟨fun hp => hp.resolve_left ?_, Or.inr⟩
  rintro rfl
  exact h (List.mem_append_right text List.mem_cons_self)

end Text

namespace Candidate

/-! ### Sorted candidates -/

theorem map_value_insertSorted (c : Candidate) (cs : List Candidate) :
    (insertSorted c cs).map value = Text.insertSorted c.value (cs.map value) := by
  induction cs with
  | nil => rfl
  | cons first rest ih =>
    rw [List.map_cons, insertSorted, Text.insertSorted]
    split
    · rfl
    · split
      · rename_i heq
        rw [List.map_cons, heq]
      · rw [List.map_cons, ih]

/-- Sorted candidates have the sorted values. -/
theorem map_value_sorted (cs : List Candidate) :
    (sorted cs).map value = Text.sorted (cs.map value) := by
  induction cs with
  | nil => rfl
  | cons first rest ih =>
    show (insertSorted first (sorted rest)).map value
      = Text.insertSorted first.value (Text.sorted (rest.map value))
    rw [map_value_insertSorted, ih]

/-- What comes before all candidates is put at their beginning. -/
theorem insertSorted_of_lt {c : Candidate} {cs : List Candidate}
    (h : ∀ d ∈ cs, c.value < d.value) : insertSorted c cs = c :: cs := by
  cases cs with
  | nil => rfl
  | cons first rest => exact if_pos (Text.before_iff_lt.2 (h first List.mem_cons_self))

section Filter

variable {p : Candidate → Bool} (hp : ∀ c d : Candidate, c.value = d.value → p c = p d)

include hp

/-- Candidates are dropped by value, so it does not matter which of two with the same value was
kept. -/
theorem filter_insertSorted {cs : List Candidate} (h : cs.Pairwise (·.value < ·.value))
    (c : Candidate) :
    (insertSorted c cs).filter p = if p c then insertSorted c (cs.filter p) else cs.filter p := by
  induction h with
  | nil => exact List.filter_cons
  | @cons first rest hfirst hrest ih =>
    rw [insertSorted]
    split
    · -- It stands before all, dropped or not.
      rename_i hbefore
      rw [Text.before_iff_lt] at hbefore
      have hall : ∀ d ∈ (first :: rest).filter p, c.value < d.value := by
        intro d hd
        rcases List.mem_cons.1 (List.mem_filter.1 hd).1 with rfl | hd
        · exact hbefore
        · exact hbefore.trans (hfirst d hd)
      rw [insertSorted_of_lt hall, List.filter_cons]
    · rename_i hbefore
      split
      · -- It takes the place of one that is dropped or not as it is.
        rename_i heq
        rw [List.filter_cons, List.filter_cons, hp c first heq]
        split
        · rw [insertSorted, if_neg hbefore, if_pos heq]
        · rfl
      · rename_i hne
        rw [List.filter_cons, List.filter_cons, ih]
        split
        · split
          · rw [insertSorted, if_neg hbefore, if_neg hne]
          · rfl
        · rfl

/-- **Dropping candidates by their values** may be done before sorting or after it. -/
theorem filter_sorted (cs : List Candidate) : (sorted cs).filter p = sorted (cs.filter p) := by
  induction cs with
  | nil => rfl
  | cons first rest ih =>
    have hincreasing : (sorted rest).Pairwise (·.value < ·.value) := by
      have hvalues := Text.pairwise_sorted (rest.map value)
      rwa [← map_value_sorted, List.pairwise_map] at hvalues
    show (insertSorted first (sorted rest)).filter p = _
    rw [filter_insertSorted hp hincreasing, ih, List.filter_cons]
    split
    · rfl
    · rfl

end Filter

/-- Narrowing sorted candidates: those that begin with a stub are sorted from such that do. -/
theorem filter_startsWith_sorted (stub : Text) (cs : List Candidate) :
    ((sorted cs).filter fun c => Text.startsWith stub c.value)
      = sorted (cs.filter fun c => Text.startsWith stub c.value) :=
  filter_sorted (fun c d heq => by rw [heq]) cs

theorem mem_value_of_mem_sorted {c : Candidate} {cs : List Candidate} (h : c ∈ sorted cs) :
    ∃ d ∈ cs, d.value = c.value := by
  have hvalue : c.value ∈ (sorted cs).map value := List.mem_map_of_mem h
  rw [map_value_sorted, Text.mem_sorted] at hvalue
  exact List.mem_map.1 hvalue

theorem pairwise_value_sorted (cs : List Candidate) :
    ((sorted cs).map value).Pairwise (· < ·) := by
  rw [map_value_sorted]
  exact Text.pairwise_sorted _

end Candidate

namespace Path

/-! ### The directory of a stub -/

theorem not_mem_splitLast (path : Text) : '/' ∉ (splitLast path).2 := by
  intro h
  have hpiece := List.all_eq_true.1 List.all_takeWhile '/' (List.mem_reverse.1 h)
  exact absurd hpiece (by decide)

/-- A stub that grows without a slash stays in its directory. -/
theorem splitLast_append_of_not_mem {s : Text} (h : '/' ∉ s) (path : Text) :
    splitLast (path ++ s) = ((splitLast path).1, (splitLast path).2 ++ s) := by
  have hs : ∀ c ∈ s.reverse, (c != '/') = true := by
    intro c hc
    rw [bne_iff_ne]
    rintro rfl
    exact h (List.mem_reverse.1 hc)
  unfold splitLast
  rw [List.reverse_append, List.dropWhile_append_of_pos hs, List.takeWhile_append_of_pos hs,
    List.reverse_append, List.reverse_reverse]

end Path

namespace Provider

/-! ### Paths -/

/-- **Hidden names.** A name is offered for a longer stub if it is offered for the shorter one and
begins with the longer one, unless the first character to be typed is the dot that hides it. -/
theorem offersName_append {base s : Text} (h : base ≠ [] ∨ s.head? ≠ some '.') (name : Text) :
    offersName (base ++ s) name = (Text.startsWith (base ++ s) name && offersName base name) := by
  have hdot : ((base ++ s).head? != some '.') = (base.head? != some '.') := by
    cases base with
    | cons c base => rfl
    | nil =>
      have hs : s.head? ≠ some '.' := h.resolve_left (fun hne => hne rfl)
      rw [List.nil_append, bne_iff_ne.2 hs]
      rfl
  unfold offersName
  rw [hdot, ← Bool.and_assoc, Text.startsWith_and_startsWith]

/-- A directory entry begins with a part of its directory if its name does. -/
theorem startsWith_entryCandidate {piece : Text} (h : '/' ∉ piece) (folder : Text)
    (entry : Text × FileTree) :
    Text.startsWith (folder ++ piece) (entryCandidate folder entry).value
      = Text.startsWith piece entry.1 := by
  unfold entryCandidate
  split
  · show Text.startsWith (folder ++ piece) (folder ++ entry.1 ++ ['/']) = _
    rw [List.append_assoc, Text.startsWith_append_append, Text.startsWith_concat h]
  · exact Text.startsWith_append_append folder piece entry.1

section Paths

variable (files : FileSystem) (directoriesOnly : Bool) (root : Option Text)

theorem completePaths_eq (stub : Text) :
    completePaths files directoriesOnly root stub
      = match files.list? (searchFolder root (Path.splitLast stub).1) with
        | none => []
        | some entries =>
          Candidate.sorted ((entries.filter fun entry =>
            offersName (Path.splitLast stub).2 entry.1
              && (!directoriesOnly || entry.2.isDirectory)).map
                (entryCandidate (Path.splitLast stub).1)) := rfl

/-- Paths for a longer stub in the same directory. -/
theorem completePaths_append {stub s : Text} (hs : '/' ∉ s)
    (hhidden : (Path.splitLast stub).2 ≠ [] ∨ s.head? ≠ some '.') :
    completePaths files directoriesOnly root (stub ++ s)
      = (completePaths files directoriesOnly root stub).filter fun c =>
          Text.startsWith (stub ++ s) c.value := by
  have hpiece : '/' ∉ (Path.splitLast stub).2 ++ s := by
    rw [List.mem_append, not_or]
    exact ⟨Path.not_mem_splitLast stub, hs⟩
  have hstub : stub ++ s = (Path.splitLast stub).1 ++ ((Path.splitLast stub).2 ++ s) := by
    rw [← List.append_assoc, Path.splitLast_append]
  rw [completePaths_eq, completePaths_eq, Path.splitLast_append_of_not_mem hs]
  dsimp only
  cases files.list? (searchFolder root (Path.splitLast stub).1) with
  | none => rfl
  | some entries =>
    dsimp only
    rw [Candidate.filter_startsWith_sorted, List.filter_map, List.filter_filter]
    congr 2
    refine List.filter_congr fun entry _ => ?_
    rw [offersName_append hhidden, Function.comp_apply, hstub, startsWith_entryCandidate hpiece,
      Bool.and_assoc]

theorem startsWith_of_mem_completePaths {stub : Text} {c : Candidate}
    (h : c ∈ completePaths files directoriesOnly root stub) : stub <+: c.value := by
  rw [completePaths_eq] at h
  split at h
  · exact absurd h List.not_mem_nil
  · obtain ⟨d, hd, hvalue⟩ := Candidate.mem_value_of_mem_sorted h
    obtain ⟨entry, hentry, rfl⟩ := List.mem_map.1 hd
    have hoffered := (List.mem_filter.1 hentry).2
    unfold offersName at hoffered
    rw [Bool.and_assoc, Bool.and_eq_true] at hoffered
    have hstarts := startsWith_entryCandidate (Path.not_mem_splitLast stub)
      (Path.splitLast stub).1 entry
    rw [Path.splitLast_append, hoffered.1, hvalue] at hstarts
    exact Text.startsWith_iff.1 hstarts

theorem increasing_completePaths (stub : Text) :
    ((completePaths files directoriesOnly root stub).map Candidate.value).Pairwise (· < ·) := by
  rw [completePaths_eq]
  split
  · exact List.Pairwise.nil
  · exact Candidate.pairwise_value_sorted _

end Paths

/-! ### Names -/

/-- The candidates for names that are offered as they stand. -/
def completeNames (names : List Text) (stub : Text) : List Candidate :=
  Candidate.sorted ((names.filter (Text.startsWith stub)).map fun name => ⟨name, none, none⟩)

section Names

variable (names : List Text)

/-- Names for a longer stub. -/
theorem completeNames_append (stub s : Text) :
    completeNames names (stub ++ s)
      = (completeNames names stub).filter fun c => Text.startsWith (stub ++ s) c.value := by
  rw [completeNames, completeNames, Candidate.filter_startsWith_sorted, List.filter_map,
    List.filter_filter]
  congr 2
  exact List.filter_congr fun name _ => (Text.startsWith_and_startsWith stub s name).symm

theorem startsWith_of_mem_completeNames {stub : Text} {c : Candidate}
    (h : c ∈ completeNames names stub) : stub <+: c.value := by
  obtain ⟨d, hd, hvalue⟩ := Candidate.mem_value_of_mem_sorted h
  obtain ⟨name, hname, rfl⟩ := List.mem_map.1 hd
  rw [← hvalue]
  exact Text.startsWith_iff.1 (List.mem_filter.1 hname).2

theorem increasing_completeNames (stub : Text) :
    ((completeNames names stub).map Candidate.value).Pairwise (· < ·) :=
  Candidate.pairwise_value_sorted _

end Names

def accountNames (files : FileSystem) (database : Text) : List Text :=
  match files.readText? database with
  | none => []
  | some raw => (Text.lines raw).filterMap accountName?

theorem completeAccounts_eq (files : FileSystem) (database stub : Text) :
    completeAccounts files database stub = completeNames (accountNames files database) stub := by
  unfold completeAccounts accountNames
  cases files.readText? database with
  | none => rfl
  | some raw => rfl

def commandNames (files : FileSystem) (directories : List Text) : List Text :=
  (directories.flatMap fun directory =>
    ((files.list? directory).getD []).filter fun entry => entry.2.isExecutable).map Prod.fst

theorem completeCommands_eq (files : FileSystem) (directories : List Text) (stub : Text) :
    completeCommands files directories stub
      = if stub.contains '/' then completePaths files false none stub
        else completeNames (commandNames files directories) stub := by
  unfold completeCommands completeNames commandNames
  rw [List.filter_map, List.filter_flatMap, List.map_map]
  simp only [List.filter_filter, Function.comp_def]

/-! ### Every provider -/

/-- Whether a provider completes a stub as a path. -/
def completesPath (stub : Text) : Provider → Bool
  | paths _ _ => true
  | commands _ => stub.contains '/'
  | _ => false

variable (host : Host) (provider : Provider) (stub : Text)

/-- **Candidates begin with their stub.** -/
theorem startsWith_of_mem_complete {c : Candidate} (h : c ∈ provider.complete host stub) :
    stub <+: c.value := by
  cases provider with
  | listed candidates => exact Text.startsWith_iff.1 (List.mem_filter.1 h).2
  | paths directoriesOnly root => exact startsWith_of_mem_completePaths _ _ _ h
  | accounts kind database =>
    change c ∈ completeAccounts host.files database stub at h
    rw [completeAccounts_eq] at h
    exact startsWith_of_mem_completeNames _ h
  | commands directories =>
    change c ∈ completeCommands host.files (directories.getD host.searchPath) stub at h
    rw [completeCommands_eq] at h
    split at h
    · exact startsWith_of_mem_completePaths _ _ _ h
    · exact startsWith_of_mem_completeNames _ h
  | nothing => exact absurd h List.not_mem_nil

/-- **Candidates are in increasing order**, unless they were given as a list. -/
theorem increasing_complete (h : ∀ candidates, provider ≠ listed candidates) :
    ((provider.complete host stub).map Candidate.value).Pairwise (· < ·) := by
  cases provider with
  | listed candidates => exact absurd rfl (h candidates)
  | paths directoriesOnly root => exact increasing_completePaths _ _ _ _
  | accounts kind database =>
    show ((completeAccounts host.files database stub).map Candidate.value).Pairwise _
    rw [completeAccounts_eq]
    exact increasing_completeNames _ _
  | commands directories =>
    show ((completeCommands host.files (directories.getD host.searchPath) stub).map
      Candidate.value).Pairwise _
    rw [completeCommands_eq]
    split
    · exact increasing_completePaths _ _ _ _
    · exact increasing_completeNames _ _
  | nothing => exact List.Pairwise.nil

/-- **A longer stub keeps those candidates that begin with it.** -/
theorem complete_append {s : Text} (hs : '/' ∉ s)
    (hhidden : provider.completesPath stub = true →
      (Path.splitLast stub).2 ≠ [] ∨ s.head? ≠ some '.') :
    provider.complete host (stub ++ s)
      = (provider.complete host stub).filter fun c => Text.startsWith (stub ++ s) c.value := by
  cases provider with
  | listed candidates =>
    show candidates.filter _ = (candidates.filter _).filter _
    rw [List.filter_filter]
    exact List.filter_congr fun c _ => (Text.startsWith_and_startsWith stub s c.value).symm
  | paths directoriesOnly root => exact completePaths_append _ _ _ hs (hhidden rfl)
  | accounts kind database =>
    show completeAccounts host.files database (stub ++ s)
      = (completeAccounts host.files database stub).filter _
    rw [completeAccounts_eq, completeAccounts_eq]
    exact completeNames_append _ stub s
  | commands directories =>
    show completeCommands host.files (directories.getD host.searchPath) (stub ++ s)
      = (completeCommands host.files (directories.getD host.searchPath) stub).filter _
    have hslash : (stub ++ s).contains '/' = stub.contains '/' := by
      rw [List.contains_append, List.contains_eq_mem '/' s, decide_eq_false hs, Bool.or_false]
    rw [completeCommands_eq, completeCommands_eq, hslash]
    split
    · rename_i hpath
      exact completePaths_append _ _ _ hs (hhidden hpath)
    · exact completeNames_append _ stub s
  | nothing => rfl

/-- **Providers narrow by prefix.** Whatever the files and the working directory are, every candidate
begins with the stub it is for; paths, accounts and commands come in increasing order, each once;
and for a stub that grows without a slash the candidates are those for the shorter stub that begin
with the longer one, in the same order. Where paths are completed, the longer stub must not be the
first to have the dot of a hidden name. -/
theorem complete_narrows :
    (∀ c ∈ provider.complete host stub, stub <+: c.value) ∧
    ((∀ candidates, provider ≠ listed candidates) →
      ((provider.complete host stub).map Candidate.value).Pairwise (· < ·)) ∧
    ∀ s : Text, '/' ∉ s →
      (provider.completesPath stub = true →
        (Path.splitLast stub).2 ≠ [] ∨ s.head? ≠ some '.') →
      provider.complete host (stub ++ s)
        = (provider.complete host stub).filter fun c => Text.startsWith (stub ++ s) c.value :=
  ⟨fun _ => startsWith_of_mem_complete host provider stub, increasing_complete host provider stub,
    fun _ => complete_append host provider stub⟩

/-- Accounts of two users, and beside the working directory a directory where a hidden file, a
directory and two files have names that begin alike. -/
def sampleHost : Host :=
  { files := {
      root := .directory [
        ("etc".toList, .directory [("passwd".toList, .file (Utf8.encode "root:x\nrat:y".toList) false)]),
        ("src".toList, .directory [("main".toList, .file [] false), (".mark".toList, .file [] false),
          ("make".toList, .directory [])]),
        ("work".toList, .directory [])],
      directory := ["work".toList] },
    searchPath := [] }

theorem complete_narrows_sample :
    (∀ candidates, Provider.files ≠ listed candidates) ∧
      ((Provider.files.complete sampleHost "/src/".toList).map Candidate.value).Pairwise (· < ·) ∧
      '/' ∉ "ma".toList ∧
      Provider.files.complete sampleHost "/src/ma".toList
        = (Provider.files.complete sampleHost "/src/".toList).filter fun c =>
            Text.startsWith "/src/ma".toList c.value := by
  have hlisted : ∀ candidates, Provider.files ≠ listed candidates := fun _ h => nomatch h
  have hslash : '/' ∉ "ma".toList := by decide
  obtain ⟨-, hincreasing, hnarrow⟩ := complete_narrows sampleHost .files "/src/".toList
  exact ⟨hlisted, hincreasing hlisted, hslash,
    hnarrow "ma".toList hslash fun _ => Or.inr (by decide)⟩

example : (Provider.files.complete sampleHost "/src/ma".toList).map Candidate.value
    = ["/src/main".toList, "/src/make/".toList] := by decide
example : (Provider.directories.complete sampleHost "../src/".toList).map Candidate.value
    = ["../src/make/".toList] := by decide
example : (Provider.users.complete sampleHost "r".toList).map Candidate.value
    = ["rat".toList, "root".toList] := by decide +kernel

end Provider

end CommandGrammar
