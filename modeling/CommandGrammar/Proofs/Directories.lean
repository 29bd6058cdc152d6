import Mathlib.Data.Char
import Mathlib.Data.List.Lex
import Mathlib.Data.List.Nodup
import Mathlib.Data.List.Sort
import CommandGrammar.Files.System

/-!
# The entries of a directory

A path is followed part by part, so the entry of a directory is found by the path of the directory
joined with its name; and a list of names has only one increasing order, in which each stands once.

* `Text.sorted_eq_of_mem_iff`: sorting forgets order and copies;
* `Path.extension?_eq_some_iff`: the extension of a file name;
* `Path.parts_join`, `Path.extension?_join`: what joining does to the parts of a path, and to its
  extension;
* `FileSystem.find?_join`: the entries of a directory are found by their names.
-/

namespace CommandGrammar

/-- Where no key stands twice, searching for a key finds its entry. -/
theorem find?_fst_of_nodup {κ ν : Type} [BEq κ] [LawfulBEq κ] {entries : List (κ × ν)}
    (h : (entries.map Prod.fst).Nodup) {key : κ} {value : ν} (hmem : (key, value) ∈ entries) :
    entries.find? (fun e => e.1 == key) = some (key, value) := by
  induction entries with
  | nil => exact absurd hmem List.not_mem_nil
  | cons e rest ih =>
    rw [List.map_cons, List.nodup_cons] at h
    rcases List.mem_cons.1 hmem with rfl | hrest
    · exact List.find?_cons_of_pos (beq_self_eq_true key)
    · have hne : e.1 ≠ key := fun heq =>
        h.1 (heq ▸ List.mem_map_of_mem (f := Prod.fst) hrest)
      rw [List.find?_cons_of_neg (by simpa using hne)]
      exact ih h.2 hrest

namespace Text

/-! ### Increasing order -/

theorem before_iff_lt {a b : Text} : before a b = true ↔ a < b := by
  fun_induction before a b with
  | case1 => simp
  | case2 => simp
  | case3 => simp
  | case4 x xs y ys hlt =>
    rw [List.cons_lt_cons_iff]
    exact iff_of_true rfl (Or.inl hlt)
  | case5 x xs ys hirrefl ih =>
    rw [ih, List.cons_lt_cons_iff]
    simp
  | case6 x xs y ys hlt hne =>
    rw [List.cons_lt_cons_iff]
    refine iff_of_false (by simp) ?_
    rintro (h | h)
    · exact hlt h
    · exact hne h.1

theorem mem_insertSorted {item other : Text} {items : List Text} :
    other ∈ insertSorted item items ↔ other = item ∨ other ∈ items := by
  induction items with
  | nil => simp [insertSorted]
  | cons first rest ih =>
    unfold insertSorted
    split
    · exact List.mem_cons
    · split
      · rename_i heq
        simp [heq]
      · rw [List.mem_cons, ih, List.mem_cons]
        exact or_left_comm

theorem mem_sorted {item : Text} {items : List Text} : item ∈ sorted items ↔ item ∈ items := by
  induction items with
  | nil => rfl
  | cons first rest ih =>
    show item ∈ insertSorted first (sorted rest) ↔ _
    rw [mem_insertSorted, ih, List.mem_cons]

theorem pairwise_insertSorted {items : List Text} (h : items.Pairwise (· < ·)) (item : Text) :
    (insertSorted item items).Pairwise (· < ·) := by
  induction h with
  | nil => exact List.pairwise_singleton _ _
  | @cons first rest hfirst hrest ih =>
    unfold insertSorted
    split
    · rename_i hbefore
      rw [before_iff_lt] at hbefore
      refine .cons (fun other hother => ?_) (.cons hfirst hrest)
      rcases List.mem_cons.1 hother with rfl | hother
      · exact hbefore
      · exact hbefore.trans (hfirst other hother)
    · rename_i hbefore
      rw [before_iff_lt] at hbefore
      split
      · exact .cons hfirst hrest
      · rename_i hne
        refine .cons (fun other hother => ?_) ih
        rcases mem_insertSorted.1 hother with rfl | hother
        · exact lt_of_le_of_ne (not_lt.1 hbefore) (Ne.symm hne)
        · exact hfirst other hother

theorem pairwise_sorted (items : List Text) : (sorted items).Pairwise (· < ·) := by
  induction items with
  | nil => exact List.Pairwise.nil
  | cons first rest ih => exact pairwise_insertSorted ih first

/-- Sorting forgets in what order and how often the items stood. -/
theorem sorted_eq_of_mem_iff {items items' : List Text} (h : ∀ item, item ∈ items ↔ item ∈ items') :
    sorted items = sorted items' :=
  (pairwise_sorted items).eq_of_mem_iff (pairwise_sorted items') fun item => by
    rw [mem_sorted, mem_sorted, h]

/-! ### Cutting -/

theorem splitWhere_ne_nil (p : Char → Bool) (text : Text) : splitWhere p text ≠ [] := by
  cases text with
  | nil => exact List.cons_ne_nil _ _
  | cons c cs =>
    rw [splitWhere]
    split
    · exact List.cons_ne_nil _ _
    · split <;> exact List.cons_ne_nil _ _

/-- A text is cut on both sides of a cut apart. -/
theorem splitWhere_append_cons {p : Char → Bool} {stop : Char} (hstop : p stop = true)
    (left right : Text) :
    splitWhere p (left ++ stop :: right) = splitWhere p left ++ splitWhere p right := by
  induction left with
  | nil =>
    show splitWhere p (stop :: right) = [] :: splitWhere p right
    rw [splitWhere, if_pos hstop]
  | cons c cs ih =>
    rw [List.cons_append, splitWhere, splitWhere, ih]
    split
    · rfl
    · cases hsplit : splitWhere p cs with
      | nil => exact absurd hsplit (splitWhere_ne_nil p cs)
      | cons piece pieces => rfl

end Text

namespace Path

/-! ### Extensions -/

theorem take_before_dot (stem extension : Text) :
    (stem ++ '.' :: extension).take
      ((stem ++ '.' :: extension).length - extension.length - 1) = stem := by
  have hlength : (stem ++ '.' :: extension).length - extension.length - 1 = stem.length := by
    rw [List.length_append, List.length_cons]
    omega
  rw [hlength, List.take_left]

/-- The extension of a file name follows its last dot, which has something before it. -/
theorem extension?_eq_some_iff {name extension : Text} (h : fileName? name = some name) :
    extension? name = some extension ↔
      ∃ stem, stem ≠ [] ∧ name = stem ++ '.' :: extension ∧ '.' ∉ extension := by
  unfold extension?
  rw [h]
  dsimp only
  constructor
  · intro hextension
    split at hextension
    · rename_i hstem
      obtain rfl := Option.some.inj hextension
      rw [Bool.and_eq_true, decide_eq_true_eq, bne_iff_ne, List.length_reverse] at hstem
      have hsplit := List.takeWhile_append_dropWhile (p := (· != '.')) (l := name.reverse)
      cases hdrop : name.reverse.dropWhile (· != '.') with
      | nil =>
        rw [hdrop, List.append_nil] at hsplit
        rw [hsplit, List.length_reverse] at hstem
        exact absurd hstem.1 (Nat.lt_irrefl _)
      | cons c rest =>
        obtain ⟨-, -, -, hdot⟩ := Text.exists_of_dropWhile_eq_cons hdrop
        obtain rfl : c = '.' := by simpa using hdot
        have hname : name
            = rest.reverse ++ '.' :: (name.reverse.takeWhile (· != '.')).reverse := by
          rw [hdrop] at hsplit
          have hreverse := congrArg List.reverse hsplit
          rw [List.reverse_append, List.reverse_reverse, List.reverse_cons, List.append_assoc]
            at hreverse
          exact hreverse.symm
        refine ⟨rest.reverse, ?_, hname, ?_⟩
        · have htake := take_before_dot rest.reverse (name.reverse.takeWhile (· != '.')).reverse
          rw [← hname, List.length_reverse] at htake
          rw [← htake]
          exact hstem.2
        · intro hmem
          simpa using List.all_eq_true.1 List.all_takeWhile _ (List.mem_reverse.1 hmem)
    · cases hextension
  · rintro ⟨stem, hstem, rfl, hdot⟩
    have htail : (stem ++ '.' :: extension).reverse.takeWhile (· != '.') = extension.reverse := by
      rw [List.reverse_append, List.reverse_cons, List.append_assoc]
      refine (Text.takeWhile_dropWhile_append (fun c hc => ?_) fun c hc => ?_).1
      · rw [bne_iff_ne]
        rintro rfl
        exact hdot (List.mem_reverse.1 hc)
      · obtain rfl : '.' = c := Option.some.inj hc
        rfl
    rw [htail, List.reverse_reverse, take_before_dot]
    refine if_pos ?_
    rw [Bool.and_eq_true, decide_eq_true_eq, bne_iff_ne, List.length_append, List.length_cons]
    exact ⟨by omega, hstem⟩

/-! ### Joined paths -/

variable {directory name : Text}

theorem parts_append_slash (left right : Text) :
    parts (left ++ '/' :: right) = parts left ++ parts right := by
  unfold parts
  rw [Text.splitWhere_append_cons (by rfl), List.filter_append]

theorem isAbsolute_of_fileName? (h : fileName? name = some name) : isAbsolute name = false := by
  have hself : name ∈ Text.splitWhere (· == '/') name := by
    rw [(splitWhere_of_fileName? h).1]
    exact List.mem_singleton.2 rfl
  have hslash := Text.forall_mem_of_mem_splitWhere name hself
  cases name with
  | nil => rfl
  | cons c cs => simpa [isAbsolute] using hslash c List.mem_cons_self

/-- The path of an entry of a directory: the name follows a slash. -/
theorem exists_join_eq (hdirectory : directory ≠ []) (h : fileName? name = some name) :
    ∃ above, join directory name = above ++ '/' :: name ∧ parts above = parts directory := by
  unfold join
  rw [isAbsolute_of_fileName? h, List.isEmpty_eq_false_iff.2 hdirectory]
  simp only [Bool.or_self, Bool.false_eq_true, if_false]
  split
  · rename_i hlast
    obtain ⟨above, rfl⟩ := List.getLast?_eq_some_iff.1 hlast
    refine ⟨above, by simp, ?_⟩
    rw [parts_append_slash]
    exact (List.append_nil _).symm
  · exact ⟨directory, by simp, rfl⟩

theorem parts_join (hdirectory : directory ≠ []) (h : fileName? name = some name) :
    parts (join directory name) = parts directory ++ [name] := by
  obtain ⟨above, hjoin, habove⟩ := exists_join_eq hdirectory h
  rw [hjoin, parts_append_slash, habove, parts_of_fileName? h]

theorem fileName?_join (hdirectory : directory ≠ []) (h : fileName? name = some name) :
    fileName? (join directory name) = some name := by
  unfold fileName?
  rw [parts_join hdirectory h, List.getLast?_concat]
  exact if_neg (splitWhere_of_fileName? h).2.2.2

/-- The extension of an entry is that of its name. -/
theorem extension?_join (hdirectory : directory ≠ []) (h : fileName? name = some name) :
    extension? (join directory name) = extension? name := by
  unfold extension?
  rw [fileName?_join hdirectory h, h]

/-- The path of an entry does not ask for a directory. -/
theorem namesDirectory_join (hdirectory : directory ≠ []) (h : fileName? name = some name) :
    namesDirectory (join directory name) = false := by
  obtain ⟨above, hjoin, -⟩ := exists_join_eq hdirectory h
  obtain ⟨hsplit, hempty, hdot, hup⟩ := splitWhere_of_fileName? h
  unfold namesDirectory
  rw [hjoin, Text.splitWhere_append_cons (by rfl), hsplit, List.getLast?_concat]
  simp [hempty, hdot, hup]

theorem isAbsolute_join (hdirectory : directory ≠ []) (h : fileName? name = some name) :
    isAbsolute (join directory name) = isAbsolute directory := by
  unfold join
  rw [isAbsolute_of_fileName? h, List.isEmpty_eq_false_iff.2 hdirectory]
  obtain ⟨c, cs, rfl⟩ := List.exists_cons_of_ne_nil hdirectory
  simp only [Bool.or_self, Bool.false_eq_true, if_false]
  split <;> rfl

end Path

namespace FileTree

/-! ### Entries -/

/-- The names of the entries of a directory are file names, and no two of them are the same. -/
structure Orderly (entries : List (Text × FileTree)) : Prop where
  names : ∀ e ∈ entries, Path.fileName? e.1 = some e.1
  nodup : (entries.map Prod.fst).Nodup

instance (entries : List (Text × FileTree)) : Decidable (Orderly entries) :=
  decidable_of_iff ((∀ e ∈ entries, Path.fileName? e.1 = some e.1) ∧ (entries.map Prod.fst).Nodup)
    ⟨fun h => ⟨h.1, h.2⟩, fun h => ⟨h.names, h.nodup⟩⟩

theorem child?_of_mem {entries : List (Text × FileTree)} (h : Orderly entries) {name : Text}
    {node : FileTree} (hmem : (name, node) ∈ entries) :
    (directory entries).child? name = some node := by
  show (entries.find? fun e => e.1 == name).map Prod.snd = some node
  rw [find?_fst_of_nodup h.nodup hmem]
  rfl

/-- Following parts goes on where following the first ones has led. -/
theorem exists_follow?_append {parts : List Text} :
    ∀ {above : List FileTree} {node next : FileTree}, follow? above node parts = some next →
      ∃ passed, ∀ more, follow? above node (parts ++ more) = follow? passed next more := by
  induction parts with
  | nil =>
    intro above node next h
    rw [follow?] at h
    obtain rfl := Option.some.inj h
    exact ⟨above, fun _ => rfl⟩
  | cons part parts ih =>
    intro above node next h
    simp only [List.cons_append, follow?] at h ⊢
    cases hdirectory : node.isDirectory with
    | false => simp [hdirectory] at h
    | true =>
      simp only [hdirectory, Bool.not_true, Bool.false_eq_true, if_false] at h ⊢
      split at h
      · rename_i hup
        simp only [if_pos hup]
        cases above with
        | nil => exact ih h
        | cons parent above => exact ih h
      · rename_i hup
        simp only [if_neg hup]
        cases hchild : node.child? part with
        | none => simp [hchild] at h
        | some child =>
          rw [hchild] at h
          exact ih h

end FileTree

namespace FileSystem

variable {files : FileSystem} {path : Text} {entries : List (Text × FileTree)}

/-- What leads to the entries of a directory. -/
theorem follow?_of_list? (h : files.list? path = some entries) :
    path ≠ [] ∧ files.root.follow? [] (files.parts path) = some (.directory entries) := by
  have hfound : files.find? path = some (.directory entries) := by
    unfold list? at h
    split at h
    · rename_i found hfound
      obtain rfl := Option.some.inj h
      exact hfound
    · exact absurd h (by simp)
  unfold find? at hfound
  split at hfound
  · exact absurd hfound (by simp)
  · rename_i hpath
    refine ⟨fun hempty => hpath (List.isEmpty_iff.2 hempty), ?_⟩
    split at hfound
    · rename_i hfollow
      split at hfound
      · exact absurd hfound (by simp)
      · rw [hfollow, hfound]
    · exact absurd hfound (by simp)

/-- An entry of a directory has one more part than the directory, its name. -/
theorem parts_join (hpath : path ≠ []) {name : Text} (h : Path.fileName? name = some name) :
    files.parts (Path.join path name) = files.parts path ++ [name] := by
  unfold parts
  rw [Path.isAbsolute_join hpath h, Path.parts_join hpath h]
  split
  · rfl
  · exact (List.append_assoc _ _ _).symm

/-- The entries of a directory are found by their names. -/
theorem find?_join (h : files.list? path = some entries) (horderly : FileTree.Orderly entries)
    {name : Text} {node : FileTree} (hmem : (name, node) ∈ entries) :
    files.find? (Path.join path name) = some node := by
  have hname := horderly.names _ hmem
  obtain ⟨hpath, hfollow⟩ := follow?_of_list? h
  obtain ⟨passed, hmore⟩ := FileTree.exists_follow?_append hfollow
  have hchild : files.root.follow? [] (files.parts (Path.join path name)) = some node := by
    rw [parts_join hpath hname, hmore [name]]
    simp [FileTree.follow?, FileTree.isDirectory, (Path.splitWhere_of_fileName? hname).2.2.2,
      FileTree.child?_of_mem horderly hmem]
  have hjoined : Path.join path name ≠ [] := by
    obtain ⟨above, hjoin, -⟩ := Path.exists_join_eq hpath hname
    simp [hjoin]
  unfold find?
  rw [List.isEmpty_eq_false_iff.2 hjoined, hchild, Path.namesDirectory_join hpath hname]
  rfl

end FileSystem

end CommandGrammar
