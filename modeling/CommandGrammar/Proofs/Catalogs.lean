import CommandGrammar.Proofs.Directories
import CommandGrammar.Proofs.Registry

/-!
# The catalog of a directory

The documents of a directory are told by their names. Read in the order of the names, the last one
for each program stays in the catalog, and the catalog has one grammar for each program.

* `isSome_ofPath?_iff`: which files are documents;
* `GrammarDocument.load_entry`: a document is read from the entry of its directory;
* `Gathers.insert`, `Gathers.foldlM`: what a catalog holds after some files, in their order;
* `Catalog.gathers_of_load`: what the catalog of a directory holds;
* `Catalog.compile_ok`, `Catalog.exists_of_compile_error`: the grammars of a catalog, and what
  fails.
-/

namespace CommandGrammar

theorem GrammarDocument.program_of_compile {embeddings : List (Text × Embedding)}
    {d : GrammarDocument} {g : Grammar} (h : d.compile embeddings = .ok g) :
    g.program = d.program := by
  obtain ⟨guesses, -, h⟩ := bind_eq_ok_iff.1 h
  exact program_of_compileGrammar h

/-! ### The documents of a directory -/

def FileTree.text? : FileTree → Option Text
  | file bytes _ => Utf8.decode? bytes
  | directory _ => none

def documentExtensions : List Text := ["yaml".toList, "yml".toList, "json".toList]

/-- Whether a file name is that of a document: one of the extensions and a dot stand behind
something. -/
def IsDocumentName (name : Text) : Prop :=
  ∃ extension ∈ documentExtensions, '.' :: extension <:+ name ∧ '.' :: extension ≠ name

instance (name : Text) : Decidable (IsDocumentName name) :=
  inferInstanceAs (Decidable (∃ extension ∈ documentExtensions, _ ∧ _))

/-- The files of a directory that are documents by their names. -/
def documentFiles (entries : List (Text × FileTree)) : List (Text × FileTree) :=
  entries.filter fun e => !e.2.isDirectory && decide (IsDocumentName e.1)

theorem isDocumentName_iff {name : Text} (h : Path.fileName? name = some name) :
    IsDocumentName name ↔
      ∃ extension ∈ documentExtensions, Path.extension? name = some extension := by
  constructor
  · rintro ⟨extension, hextension, ⟨stem, rfl⟩, hne⟩
    have hdots : ∀ extension ∈ documentExtensions, '.' ∉ extension := by decide
    refine ⟨extension, hextension, (Path.extension?_eq_some_iff h).2
      ⟨stem, ?_, rfl, hdots extension hextension⟩⟩
    rintro rfl
    exact hne rfl
  · rintro ⟨extension, hextension, heq⟩
    obtain ⟨stem, hstem, rfl, -⟩ := (Path.extension?_eq_some_iff h).1 heq
    exact ⟨extension, hextension, ⟨stem, rfl⟩, by simp [hstem]⟩

/-- The form of a document is told by its name, and only documents have one. -/
theorem isSome_ofPath?_iff {name : Text} (h : Path.fileName? name = some name) :
    (DocumentFormat.ofPath? name).isSome ↔ IsDocumentName name := by
  rw [isDocumentName_iff h]
  unfold DocumentFormat.ofPath? documentExtensions
  cases Path.extension? name with
  | none => simp
  | some extension =>
    simp only [Option.some.injEq, exists_eq_right', List.mem_cons, List.not_mem_nil, or_false]
    split
    · rename_i hyaml
      rw [Bool.or_eq_true, decide_eq_true_eq, decide_eq_true_eq] at hyaml
      exact iff_of_true rfl (hyaml.imp_right Or.inl)
    · rename_i hyaml
      rw [Bool.or_eq_true, decide_eq_true_eq, decide_eq_true_eq, not_or] at hyaml
      split
      · rename_i hjson
        exact iff_of_true rfl (Or.inr (Or.inr hjson))
      · rename_i hjson
        exact iff_of_false (by simp) (by simp only [hyaml, hjson, or_self, not_false_eq_true])

/-- Whether a document of a directory has a text. -/
def HasText (entries : List (Text × FileTree)) (name text : Text) : Prop :=
  ∃ node, (name, node) ∈ documentFiles entries ∧ node.text? = some text

/-- Whether all documents of a directory have a text. -/
def AllReadable (entries : List (Text × FileTree)) : Prop :=
  ∀ e ∈ documentFiles entries, e.2.text?.isSome

instance (entries : List (Text × FileTree)) : Decidable (AllReadable entries) :=
  inferInstanceAs (Decidable (∀ e ∈ documentFiles entries, e.2.text?.isSome))

/-- Whether a file of a directory is a document that declares something. -/
def Declares (entries : List (Text × FileTree)) (name : Text) (d : GrammarDocument) : Prop :=
  ∃ text, HasText entries name text ∧ GrammarDocument.ofFile name text = .ok d

/-- Whether a document is the one that counts for its program, being in the last file for it. -/
def Survives (entries : List (Text × FileTree)) (name : Text) (d : GrammarDocument) : Prop :=
  Declares entries name d ∧ ∀ name' d', Declares entries name' d' → d'.program = d.program →
    name' = name ∨ Text.before name' name = true

section Entries

variable {files : FileSystem} {directory : Text} {entries : List (Text × FileTree)}
  (hlist : files.list? directory = some entries) (horderly : FileTree.Orderly entries)

include hlist horderly

/-- A document is read from the entry of its directory. -/
theorem GrammarDocument.load_entry {name text : Text} (h : HasText entries name text) :
    load files (Path.join directory name)
      = (ofFile name text).mapError (.document (Path.join directory name)) := by
  obtain ⟨node, hdocument, htext⟩ := h
  obtain ⟨hmem, hkind⟩ := List.mem_filter.1 hdocument
  rw [Bool.and_eq_true, decide_eq_true_eq, ← isSome_ofPath?_iff (horderly.names _ hmem),
    Option.isSome_iff_exists] at hkind
  obtain ⟨-, format, hformat⟩ := hkind
  have hread : files.readText? (Path.join directory name) = some text := by
    unfold FileSystem.readText? FileSystem.read?
    rw [FileSystem.find?_join hlist horderly hmem]
    cases node with
    | file bytes executable => exact htext
    | directory entries => cases htext
  have hjoined : DocumentFormat.ofPath? (Path.join directory name) = some format := by
    rw [← hformat]
    unfold DocumentFormat.ofPath?
    rw [Path.extension?_join (FileSystem.follow?_of_list? hlist).1 (horderly.names _ hmem)]
  unfold load ofFile
  rw [hread, hjoined, hformat]
  cases format <;> rfl

/-- What a document declares is what is loaded from its path. -/
theorem declares_iff (hreadable : AllReadable entries) {name : Text} {d : GrammarDocument} :
    Declares entries name d ↔ name ∈ (documentFiles entries).map Prod.fst ∧
      GrammarDocument.load files (Path.join directory name) = .ok d := by
  constructor
  · rintro ⟨text, htext, hd⟩
    refine ⟨?_, ?_⟩
    · obtain ⟨node, hmem, -⟩ := htext
      exact List.mem_map_of_mem (f := Prod.fst) hmem
    · rw [GrammarDocument.load_entry hlist horderly htext, hd]
      rfl
  · rintro ⟨hname, hload⟩
    obtain ⟨e, he, rfl⟩ := List.mem_map.1 hname
    obtain ⟨text, htext⟩ := Option.isSome_iff_exists.1 (hreadable e he)
    refine ⟨text, ⟨e.2, he, htext⟩, ?_⟩
    rwa [GrammarDocument.load_entry hlist horderly ⟨e.2, he, htext⟩, mapError_eq_ok_iff] at hload

/-- A document that is not loaded is not well formed. -/
theorem exists_of_load_error (hreadable : AllReadable entries) {name : Text}
    (hname : name ∈ (documentFiles entries).map Prod.fst) {e : SessionError}
    (h : GrammarDocument.load files (Path.join directory name) = .error e) :
    ∃ text cause, HasText entries name text ∧ GrammarDocument.ofFile name text = .error cause ∧
      e = .document (Path.join directory name) cause := by
  obtain ⟨entry, hentry, rfl⟩ := List.mem_map.1 hname
  obtain ⟨text, htext⟩ := Option.isSome_iff_exists.1 (hreadable entry hentry)
  rw [GrammarDocument.load_entry hlist horderly ⟨entry.2, hentry, htext⟩,
    mapError_eq_error_iff] at h
  obtain ⟨cause, hcause, rfl⟩ := h
  exact ⟨text, cause, ⟨entry.2, hentry, htext⟩, hcause, rfl⟩

end Entries

/-! ### Gathering a catalog -/

/-- A catalog that holds, of the documents in some files of a directory, the last one of each
program. -/
structure Gathers (files : FileSystem) (directory : Text) (seen : List Text) (c : Catalog) : Prop where
  loaded : ∀ name ∈ seen, ∃ d, GrammarDocument.load files (Path.join directory name) = .ok d
  programs : ∀ name ∈ seen, ∀ d, GrammarDocument.load files (Path.join directory name) = .ok d →
    d.program ∈ c.documents.map Prod.fst
  latest : ∀ e ∈ c.documents, e.2.2.program = e.1 ∧ ∃ name ∈ seen,
    e.2.1 = Path.join directory name ∧
    GrammarDocument.load files (Path.join directory name) = .ok e.2.2 ∧
    ∀ name' ∈ seen, ∀ d', GrammarDocument.load files (Path.join directory name') = .ok d' →
      d'.program = e.1 → name' ≤ name
  nodup : (c.documents.map Prod.fst).Nodup

namespace Gathers

variable {files : FileSystem} {directory : Text} {seen : List Text} {c : Catalog}

theorem nothing (files : FileSystem) (directory : Text) : Gathers files directory [] {} where
  loaded := fun _ h => absurd h List.not_mem_nil
  programs := fun _ h => absurd h List.not_mem_nil
  latest := fun _ h => absurd h List.not_mem_nil
  nodup := List.nodup_nil

/-- One more file, which comes after all of them. -/
theorem insert (h : Gathers files directory seen c) {name : Text} (hlater : ∀ n ∈ seen, n < name)
    {d : GrammarDocument} (hd : GrammarDocument.load files (Path.join directory name) = .ok d) :
    Gathers files directory (seen ++ [name]) (c.insert (Path.join directory name) d) where
  loaded := by
    intro n hn
    rcases List.mem_append.1 hn with hold | hnew
    · exact h.loaded n hold
    · rw [List.mem_singleton.1 hnew]
      exact ⟨d, hd⟩
  programs := by
    intro n hn d' hd'
    show d'.program ∈ (c.documents.filter _ ++ [_]).map Prod.fst
    rw [List.map_append, List.mem_append]
    by_cases hprogram : d'.program = d.program
    · exact Or.inr (List.mem_singleton.2 hprogram)
    · rcases List.mem_append.1 hn with hold | hnew
      · obtain ⟨e, he, heq⟩ := List.mem_map.1 (h.programs n hold d' hd')
        refine Or.inl (List.mem_map.2 ⟨e, List.mem_filter.2 ⟨he, ?_⟩, heq⟩)
        simpa [heq] using hprogram
      · rw [List.mem_singleton.1 hnew, hd] at hd'
        cases hd'
        exact absurd rfl hprogram
  latest := by
    intro e he
    rcases List.mem_append.1 he with hold | hnew
    · obtain ⟨hmem, hother⟩ := List.mem_filter.1 hold
      obtain ⟨hprogram, n, hn, hpath, hload, hlast⟩ := h.latest e hmem
      refine ⟨hprogram, n, List.mem_append_left _ hn, hpath, hload, fun n' hn' d' hd' heq => ?_⟩
      rcases List.mem_append.1 hn' with hold' | hnew'
      · exact hlast n' hold' d' hd' heq
      · -- the new document would have taken the place of this one
        rw [List.mem_singleton.1 hnew', hd] at hd'
        cases hd'
        simp [heq] at hother
    · rw [List.mem_singleton] at hnew
      subst hnew
      refine ⟨rfl, name, List.mem_append_right _ (List.mem_singleton.2 rfl), rfl, hd,
        fun n' hn' d' hd' heq => ?_⟩
      rcases List.mem_append.1 hn' with hold' | hnew'
      · exact (hlater n' hold').le
      · exact (List.mem_singleton.1 hnew').le
  nodup := by
    show ((c.documents.filter _ ++ [_]).map Prod.fst).Nodup
    rw [List.map_append, List.nodup_append]
    refine ⟨h.nodup.sublist (List.filter_sublist.map Prod.fst), List.nodup_singleton _, ?_⟩
    intro program hprogram program' hprogram' heq
    obtain ⟨e, he, rfl⟩ := List.mem_map.1 hprogram
    have hother := (List.mem_filter.1 he).2
    rw [heq, List.mem_singleton.1 hprogram'] at hother
    simp at hother

/-- Files in increasing order, none of which fails. -/
theorem foldlM (h : Gathers files directory seen c) {rest : List Text}
    (hsorted : (seen ++ rest).Pairwise (· < ·)) {c' : Catalog}
    (hfold : rest.foldlM (fun c name => (GrammarDocument.load files (Path.join directory name)).map
      (c.insert (Path.join directory name))) c = .ok c') :
    Gathers files directory (seen ++ rest) c' := by
  induction rest generalizing seen c with
  | nil =>
    cases hfold
    rw [List.append_nil]
    exact h
  | cons name rest ih =>
    rw [List.foldlM_cons, bind_eq_ok_iff] at hfold
    obtain ⟨next, hnext, hfold⟩ := hfold
    obtain ⟨d, hd, rfl⟩ := map_eq_ok_iff.1 hnext
    have hlater : ∀ n ∈ seen, n < name := fun n hn =>
      (List.pairwise_append.1 hsorted).2.2 n hn name List.mem_cons_self
    rw [List.append_cons] at hsorted ⊢
    exact ih (h.insert hlater hd) hsorted hfold

end Gathers

namespace Catalog

open Session (lastFor exists_lastFor_of_mem mem_of_lastFor program_of_lastFor)

/-- The names of the documents of a directory, in increasing order. -/
def documentNames (entries : List (Text × FileTree)) : List Text :=
  Text.sorted ((documentFiles entries).map Prod.fst)

section Loading

variable {files : FileSystem} {directory : Text} {entries : List (Text × FileTree)}
  (hlist : files.list? directory = some entries) (horderly : FileTree.Orderly entries)

include hlist horderly

theorem load_eq :
    load files directory = (documentNames entries).foldlM (fun c name =>
      (GrammarDocument.load files (Path.join directory name)).map
        (c.insert (Path.join directory name))) {} := by
  have hdocuments : entries.filter (fun e =>
      !e.2.isDirectory && (DocumentFormat.ofPath? e.1).isSome) = documentFiles entries :=
    List.filter_congr fun e he => by
      rw [Bool.eq_iff_iff, Bool.and_eq_true, Bool.and_eq_true, decide_eq_true_eq,
        isSome_ofPath?_iff (horderly.names e he)]
  unfold load paths
  rw [hlist]
  dsimp only
  rw [hdocuments]
  exact List.foldlM_map

theorem gathers_of_load {c : Catalog} (h : load files directory = .ok c) :
    Gathers files directory (documentNames entries) c := by
  rw [load_eq hlist horderly] at h
  exact (Gathers.nothing files directory).foldlM (Text.pairwise_sorted _) h

end Loading

/-! ### The grammars of a catalog -/

section Compiling

variable {embeddings : List (Text × Embedding)} {c : Catalog}
  (hnodup : (c.documents.map Prod.fst).Nodup)

include hnodup

theorem compileProgram_eq {program path : Text} {d : GrammarDocument}
    (hmem : (program, path, d) ∈ c.documents) :
    compileProgram embeddings c program = (d.compile embeddings).mapError (.document path) := by
  unfold compileProgram find?
  rw [find?_fst_of_nodup hnodup hmem]
  rfl

/-- A catalog that is not compiled holds a document that is refused. -/
theorem exists_of_compile_error {e : SessionError} (h : c.compile embeddings = .error e) :
    ∃ entry ∈ c.documents, ∃ cause, entry.2.2.compile embeddings = .error cause ∧
      e = .document entry.2.1 cause := by
  obtain ⟨program, hprogram, h⟩ := exists_of_mapM_error h
  obtain ⟨entry, hentry, rfl⟩ := List.mem_map.1 (Text.mem_sorted.1 hprogram)
  rw [compileProgram_eq hnodup hentry, mapError_eq_error_iff] at h
  obtain ⟨cause, hcause, rfl⟩ := h
  exact ⟨entry, hentry, cause, hcause, rfl⟩

omit hnodup in
theorem program_of_compileProgram (hown : ∀ entry ∈ c.documents, entry.2.2.program = entry.1)
    {program : Text} {g : Grammar} (h : compileProgram embeddings c program = .ok g) :
    g.program = program := by
  unfold compileProgram at h
  split at h
  · rename_i path d hfind
    obtain ⟨entry, hentry, heq⟩ := Option.map_eq_some_iff.1 hfind
    have hkey : entry.1 = program := by simpa using List.find?_some hentry
    have hprogram := hown entry (List.mem_of_find?_eq_some hentry)
    rw [heq, hkey] at hprogram
    rw [mapError_eq_ok_iff] at h
    exact (GrammarDocument.program_of_compile h).trans hprogram
  · cases h

/-- The grammars of a catalog, where every document stands under its own program: one grammar for
each program, from its document. -/
theorem compile_ok (hown : ∀ entry ∈ c.documents, entry.2.2.program = entry.1)
    {grammars : List Grammar} (h : c.compile embeddings = .ok grammars) :
    grammars.map Grammar.program = c.programs ∧
      ∀ entry ∈ c.documents, ∃ g, lastFor entry.1 grammars = some g ∧
        entry.2.2.compile embeddings = .ok g := by
  have hprograms : grammars.map Grammar.program = c.programs :=
    map_of_mapM (fun _ _ => program_of_compileProgram hown) h
  refine ⟨hprograms, fun entry hentry => ?_⟩
  have hmem : entry.1 ∈ grammars.map Grammar.program := by
    rw [hprograms]
    exact Text.mem_sorted.2 (List.mem_map_of_mem hentry)
  obtain ⟨g, hg⟩ := exists_lastFor_of_mem hmem
  obtain ⟨program, -, hcompile⟩ := exists_of_mem_mapM h g (mem_of_lastFor hg)
  -- the grammar tells the program it was compiled for
  obtain rfl := program_of_compileProgram hown hcompile
  rw [program_of_lastFor hg, compileProgram_eq hnodup hentry, mapError_eq_ok_iff] at hcompile
  exact ⟨g, hg, hcompile⟩

end Compiling

end Catalog

end CommandGrammar
