import CommandGrammar.Proofs.Catalogs

/-!
# A catalog is loaded whole or not at all

A session that loads a directory gets the grammars of all its documents, of two for one program the
one in the later file, or it keeps what it has. What stands in the way is a document that cannot be
read, or one that would survive and cannot be compiled. Files that are no documents do not count.

* `run_loadInPlace`: loading into a session that changes while it is done;
* `survives_of_mem`, `mem_of_survives`: the catalog of a directory holds what survives;
* `exists_faulty`, `exists_overlaid`: how loading fails, and what it does otherwise;
* `loadCatalog_whole_or_nothing`: what loading a directory does.
-/

namespace CommandGrammar

namespace Session

/-! ### Loading in place -/

def registerInPlace (grammars : List Grammar) : ExceptT SessionError (StateM Session) Unit :=
  grammars.forM fun g => modify fun s => s.register g

/-- Registers every grammar of a catalog directory in the session at hand; whatever was registered
before a failure stays so. -/
def loadInPlace (files : FileSystem) (directory : Text) :
    ExceptT SessionError (StateM Session) Nat := do
  let s ← get
  let catalog ← liftExcept (Catalog.load files directory)
  let grammars ← liftExcept (catalog.compile s.embeddings)
  registerInPlace (Grammar.issueAll s.editions grammars)
  pure grammars.length

theorem run_bind {α β : Type} (x : ExceptT SessionError (StateM Session) α)
    (f : α → ExceptT SessionError (StateM Session) β) (s : Session) :
    (x >>= f).run.run s = match x.run.run s with
      | (.ok a, s') => (f a).run.run s'
      | (.error e, s') => (.error e, s') := by
  rw [ExceptT.run_bind, StateT.run_bind]
  rcases x.run.run s with ⟨_ | _, s'⟩ <;> rfl

theorem run_get (s : Session) :
    (get : ExceptT SessionError (StateM Session) Session).run.run s = (.ok s, s) := rfl

theorem run_liftExcept {α : Type} (x : Except SessionError α) (s : Session) :
    (liftExcept x : ExceptT SessionError (StateM Session) α).run.run s = (x, s) := by
  cases x <;> rfl

theorem run_registerInPlace (grammars : List Grammar) (s : Session) :
    (registerInPlace grammars).run.run s = (.ok (), s.registerAll grammars) := by
  induction grammars generalizing s with
  | nil => rfl
  | cons g grammars ih => exact ih (s.register g)

/-- Nothing fails once something has been registered, so loading in place is loading. -/
theorem run_loadInPlace (files : FileSystem) (directory : Text) (s : Session) :
    (loadInPlace files directory).run.run s = match s.loadCatalog files directory with
      | .ok (n, s') => (.ok n, s')
      | .error e => (.error e, s) := by
  rw [loadCatalog_eq]
  unfold loadInPlace
  rw [run_bind, run_get]
  dsimp only
  rw [run_bind, run_liftExcept]
  generalize Catalog.load files directory = loaded
  cases loaded with
  | error e => rfl
  | ok catalog =>
    dsimp only [Except.bind]
    rw [run_bind, run_liftExcept]
    generalize catalog.compile s.embeddings = compiled
    cases compiled with
    | error e => rfl
    | ok grammars =>
      dsimp only [Except.map]
      rw [run_bind, run_registerInPlace]
      rfl

/-! ### Loading a directory -/

/-- What can stand in the way of loading a directory: the document in a file is not well formed, or
it counts for its program and its grammar is refused. -/
def Faulty (embeddings : List (Text × Embedding)) (entries : List (Text × FileTree)) (name : Text)
    (cause : GrammarError) : Prop :=
  (∃ text, HasText entries name text ∧ GrammarDocument.ofFile name text = .error cause) ∨
    ∃ d, Survives entries name d ∧ d.compile embeddings = .error cause

/-- A session after loading a directory: the grammars of the documents that count lie over those
registered before, and nothing else has changed but the number of editions. -/
structure Overlaid (entries : List (Text × FileTree)) (programs : List Text) (s s' : Session) :
    Prop where
  decoded : ∀ name text, HasText entries name text →
    ∃ d, GrammarDocument.ofFile name text = .ok d
  nodup : programs.Nodup
  declared : ∀ program, program ∈ programs ↔
    ∃ name d, Declares entries name d ∧ d.program = program
  survivor : ∀ program ∈ programs, ∃ name d, Survives entries name d ∧ d.program = program
  registered : ∀ name d, Survives entries name d → ∃ g k,
    d.compile s.embeddings = .ok g ∧ s'.registered? d.program = some (g.issue k)
  others : ∀ program, program ∉ programs → s'.registered? program = s.registered? program
  rest : s' = { s with registered := s'.registered, editions := s'.editions }

theorem registerAll_rest (grammars : List Grammar) (s : Session) :
    s.registerAll grammars = { s with
      registered := (s.registerAll grammars).registered
      editions := (s.registerAll grammars).editions } := by
  induction grammars generalizing s with
  | nil => rfl
  | cons g grammars ih => exact ih (s.register g)

section Loading

variable {files : FileSystem} {directory : Text} {entries : List (Text × FileTree)}
  (hlist : files.list? directory = some entries) (horderly : FileTree.Orderly entries)
  (hreadable : AllReadable entries)

include hlist horderly hreadable

/-- The documents of a catalog are those that count for their programs. -/
theorem survives_of_mem {c : Catalog}
    (hc : Gathers files directory (Catalog.documentNames entries) c)
    {e : Text × Text × GrammarDocument} (he : e ∈ c.documents) :
    ∃ name, e.2.1 = Path.join directory name ∧ e.2.2.program = e.1 ∧
      Survives entries name e.2.2 := by
  obtain ⟨hprogram, name, hname, hpath, hload, hlast⟩ := hc.latest e he
  refine ⟨name, hpath, hprogram, ?_, fun name' d' hd' heq => ?_⟩
  · exact (declares_iff hlist horderly hreadable).2 ⟨Text.mem_sorted.1 hname, hload⟩
  · obtain ⟨hname', hload'⟩ := (declares_iff hlist horderly hreadable).1 hd'
    rw [Text.before_iff_lt]
    exact (hlast name' (Text.mem_sorted.2 hname') d' hload' (heq.trans hprogram)).eq_or_lt

/-- Every document that counts for its program is in the catalog. -/
theorem mem_of_survives {c : Catalog}
    (hc : Gathers files directory (Catalog.documentNames entries) c) {name : Text}
    {d : GrammarDocument} (h : Survives entries name d) :
    (d.program, Path.join directory name, d) ∈ c.documents := by
  obtain ⟨hname, hload⟩ := (declares_iff hlist horderly hreadable).1 h.1
  obtain ⟨⟨program, path, d'⟩, he, rfl⟩ := List.mem_map.1
    (hc.programs name (Text.mem_sorted.2 hname) d hload)
  obtain ⟨hprogram, name', hname', hpath, hload', hlast⟩ := hc.latest _ he
  -- the file in the catalog is the last one for the program, and so is the one that survives
  have hle : name ≤ name' := hlast name (Text.mem_sorted.2 hname) d hload rfl
  have heq : name' = name := by
    rcases h.2 name' d' ((declares_iff hlist horderly hreadable).2
      ⟨Text.mem_sorted.1 hname', hload'⟩) hprogram with heq | hbefore
    · exact heq
    · exact absurd (Text.before_iff_lt.1 hbefore) (not_lt.2 hle)
  subst heq
  obtain rfl := Except.ok.inj (hload.symm.trans hload')
  rw [← hpath]
  exact he

/-- What loading says when it fails. -/
theorem exists_faulty {s : Session} {e : SessionError}
    (h : s.loadCatalog files directory = .error e) :
    ∃ name cause, e = .document (Path.join directory name) cause ∧
      Faulty s.embeddings entries name cause := by
  rcases bind_eq_error_iff.1 h with hload | ⟨c, hload, h⟩
  · rw [Catalog.load_eq hlist horderly] at hload
    obtain ⟨name, hname, c, hstep⟩ := exists_of_foldlM_error hload
    obtain ⟨text, cause, htext, hcause, rfl⟩ := exists_of_load_error hlist horderly hreadable
      (Text.mem_sorted.1 hname) (map_eq_error_iff.1 hstep)
    exact ⟨name, cause, rfl, Or.inl ⟨text, htext, hcause⟩⟩
  · have hc := Catalog.gathers_of_load hlist horderly hload
    rcases bind_eq_error_iff.1 h with hcompile | ⟨grammars, -, h⟩
    · obtain ⟨entry, hentry, cause, hcause, rfl⟩ :=
        Catalog.exists_of_compile_error hc.nodup hcompile
      obtain ⟨name, hpath, -, hsurvives⟩ := survives_of_mem hlist horderly hreadable hc hentry
      exact ⟨name, cause, by rw [hpath], Or.inr ⟨_, hsurvives, hcause⟩⟩
    · cases h

/-- What a session is like when loading has not failed. -/
theorem exists_overlaid {s s' : Session} {n : Nat}
    (h : s.loadCatalog files directory = .ok (n, s')) :
    ∃ programs, programs.length = n ∧ Overlaid entries programs s s' := by
  obtain ⟨c, hload, h⟩ := bind_eq_ok_iff.1 h
  obtain ⟨grammars, hcompile, h⟩ := bind_eq_ok_iff.1 h
  obtain ⟨rfl, rfl⟩ := Prod.mk.inj (Except.ok.inj h)
  have hc := Catalog.gathers_of_load hlist horderly hload
  obtain ⟨hprograms, hgrammars⟩ :=
    Catalog.compile_ok hc.nodup (fun entry hentry => (hc.latest entry hentry).1) hcompile
  have hmem (program : Text) : program ∈ c.programs ↔ ∃ e ∈ c.documents, e.1 = program := by
    rw [Catalog.programs, Text.mem_sorted, List.mem_map]
  refine ⟨c.programs, by rw [← hprograms, List.length_map], ?_⟩
  constructor
  case decoded =>
    intro name text htext
    obtain ⟨node, hnode, -⟩ := id htext
    obtain ⟨d, hd⟩ := hc.loaded name
      (Text.mem_sorted.2 (List.mem_map_of_mem (f := Prod.fst) hnode))
    rw [GrammarDocument.load_entry hlist horderly htext, mapError_eq_ok_iff] at hd
    exact ⟨d, hd⟩
  case nodup => exact (Text.pairwise_sorted _).imp fun hlt => hlt.ne
  case declared =>
    intro program
    rw [hmem]
    constructor
    · rintro ⟨e, he, rfl⟩
      obtain ⟨name, -, hprogram, hsurvives⟩ := survives_of_mem hlist horderly hreadable hc he
      exact ⟨name, _, hsurvives.1, hprogram⟩
    · rintro ⟨name, d, hd, rfl⟩
      obtain ⟨hname, hd⟩ := (declares_iff hlist horderly hreadable).1 hd
      exact List.mem_map.1 (hc.programs name (Text.mem_sorted.2 hname) d hd)
  case survivor =>
    intro program hprogram
    obtain ⟨e, he, rfl⟩ := (hmem program).1 hprogram
    obtain ⟨name, -, hprogram, hsurvives⟩ := survives_of_mem hlist horderly hreadable hc he
    exact ⟨name, _, hsurvives, hprogram⟩
  case registered =>
    intro name d hsurvives
    obtain ⟨g, hg, hcompiled⟩ := hgrammars _ (mem_of_survives hlist horderly hreadable hc hsurvives)
    obtain ⟨k, hk⟩ := lastFor_issueAll d.program s.editions grammars
    exact ⟨g, k, hcompiled, by rw [registered?_registerAll, hk, hg]; rfl⟩
  case others =>
    intro program hprogram
    obtain ⟨k, hk⟩ := lastFor_issueAll program s.editions grammars
    rw [registered?_registerAll, hk]
    cases hlast : lastFor program grammars with
    | none => rfl
    | some g =>
      refine absurd ?_ hprogram
      rw [← hprograms, ← program_of_lastFor hlast]
      exact List.mem_map_of_mem (mem_of_lastFor hlast)
  case rest => exact registerAll_rest _ s

/-- Files that are no documents do not count. -/
theorem loadCatalog_congr {files' : FileSystem} {entries' : List (Text × FileTree)}
    (hlist' : files'.list? directory = some entries') (horderly' : FileTree.Orderly entries')
    (hdocuments : ∀ e, e ∈ documentFiles entries' ↔ e ∈ documentFiles entries) (s : Session) :
    s.loadCatalog files' directory = s.loadCatalog files directory := by
  have hnames : Catalog.documentNames entries' = Catalog.documentNames entries :=
    Text.sorted_eq_of_mem_iff fun name => by
      simp only [List.mem_map, hdocuments]
  have hload : ∀ name ∈ Catalog.documentNames entries,
      GrammarDocument.load files' (Path.join directory name)
        = GrammarDocument.load files (Path.join directory name) := by
    intro name hname
    obtain ⟨e, he, rfl⟩ := List.mem_map.1 (Text.mem_sorted.1 hname)
    obtain ⟨text, htext⟩ := Option.isSome_iff_exists.1 (hreadable e he)
    rw [GrammarDocument.load_entry hlist horderly ⟨e.2, he, htext⟩,
      GrammarDocument.load_entry hlist' horderly' ⟨e.2, (hdocuments e).2 he, htext⟩]
  have hcatalog : Catalog.load files' directory = Catalog.load files directory := by
    rw [Catalog.load_eq hlist horderly, Catalog.load_eq hlist' horderly', hnames]
    refine foldlM_congr_of_mem (fun name hname c => ?_) _
    rw [hload name hname]
  unfold loadCatalog
  rw [hcatalog]

/-- **A catalog is loaded whole or not at all.** Loading a directory in place leaves the session as
it is if it fails. It fails with the path of a document that is not well formed, or that counts for
its program and whose grammar is refused. Otherwise it answers how many programs the documents
declare, and for each of them the grammar of the last document that declares it lies over what was
registered before. Other files of the directory do not count. -/
theorem loadCatalog_whole_or_nothing (s : Session) :
    ((∃ n s' programs, s.loadCatalog files directory = .ok (n, s') ∧
        (loadInPlace files directory).run.run s = (.ok n, s') ∧
        programs.length = n ∧ Overlaid entries programs s s') ∨
      ∃ name cause,
        s.loadCatalog files directory = .error (.document (Path.join directory name) cause) ∧
        (loadInPlace files directory).run.run s
          = (.error (.document (Path.join directory name) cause), s) ∧
        Faulty s.embeddings entries name cause) ∧
    ∀ files' entries', FileSystem.list? files' directory = some entries' → FileTree.Orderly entries' →
      (∀ e, e ∈ documentFiles entries' ↔ e ∈ documentFiles entries) →
      s.loadCatalog files' directory = s.loadCatalog files directory := by
  refine ⟨?_, fun files' entries' hlist' horderly' hdocuments =>
    loadCatalog_congr hlist horderly hreadable hlist' horderly' hdocuments s⟩
  have hrun := run_loadInPlace files directory s
  cases hload : s.loadCatalog files directory with
  | ok result =>
    obtain ⟨n, s'⟩ := result
    obtain ⟨programs, hcount, hoverlaid⟩ := exists_overlaid hlist horderly hreadable hload
    rw [hload] at hrun
    exact Or.inl ⟨n, s', programs, rfl, hrun, hcount, hoverlaid⟩
  | error e =>
    obtain ⟨name, cause, rfl, hfaulty⟩ := exists_faulty hlist horderly hreadable hload
    rw [hload] at hrun
    exact Or.inr ⟨name, cause, rfl, hrun, hfaulty⟩

end Loading

/-- A document with one option. -/
def sampleText : Text :=
  "\x7b\"program\":\"t\",\"specs\":[\x7b\"kind\":\"option\",\"name\":\"-c\"\x7d]\x7d".toList

/-- Documents of two programs, two of them for one, and a file that is no document. -/
def sampleEntries : List (Text × FileTree) :=
  [("d.txt".toList, .file [255] false), ("c.json".toList, .file (Utf8.encode sampleText) false),
    ("b.yml".toList, .file (Utf8.encode "program: t".toList) false),
    ("a.json".toList, .file (Utf8.encode "\x7b\"program\":\"u\"\x7d".toList) true)]

/-- The same with a document that is not well formed. -/
def brokenEntries : List (Text × FileTree) :=
  ("d.json".toList, .file (Utf8.encode "[]".toList) false) :: sampleEntries

def filesOf (entries : List (Text × FileTree)) : FileSystem :=
  { root := .directory [("g".toList, .directory entries)] }

def sampleDocument : GrammarDocument :=
  { program := ['t'], declarations := [{ kind := .option, name := "-c".toList }] }

theorem survives_sample : Survives sampleEntries "c.json".toList sampleDocument := by
  have hfile : ("c.json".toList, FileTree.file (Utf8.encode sampleText) false)
      ∈ documentFiles sampleEntries :=
    List.mem_filter.2 ⟨List.mem_cons_of_mem _ List.mem_cons_self, by decide⟩
  refine ⟨⟨sampleText, ⟨_, hfile, by decide +kernel⟩, by decide +kernel⟩, ?_⟩
  rintro name d ⟨text, ⟨node, hnode, -⟩, -⟩ -
  have hnames : ∀ e ∈ documentFiles sampleEntries,
      e.1 = "c.json".toList ∨ Text.before e.1 "c.json".toList = true := by decide
  exact hnames _ hnode

/-- A session that knows one of the programs already. -/
def sampleSession : Session := (start {} none).register (oneOption "t" "-t")

theorem loadCatalog_whole_or_nothing_sample :
    ((filesOf sampleEntries).list? ['g'] = some sampleEntries ∧
      FileTree.Orderly sampleEntries ∧ AllReadable sampleEntries ∧
      ∃ s' k, (loadInPlace (filesOf sampleEntries) ['g']).run.run sampleSession = (.ok 2, s') ∧
        s'.registered? ['t'] = some ((oneOption "t" "-c").issue k)) ∧
    (filesOf brokenEntries).list? ['g'] = some brokenEntries ∧
      FileTree.Orderly brokenEntries ∧ AllReadable brokenEntries ∧
      ∃ e, (loadInPlace (filesOf brokenEntries) ['g']).run.run sampleSession
        = (.error e, sampleSession) := by
  have horderly : FileTree.Orderly sampleEntries := by decide +kernel
  have hreadable : AllReadable sampleEntries := by decide +kernel
  have hlist : (filesOf sampleEntries).list? ['g'] = some sampleEntries := rfl
  have horderly' : FileTree.Orderly brokenEntries := by decide +kernel
  have hreadable' : AllReadable brokenEntries := by decide +kernel
  have hlist' : (filesOf brokenEntries).list? ['g'] = some brokenEntries := rfl
  refine ⟨⟨hlist, horderly, hreadable, ?_⟩, hlist', horderly', hreadable', ?_⟩
  · have hcount : (sampleSession.loadCatalog (filesOf sampleEntries) ['g']).toOption.map Prod.fst
        = some 2 := by decide +kernel
    have hcompiled : sampleDocument.compile sampleSession.embeddings
        = .ok (oneOption "t" "-c") := by decide +kernel
    rcases (loadCatalog_whole_or_nothing hlist horderly hreadable sampleSession).1 with
      ⟨n, s', programs, hload, hrun, -, hoverlaid⟩ | ⟨name, cause, hload, -⟩
    · rw [hload] at hcount
      obtain rfl : n = 2 := Option.some.inj hcount
      obtain ⟨g, k, hg, hregistered⟩ := hoverlaid.registered _ _ survives_sample
      obtain rfl := Except.ok.inj (hcompiled.symm.trans hg)
      exact ⟨s', k, hrun, hregistered⟩
    · rw [hload] at hcount
      cases hcount
  · have hfails : (sampleSession.loadCatalog (filesOf brokenEntries) ['g']).isOk = false := by
      decide +kernel
    rcases (loadCatalog_whole_or_nothing hlist' horderly' hreadable' sampleSession).1 with
      ⟨n, s', programs, hload, -⟩ | ⟨name, cause, -, hrun, -⟩
    · rw [hload] at hfails
      cases hfails
    · exact ⟨_, hrun⟩

end Session

end CommandGrammar
