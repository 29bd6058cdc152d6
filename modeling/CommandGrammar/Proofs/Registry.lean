import CommandGrammar.Proofs.Compiled
import CommandGrammar.Proofs.Expiry
import CommandGrammar.Session.Basic

/-!
# The grammars of a session by name

A session answers for a command with the grammar last registered under the name of its program,
whatever was asked of the session before, after and in between. The name of a program leaves out
the directories before it, in the command and not in the grammar: a grammar registered under a name
with directories is kept, but nothing finds it.

* `registered?_registerAll`: of some grammars registered one after the other, the last one of a
  program counts;
* `Searched`: what lookups leave as it is, for every operation that looks grammars up;
* `Request.serve_cases`: what one request does;
* `UpToDate.serve`, `UpToDate.serveAll`: what a session has registered after one request, and after
  a sequence of them;
* `found_by_name_iff`: which registered grammars are found.
-/

namespace CommandGrammar

theorem program_of_compileGrammar {options : CompileOptions} {program : Text}
    {declarations : List Declaration} {g : Grammar}
    (h : compileGrammar options program declarations = .ok g) : g.program = program := by
  obtain ⟨specs, -, rfl⟩ := map_eq_ok_iff.1 h
  rfl

namespace Cache

/-! ### Entries -/

variable {κ ν : Type} [DecidableEq κ]

theorem entries_get_subset (c : Cache κ ν) (now : Instant) (key : κ) :
    (c.get now key).2.entries ⊆ c.entries := by
  rcases get_snd c now key with h | ⟨-, h⟩ <;> rw [h]
  · exact List.Subset.refl _
  · exact fun e he => (List.mem_filter.1 he).1

/-- Storing a value adds no entry but one of this key and value. -/
theorem mem_entries_put? {c c' : Cache κ ν} {now : Instant} {key : κ} {value : ν}
    {lifetime : Duration} (h : c.put? now key value lifetime = some c') {e : κ × Kept ν}
    (he : e ∈ c'.entries) : e ∈ c.entries ∨ e.1 = key ∧ e.2.value = value := by
  unfold put? at h
  dsimp only at h
  split at h
  · obtain rfl := Option.some.inj h
    exact Or.inl he
  · obtain ⟨expires, -, rfl⟩ := Option.map_eq_some_iff.1 h
    rcases List.mem_append.1 he with hold | hnew
    · exact Or.inl (List.mem_filter.1 hold).1
    · obtain rfl := List.mem_singleton.1 hnew
      exact Or.inr ⟨rfl, rfl⟩

theorem mem_entries_of_get {c : Cache κ ν} {now : Instant} {key : κ} {value : ν}
    (h : (c.get now key).1 = some value) : ∃ e ∈ c.entries, e.1 = key ∧ e.2.value = value := by
  rw [get_fst] at h
  obtain ⟨kept, hkept, rfl⟩ := Option.map_eq_some_iff.1 h
  obtain ⟨e, he, rfl⟩ := Option.map_eq_some_iff.1 (Option.filter_eq_some_iff.1 hkept).1
  exact ⟨e, List.mem_of_find?_eq_some he, by simpa using List.find?_some he, rfl⟩

/-- What holds of the entries, and of what is computed for a key, holds of the answer for the key
and of the entries after it. -/
theorem forall_mem_getOrPut? {σ : Type} {P : κ → ν → Prop} {c c' : Cache κ ν} {now : Instant}
    {key : κ} {value : ν} {lifetime : Duration} {compute : σ → Option (ν × σ)} {state state' : σ}
    (hentries : ∀ e ∈ c.entries, P e.1 e.2.value)
    (hcompute : ∀ value state', compute state = some (value, state') → P key value)
    (h : c.getOrPut? now key lifetime compute state = some (value, c', state')) :
    P key value ∧ ∀ e ∈ c'.entries, P e.1 e.2.value := by
  have hkept : ∀ e ∈ (c.get now key).2.entries, P e.1 e.2.value :=
    fun e he => hentries e (entries_get_subset c now key he)
  cases hget : (c.get now key).1 with
  | some found =>
    rw [getOrPut?_of_some hget] at h
    obtain ⟨e, he, rfl, rfl⟩ := mem_entries_of_get hget
    cases h
    exact ⟨hentries e he, hkept⟩
  | none =>
    have hpair : c.get now key = (none, (c.get now key).2) := Prod.ext hget rfl
    unfold getOrPut? at h
    rw [hpair] at h
    obtain ⟨⟨computed, after⟩, hcomputed, h⟩ := Option.bind_eq_some_iff.1 h
    obtain ⟨stored, hstored, h⟩ := Option.bind_eq_some_iff.1 h
    cases h
    have hvalue := hcompute _ _ hcomputed
    refine ⟨hvalue, fun e he => ?_⟩
    rcases mem_entries_put? hstored he with hold | ⟨hkey, heq⟩
    · exact hkept e hold
    · rw [hkey, heq]
      exact hvalue

end Cache

namespace Session

/-! ### Registered grammars -/

theorem registered?_register_self (s : Session) (g : Grammar) :
    (s.register g).registered? g.program = some g := by
  have hnone : (s.registered.filter (fun r => !(r.1 == g.program))).find?
      (fun r => r.1 == g.program) = none := by
    rw [List.find?_eq_none]
    intro r hr
    simpa using (List.mem_filter.1 hr).2
  simp [registered?, register, List.find?_append, hnone]

theorem registered?_register_of_ne (s : Session) {g : Grammar} {program : Text}
    (h : program ≠ g.program) : (s.register g).registered? program = s.registered? program := by
  have hkept (r : Text × Grammar) : ((!(r.1 == g.program)) = true ∧ (r.1 == program) = true) ↔
      (r.1 == program) = true := by
    by_cases hr : r.1 = program
    · simp [hr, h]
    · simp [hr]
  unfold registered? register
  rw [List.find?_append, List.find?_cons_of_neg (by simpa using h.symm), List.find?_nil,
    Option.or_none, List.find?_filter]
  simp only [hkept, Bool.decide_eq_true]

/-- The last of some grammars that is one of a program. -/
def lastFor (program : Text) (grammars : List Grammar) : Option Grammar :=
  grammars.reverse.find? (fun g => g.program == program)

theorem lastFor_append (program : Text) (earlier later : List Grammar) :
    lastFor program (earlier ++ later)
      = (lastFor program later).or (lastFor program earlier) := by
  unfold lastFor
  rw [List.reverse_append, List.find?_append]

theorem lastFor_cons (program : Text) (g : Grammar) (later : List Grammar) :
    lastFor program (g :: later)
      = (lastFor program later).or (if g.program = program then some g else none) := by
  rw [← List.singleton_append, lastFor_append]
  congr 1
  by_cases h : g.program = program <;> simp [lastFor, h]

theorem program_of_lastFor {program : Text} {grammars : List Grammar} {g : Grammar}
    (h : lastFor program grammars = some g) : g.program = program := by
  simpa using List.find?_some h

theorem mem_of_lastFor {program : Text} {grammars : List Grammar} {g : Grammar}
    (h : lastFor program grammars = some g) : g ∈ grammars :=
  List.mem_reverse.1 (List.mem_of_find?_eq_some h)

theorem exists_lastFor_of_mem {program : Text} {grammars : List Grammar}
    (h : program ∈ grammars.map Grammar.program) : ∃ g, lastFor program grammars = some g := by
  obtain ⟨g, hg, rfl⟩ := List.mem_map.1 h
  rw [← Option.isSome_iff_exists, lastFor, List.find?_isSome]
  exact ⟨g, List.mem_reverse.2 hg, beq_self_eq_true g.program⟩

/-- Of some grammars registered one after the other, the last one of a program counts. -/
theorem registered?_registerAll (grammars : List Grammar) (s : Session) (program : Text) :
    (s.registerAll grammars).registered? program
      = (lastFor program grammars).or (s.registered? program) := by
  induction grammars generalizing s with
  | nil => rfl
  | cons g grammars ih =>
    have hrest : (s.registerAll (g :: grammars)).registered? program
        = (lastFor program grammars).or ((s.register g).registered? program) := ih (s.register g)
    rw [hrest, lastFor_cons, Option.or_assoc]
    congr 1
    by_cases hprogram : g.program = program
    · rw [if_pos hprogram, ← hprogram, registered?_register_self]
      rfl
    · rw [if_neg hprogram, registered?_register_of_ne s (Ne.symm hprogram)]
      rfl

/-- Of editions, too, the last one of a program counts. -/
theorem lastFor_issueAll (program : Text) (edition : Nat) (grammars : List Grammar) :
    ∃ k, lastFor program (Grammar.issueAll edition grammars)
      = (lastFor program grammars).map (Grammar.issue k) := by
  induction grammars generalizing edition with
  | nil => exact ⟨edition, rfl⟩
  | cons g grammars ih =>
    obtain ⟨k, hk⟩ := ih (edition + 1)
    rw [Grammar.issueAll, lastFor_cons, lastFor_cons, hk]
    cases lastFor program grammars with
    | some last => exact ⟨k, rfl⟩
    | none =>
      refine ⟨edition, ?_⟩
      by_cases hprogram : g.program = program <;> simp [Grammar.issue, hprogram]

/-! ### Requests -/

/-- What may be asked of a session. -/
inductive Request
  | addEmbedding (name : Text) (e : Embedding)
  | register (g : Grammar)
  | registerDeclarations (program : Text) (declarations : List Declaration)
  | registerDocument (document : GrammarDocument)
  | loadCatalog (files : FileSystem) (directory : Text)
  | grammarFor (command : Text)
  | parse (program : Text) (tokens : List Text)
  | complete (generators : Generators) (program : Text) (tokens : List Text)
  | flush (force : Bool)
  | advance (d : Duration)

/-- The session after what may have been refused. -/
def orSame (s : Session) (result : Except SessionError Session) : Session :=
  match result with
  | .ok s' => s'
  | .error _ => s

/-- The session after a request; a request that is refused leaves it as it is. -/
def Request.serve : Request → Session → Option Session
  | .addEmbedding name e, s => some (s.addEmbedding name e)
  | .register g, s => some (s.register g)
  | .registerDeclarations program declarations, s =>
    some (s.orSame (s.registerDeclarations program declarations))
  | .registerDocument document, s => some (s.orSame (s.registerDocument document))
  | .loadCatalog files directory, s =>
    some (s.orSame ((s.loadCatalog files directory).map Prod.snd))
  | .grammarFor command, s => (s.grammarFor command).map Prod.snd
  | .parse program tokens, s => (s.parse program tokens).map Prod.snd
  | .complete generators program tokens, s =>
    (s.complete generators program tokens).map Prod.snd
  | .flush force, s => some (s.flush force).2
  | .advance d, s => s.advance d

/-- The grammars that a request compiles, in their order; none if it is refused. -/
def Request.compiled : Request → Session → List Grammar
  | .registerDeclarations program declarations, s =>
    (compileGrammar s.compileOptions program declarations).toOption.toList
  | .registerDocument document, s => (document.compile s.embeddings).toOption.toList
  | .loadCatalog files directory, s =>
    ((Catalog.load files directory).bind (Catalog.compile s.embeddings)).toOption.getD []
  | _, _ => []

/-- The grammars that a request registers, in their order: the one it brings along, or the editions
of those it compiles. -/
def Request.grammars : Request → Session → List Grammar
  | .register g, _ => [g]
  | r, s => Grammar.issueAll s.editions (r.compiled s)

/-- The grammars that some requests register, in their order, and the session after them. -/
def serveAll : List Request → Session → Option (List Grammar × Session)
  | [], s => some ([], s)
  | r :: requests, s =>
    (r.serve s).bind fun s' =>
      (serveAll requests s').map fun (grammars, s'') => (r.grammars s ++ grammars, s'')

theorem orSame_registered (s : Session) {result : Except GrammarError Grammar} :
    s.orSame (match result with
      | .ok g => .ok (s.register (g.issue s.editions))
      | .error e => .error (.grammar e))
      = s.registerAll (Grammar.issueAll s.editions result.toOption.toList) := by
  cases result <;> rfl

/-- Loading a catalog registers its grammars once they are all there. -/
theorem loadCatalog_eq (files : FileSystem) (directory : Text) (s : Session) :
    s.loadCatalog files directory
      = ((Catalog.load files directory).bind (Catalog.compile s.embeddings)).map fun grammars =>
          (grammars.length, s.registerAll (Grammar.issueAll s.editions grammars)) := by
  unfold loadCatalog
  generalize Catalog.load files directory = loaded
  cases loaded with
  | error e => rfl
  | ok catalog =>
    show (catalog.compile s.embeddings).bind _ = (catalog.compile s.embeddings).map _
    generalize catalog.compile s.embeddings = compiled
    cases compiled <;> rfl

theorem orSame_loadCatalog (files : FileSystem) (directory : Text) (s : Session) :
    s.orSame ((s.loadCatalog files directory).map Prod.snd)
      = s.registerAll ((Request.loadCatalog files directory).grammars s) := by
  rw [loadCatalog_eq]
  show _ = s.registerAll (Grammar.issueAll s.editions
    (((Catalog.load files directory).bind (Catalog.compile s.embeddings)).toOption.getD []))
  generalize (Catalog.load files directory).bind (Catalog.compile s.embeddings) = grammars
  cases grammars <;> rfl

/-! ### What lookups change -/

/-- The grammars of a session stand under their own names, registered or made from pages. -/
structure Named (s : Session) : Prop where
  registered : ∀ r ∈ s.registered, r.2.program = r.1
  discovered : ∀ e ∈ s.discovered.entries, ∀ g ∈ e.2.value, g.program = e.1

/-- A session in which something was looked up: what is registered stays as it is, no help desk
comes in, and if its grammars stood under their own names, they do. -/
structure Searched (s s' : Session) : Prop where
  config : s'.config = s.config
  registered : s'.registered = s.registered
  desk : s.desk = none → s'.desk = none
  editions : s.editions ≤ s'.editions
  named : s.Named → s'.Named

theorem Searched.refl (s : Session) : Searched s s := ⟨rfl, rfl, id, Nat.le_refl _, id⟩

theorem Searched.trans {s s' s'' : Session} (h : Searched s s') (h' : Searched s' s'') :
    Searched s s'' where
  config := h'.config.trans h.config
  registered := h'.registered.trans h.registered
  desk := h'.desk ∘ h.desk
  editions := Nat.le_trans h.editions h'.editions
  named := h'.named ∘ h.named

/-- Where no grammar is added, nothing else counts. -/
theorem Searched.of_subset {s s' : Session} (hconfig : s'.config = s.config)
    (hregistered : s'.registered = s.registered) (hdesk : s'.desk = s.desk)
    (heditions : s.editions ≤ s'.editions)
    (hdiscovered : s'.discovered.entries ⊆ s.discovered.entries) : Searched s s' where
  config := hconfig
  registered := hregistered
  desk := fun hnone => hdesk.trans hnone
  editions := heditions
  named h := by
    refine ⟨?_, fun e he => h.discovered e (hdiscovered he)⟩
    rw [hregistered]
    exact h.registered

theorem program_of_discover {s : Session} {program : Text} {desk desk' : HelpDesk} {g : Grammar}
    (h : s.discover program desk = some (some g, desk')) : g.program = program := by
  obtain ⟨⟨entries, after⟩, -, hanswer⟩ := Option.map_eq_some_iff.1 h
  dsimp only at hanswer
  split at hanswer
  · cases hanswer
  · split at hanswer
    · rename_i compiled hcompile
      cases hanswer
      exact program_of_compileGrammar (g := compiled) hcompile
    · cases hanswer

theorem discoveredFor_searched {s s' : Session} {program : Text} {desk : HelpDesk}
    {g : Option Grammar} (hdesk : s.desk = some desk)
    (h : s.discoveredFor program desk = some (g, s')) :
    Searched s s' ∧ (s.Named → ∀ found ∈ g, found.program = program) := by
  obtain ⟨⟨answer, discovered, after⟩, hanswer, heq⟩ := Option.map_eq_some_iff.1 h
  obtain ⟨rfl, rfl⟩ := Prod.mk.inj heq
  have hnames (hs : s.Named) :
      (∀ found ∈ answer, found.program = program) ∧
        ∀ e ∈ discovered.entries, ∀ found ∈ e.2.value, found.program = e.1 :=
    Cache.forall_mem_getOrPut?
      (P := fun program (g : Option Grammar) => ∀ found ∈ g, found.program = program)
      hs.discovered (fun _ _ hcomputed found hfound => by
        rw [Option.mem_def.1 hfound] at hcomputed
        exact program_of_discover hcomputed) hanswer
  have hnever (hnone : s.desk = none) : False := by
    rw [hdesk] at hnone
    cases hnone
  exact ⟨⟨rfl, rfl, fun hnone => (hnever hnone).elim, Nat.le_refl _,
    fun hs => ⟨hs.registered, (hnames hs).2⟩⟩, fun hs => (hnames hs).1⟩

/-- A lookup adds no grammar but one made from pages, and answers one of the program asked for. -/
theorem grammarFor_searched {s s' : Session} {command : Text} {g : Option Grammar}
    (h : s.grammarFor command = some (g, s')) :
    Searched s s' ∧ (s.Named → ∀ found ∈ g, found.program = Line.programName command) := by
  unfold grammarFor at h
  dsimp only at h
  split at h
  · rename_i own hown
    cases h
    refine ⟨.refl s, fun hs found hfound => ?_⟩
    obtain rfl := Option.some.inj hfound
    obtain ⟨r, hr, rfl⟩ := Option.map_eq_some_iff.1 hown
    rw [hs.registered r (List.mem_of_find?_eq_some hr)]
    simpa using List.find?_some hr
  · cases h
    exact ⟨.refl s, fun _ found hfound => absurd hfound (by simp)⟩
  · rename_i hdesk
    exact discoveredFor_searched hdesk h

theorem replay_searched {commands : List Text} {s s' : Session}
    (h : s.replay commands = some s') : Searched s s' := by
  induction commands generalizing s with
  | nil =>
    cases h
    exact .refl _
  | cons command commands ih =>
    obtain ⟨next, hnext, h⟩ := Option.bind_eq_some_iff.1 h
    obtain ⟨⟨g, after⟩, hlookup, rfl⟩ := Option.map_eq_some_iff.1 hnext
    exact (grammarFor_searched hlookup).1.trans (ih h)

theorem matchLine_searched {s s' : Session} {program : Text} {tokens : List Text}
    {g : Option Grammar} {line : Line} (h : s.matchLine program tokens = some (g, line, s')) :
    Searched s s' := by
  obtain ⟨⟨own, looked⟩, hlookup, h⟩ := Option.bind_eq_some_iff.1 h
  obtain ⟨replayed, hreplay, h⟩ := Option.bind_eq_some_iff.1 h
  cases h
  exact ((grammarFor_searched hlookup).1.trans (replay_searched hreplay)).trans
    (.of_subset rfl rfl rfl (Nat.le_succ _) (List.Subset.refl _))

theorem firstOwner_searched {m : Member} {commands : List Text} {s s' : Session}
    {owner : Option Grammar} (h : s.firstOwner m commands = some (owner, s')) : Searched s s' := by
  induction commands generalizing s with
  | nil =>
    cases h
    exact .refl _
  | cons command commands ih =>
    obtain ⟨⟨g, looked⟩, hlookup, h⟩ := Option.bind_eq_some_iff.1 h
    have hlooked : Searched s looked := (grammarFor_searched hlookup).1
    dsimp only at h
    split at h
    · cases h
      exact hlooked
    · exact hlooked.trans (ih h)

theorem owningGrammar_searched {s s' : Session} {top owner : Option Grammar}
    {history : List Record} (h : s.owningGrammar top history = some (owner, s')) :
    Searched s s' := by
  unfold owningGrammar at h
  split at h
  · cases h
    exact .refl s
  · split at h
    · cases h
      exact .refl s
    · exact firstOwner_searched h

theorem complete_searched {s s' : Session} {generators : Generators} {program : Text}
    {tokens : List Text} {c : Completion}
    (h : s.complete generators program tokens = some (c, s')) : Searched s s' := by
  obtain ⟨⟨top, line, matched⟩, hmatch, h⟩ := Option.bind_eq_some_iff.1 h
  obtain ⟨⟨owner, searched⟩, howner, h⟩ := Option.bind_eq_some_iff.1 h
  cases h
  exact (matchLine_searched hmatch).trans (owningGrammar_searched howner)

/-! ### One request -/

theorem Named.register {s : Session} (h : s.Named) (g : Grammar) : (s.register g).Named where
  registered := by
    intro r hr
    rcases List.mem_append.1 hr with hold | hnew
    · exact h.registered r (List.mem_filter.1 hold).1
    · rw [List.mem_singleton.1 hnew]
  discovered := h.discovered

theorem Named.registerAll {grammars : List Grammar} {s : Session} (h : s.Named) :
    (s.registerAll grammars).Named := by
  induction grammars generalizing s with
  | nil => exact h
  | cons g grammars ih => exact ih (h.register g)

/-- A request registers its grammars, or it has none and something may have been looked up. -/
theorem Request.serve_cases {r : Request} {s s' : Session} (h : r.serve s = some s') :
    s' = s.registerAll (r.grammars s) ∨ r.grammars s = [] ∧ Searched s s' := by
  cases r with
  | addEmbedding name e =>
    cases h
    exact Or.inr ⟨rfl, .of_subset rfl rfl rfl (Nat.le_refl _) (List.Subset.refl _)⟩
  | register g =>
    cases h
    exact Or.inl rfl
  | registerDeclarations program declarations =>
    cases h
    exact Or.inl s.orSame_registered
  | registerDocument document =>
    cases h
    exact Or.inl s.orSame_registered
  | loadCatalog files directory =>
    cases h
    exact Or.inl (orSame_loadCatalog files directory s)
  | grammarFor command =>
    obtain ⟨⟨g, looked⟩, hlookup, rfl⟩ := Option.map_eq_some_iff.1 h
    exact Or.inr ⟨rfl, (grammarFor_searched hlookup).1⟩
  | parse program tokens =>
    obtain ⟨⟨line, looked⟩, hparse, rfl⟩ := Option.map_eq_some_iff.1 h
    obtain ⟨⟨g, own, matched⟩, hmatch, heq⟩ := Option.map_eq_some_iff.1 hparse
    obtain ⟨rfl, rfl⟩ := Prod.mk.inj heq
    exact Or.inr ⟨rfl, matchLine_searched hmatch⟩
  | complete generators program tokens =>
    obtain ⟨⟨c, looked⟩, hcomplete, rfl⟩ := Option.map_eq_some_iff.1 h
    exact Or.inr ⟨rfl, complete_searched hcomplete⟩
  | flush force =>
    cases h
    exact Or.inr ⟨rfl, .of_subset rfl rfl rfl (Nat.le_refl _)
      (Cache.entries_flush_sublist s.discovered s.now force).subset⟩
  | advance d =>
    obtain ⟨now, -, rfl⟩ := Option.map_eq_some_iff.1 h
    exact Or.inr ⟨rfl, .of_subset rfl rfl rfl (Nat.le_refl _) (List.Subset.refl _)⟩

/-! ### A sequence of requests -/

/-- A session whose grammars stand under their own names, and whose registered ones are the last
that were registered of each program. -/
structure UpToDate (grammars : List Grammar) (s : Session) : Prop where
  named : s.Named
  registered : ∀ program, s.registered? program = lastFor program grammars

theorem upToDate_start (config : Config) (desk : Option HelpDesk) :
    UpToDate [] (.start config desk) where
  named := ⟨fun _ hr => absurd hr List.not_mem_nil, fun _ he => absurd he List.not_mem_nil⟩
  registered := fun _ => rfl

theorem UpToDate.searched {grammars : List Grammar} {s s' : Session} (h : UpToDate grammars s)
    (hsearched : Searched s s') : UpToDate grammars s' where
  named := hsearched.named h.named
  registered := by
    intro program
    rw [← h.registered program]
    unfold registered?
    rw [hsearched.registered]

theorem UpToDate.registerAll {earlier : List Grammar} {s : Session} (h : UpToDate earlier s)
    (later : List Grammar) : UpToDate (earlier ++ later) (s.registerAll later) where
  named := h.named.registerAll
  registered := by
    intro program
    rw [registered?_registerAll, lastFor_append, h.registered]

/-- A request keeps a session up to date. -/
theorem UpToDate.serve {grammars : List Grammar} {s s' : Session} (h : UpToDate grammars s)
    {r : Request} (hserve : r.serve s = some s') : UpToDate (grammars ++ r.grammars s) s' := by
  rcases Request.serve_cases hserve with rfl | ⟨hnone, hsearched⟩
  · exact h.registerAll _
  · rw [hnone, List.append_nil]
    exact h.searched hsearched

/-- So does every sequence of requests. -/
theorem UpToDate.serveAll {earlier later : List Grammar} {s s' : Session}
    (h : UpToDate earlier s) {requests : List Request}
    (hserve : serveAll requests s = some (later, s')) : UpToDate (earlier ++ later) s' := by
  induction requests generalizing earlier later s with
  | nil =>
    cases hserve
    rw [List.append_nil]
    exact h
  | cons r requests ih =>
    obtain ⟨next, hnext, hserve⟩ := Option.bind_eq_some_iff.1 hserve
    obtain ⟨⟨rest, last⟩, hrest, heq⟩ := Option.map_eq_some_iff.1 hserve
    obtain ⟨rfl, rfl⟩ := Prod.mk.inj heq
    rw [← List.append_assoc]
    exact ih (h.serve hnext) hrest

/-! ### Which grammar is used -/

/-- Whether a session finds a grammar for a program, and reads and completes the lines of the
program with its specifications and, for a word that one of these matched, its hints. -/
structure Uses (s : Session) (program : Text) (g : Grammar) : Prop where
  found : s.grammarFor program = some (some g, s)
  parsed : ∀ tokens, s.parse program tokens =
    let line := Line.parse s.lookup tokens g.members
    (s.replay line.consulted).map fun s' => (line, { s' with editions := s'.editions + 1 })
  completed : ∀ generators tokens c s', s.complete generators program tokens = some (c, s') →
    let line := Line.parse s.lookup tokens g.members
    ∃ guesses, c = Completion.resolve generators { s.config.resolveOptions with guesses := guesses }
        line.history ∧
      ∀ m ∈ line.history.getLast?.bind Record.member, g.owns m = true → guesses = g.guesses

/-- The program's own grammar comes first in the search for an owner. -/
theorem owningGrammar_of_owns {s s' : Session} {g : Grammar} {owner : Option Grammar}
    {history : List Record} {m : Member} (hm : m ∈ history.getLast?.bind Record.member)
    (howns : g.owns m = true) (h : s.owningGrammar (some g) history = some (owner, s')) :
    owner = some g := by
  unfold owningGrammar at h
  rw [Option.mem_def.1 hm] at h
  dsimp only at h
  rw [Option.filter_some, if_pos howns] at h
  cases h
  rfl

theorem uses_of_registered {s : Session} {program : Text} {g : Grammar}
    (h : s.registered? (Line.programName program) = some g) : s.Uses program g := by
  have hfound : s.grammarFor program = some (some g, s) := by
    unfold grammarFor
    dsimp only
    rw [h]
  have hmatch (tokens : List Text) : s.matchLine program tokens
      = (s.replay (Line.parse s.lookup tokens g.members).consulted).map fun s' =>
          (some g, Line.parse s.lookup tokens g.members,
            { s' with editions := s'.editions + 1 }) := by
    unfold matchLine
    rw [hfound, Option.map_eq_bind]
    rfl
  refine ⟨hfound, fun tokens => ?_, fun generators tokens c s' hcomplete => ?_⟩
  · unfold parse
    rw [hmatch, Option.map_map]
    rfl
  · obtain ⟨⟨top, line, matched⟩, hline, hcomplete⟩ := Option.bind_eq_some_iff.1 hcomplete
    obtain ⟨⟨owner, searched⟩, howner, hcomplete⟩ := Option.bind_eq_some_iff.1 hcomplete
    obtain ⟨rfl, rfl⟩ := Prod.mk.inj (Option.some.inj hcomplete)
    have hconfig : searched.config = s.config :=
      (owningGrammar_searched howner).config.trans (matchLine_searched hline).config
    rw [hmatch] at hline
    obtain ⟨replayed, -, heq⟩ := Option.map_eq_some_iff.1 hline
    obtain ⟨rfl, hread⟩ := Prod.mk.inj heq
    obtain ⟨rfl, rfl⟩ := Prod.mk.inj hread
    refine ⟨(owner.map Grammar.guesses).getD [], by rw [hconfig], fun m hm howns => ?_⟩
    rw [owningGrammar_of_owns hm howns howner]
    rfl

/-- **A registered grammar is found by the name of its program without directories.** After any
requests a session uses for a program the grammar last registered under the name of the program. So
the grammar last registered as one of the program itself is used just if the name of the program
has no directories to leave out. -/
theorem found_by_name_iff (config : Config) (desk : Option HelpDesk) (requests : List Request)
    {grammars : List Grammar} {s : Session}
    (hserve : serveAll requests (.start config desk) = some (grammars, s)) :
    (∀ program g, lastFor (Line.programName program) grammars = some g → s.Uses program g) ∧
    ∀ program g, lastFor program grammars = some g →
      (s.Uses program g ↔ Line.programName program = program) := by
  have hcurrent : UpToDate grammars s := (upToDate_start config desk).serveAll hserve
  have huses (program : Text) (g : Grammar)
      (hlast : lastFor (Line.programName program) grammars = some g) : s.Uses program g :=
    uses_of_registered ((hcurrent.registered _).trans hlast)
  refine ⟨huses, fun program g hlast => ⟨fun hused => ?_, fun hname => ?_⟩⟩
  · -- whatever is found stands under the name without directories
    have hprogram : g.program = Line.programName program :=
      (grammarFor_searched hused.found).2 hcurrent.named g rfl
    exact hprogram.symm.trans (program_of_lastFor hlast)
  · exact huses program g (by rw [hname]; exact hlast)

def oneOption (program flag : String) : Grammar :=
  .ofSpecs program.toList [{ name := .flag flag.toList }] []

/-- A grammar in the place of another one, one under a name with a directory, one that is refused,
and a lookup and a flush among them. -/
def toolRequests : List Request :=
  [.register (oneOption "tool" "-a"), .grammarFor "tool".toList,
    .registerDeclarations "bin/tool".toList [{ kind := .option, name := "--only".toList }],
    .registerDeclarations "tool".toList [{ kind := .option, name := "-".toList },
      { kind := .option, name := "-".toList }],
    .register (oneOption "tool" "-b"), .flush true]

theorem found_by_name_iff_tool :
    ∃ grammars s, serveAll toolRequests (.start {} none) = some (grammars, s) ∧
      lastFor "tool".toList grammars = some (oneOption "tool" "-b") ∧
      lastFor "bin/tool".toList grammars = some ((oneOption "bin/tool" "--only").issue 1) ∧
      s.Uses "tool".toList (oneOption "tool" "-b") ∧
      s.Uses "bin/tool".toList (oneOption "tool" "-b") ∧
      ¬ s.Uses "bin/tool".toList ((oneOption "bin/tool" "--only").issue 1) := by
  have hlog : (serveAll toolRequests (.start {} none)).map Prod.fst
      = some [oneOption "tool" "-a", (oneOption "bin/tool" "--only").issue 1,
          oneOption "tool" "-b"] := by
    decide +kernel
  obtain ⟨⟨grammars, s⟩, hserve, rfl⟩ := Option.map_eq_some_iff.1 hlog
  obtain ⟨huses, hiff⟩ := found_by_name_iff {} none toolRequests hserve
  refine ⟨_, s, hserve, by decide, by decide, huses _ _ (by decide), huses _ _ (by decide), ?_⟩
  rw [hiff "bin/tool".toList ((oneOption "bin/tool" "--only").issue 1) (by decide)]
  decide

/-- A grammar alone under a name with a directory is not found by this name. -/
theorem not_found_with_directory :
    ¬ ∀ requests grammars s, serveAll requests (.start {} none) = some (grammars, s) →
      ∀ program g, lastFor program grammars = some g →
        s.grammarFor program = some (some g, s) := by
  intro hclaim
  have hfound := hclaim [.register (oneOption "bin/tool" "--only")] _ _ rfl
    "bin/tool".toList (oneOption "bin/tool" "--only") (by decide)
  have hnone : (grammarFor "bin/tool".toList
      ((start {} none).register (oneOption "bin/tool" "--only"))).map Prod.fst = some none := by
    decide
  rw [hfound] at hnone
  cases hnone

end Session

end CommandGrammar
