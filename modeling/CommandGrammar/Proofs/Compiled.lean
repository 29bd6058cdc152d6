import CommandGrammar.Grammar.Compile
import Mathlib.Data.List.Nodup

/-!
# What compiled grammars have in common

A grammar is `Compiled` if it is what some declarations compile to, in whatever edition. Its
specifications are all `WellFormed`: a positional slot has an action, and the label and the aliases
of a specification are all different. The first is a default of positional declarations, the second
follows from the check that no spelling stands twice in a list, for the aliases of a spelling are
the other spellings of its declaration.

* `spells_of_compileOption`, `eq_singleton_of_compilePositional`: what one declaration compiles to;
* `Grammar.Compiled.forall_mem`: what holds of this, and survives settling and sharing, holds of the
  members of a compiled grammar;
* `Grammar.Compiled.wellFormed`: so they are well formed.
-/

namespace CommandGrammar

/-! ### Compilations that succeed -/

/-- Two steps succeed if the first does and the second does with its result. -/
theorem bind_eq_ok_iff {ε α β : Type} {x : Except ε α} {f : α → Except ε β} {b : β} :
    x >>= f = .ok b ↔ ∃ a, x = .ok a ∧ f a = .ok b := by
  cases x <;> simp [bind, Except.bind]

theorem map_eq_ok_iff {ε α β : Type} {x : Except ε α} {f : α → β} {b : β} :
    x.map f = .ok b ↔ ∃ a, x = .ok a ∧ f a = b := by
  cases x <;> simp [Except.map]

/-- What a successful traversal collects comes from the items it went through. -/
theorem exists_of_mem_mapM {ε α β : Type} {f : α → Except ε β} {items : List α} :
    ∀ {results : List β}, items.mapM f = .ok results →
      ∀ b ∈ results, ∃ a ∈ items, f a = .ok b := by
  induction items with
  | nil =>
    intro results h b hb
    rw [List.mapM_nil] at h
    obtain rfl : [] = results := by simpa [pure, Except.pure] using h
    exact absurd hb List.not_mem_nil
  | cons item items ih =>
    intro results h b hb
    rw [List.mapM_cons, bind_eq_ok_iff] at h
    obtain ⟨first, hfirst, h⟩ := h
    rw [bind_eq_ok_iff] at h
    obtain ⟨others, hothers, h⟩ := h
    obtain rfl : first :: others = results := by simpa [pure, Except.pure] using h
    rcases List.mem_cons.1 hb with rfl | hb
    · exact ⟨item, List.mem_cons_self, hfirst⟩
    · obtain ⟨a, ha, heq⟩ := ih hothers b hb
      exact ⟨a, List.mem_cons_of_mem _ ha, heq⟩

/-- Where a result tells its item, a traversal gives the results of the items, one each. -/
theorem map_of_mapM {ε α β : Type} {f : α → Except ε β} {items : List α} {k : β → α}
    (hk : ∀ a b, f a = .ok b → k b = a) :
    ∀ {results : List β}, items.mapM f = .ok results → results.map k = items := by
  induction items with
  | nil =>
    intro results h
    cases h
    rfl
  | cons item items ih =>
    intro results h
    rw [List.mapM_cons, bind_eq_ok_iff] at h
    obtain ⟨first, hfirst, h⟩ := h
    rw [bind_eq_ok_iff] at h
    obtain ⟨others, hothers, h⟩ := h
    cases h
    rw [List.map_cons, hk item first hfirst, ih hothers]

/-! ### Compilations that fail -/

section Failures

variable {ε ε' α β : Type}

theorem bind_eq_error_iff {x : Except ε α} {f : α → Except ε β} {e : ε} :
    x >>= f = .error e ↔ x = .error e ∨ ∃ a, x = .ok a ∧ f a = .error e := by
  cases x <;> simp [bind, Except.bind]

theorem map_eq_error_iff {x : Except ε α} {f : α → β} {e : ε} :
    x.map f = .error e ↔ x = .error e := by
  cases x <;> simp [Except.map]

theorem mapError_eq_ok_iff {x : Except ε α} {f : ε → ε'} {a : α} :
    x.mapError f = .ok a ↔ x = .ok a := by
  cases x <;> simp [Except.mapError]

theorem mapError_eq_error_iff {x : Except ε α} {f : ε → ε'} {e : ε'} :
    x.mapError f = .error e ↔ ∃ cause, x = .error cause ∧ f cause = e := by
  cases x <;> simp [Except.mapError]

variable {f : α → Except ε β} {items : List α}

/-- A traversal fails with an item that fails. -/
theorem exists_of_mapM_error {e : ε} (h : items.mapM f = .error e) :
    ∃ a ∈ items, f a = .error e := by
  induction items with
  | nil => cases h
  | cons item items ih =>
    rw [List.mapM_cons, bind_eq_error_iff] at h
    rcases h with hfirst | ⟨first, -, h⟩
    · exact ⟨item, List.mem_cons_self, hfirst⟩
    · rcases bind_eq_error_iff.1 h with hrest | ⟨others, -, h⟩
      · obtain ⟨a, ha, heq⟩ := ih hrest
        exact ⟨a, List.mem_cons_of_mem _ ha, heq⟩
      · cases h

/-- So does a traversal that carries something along. -/
theorem exists_of_foldlM_error {g : β → α → Except ε β} {e : ε} :
    ∀ {state : β}, items.foldlM g state = .error e →
      ∃ a ∈ items, ∃ state, g state a = .error e := by
  induction items with
  | nil =>
    intro state h
    cases h
  | cons item items ih =>
    intro state h
    rw [List.foldlM_cons, bind_eq_error_iff] at h
    rcases h with hfirst | ⟨next, -, h⟩
    · exact ⟨item, List.mem_cons_self, state, hfirst⟩
    · obtain ⟨a, ha, heq⟩ := ih h
      exact ⟨a, List.mem_cons_of_mem _ ha, heq⟩

/-- Traversals with steps that are alike on the items are the same. -/
theorem foldlM_congr_of_mem {g g' : β → α → Except ε β}
    (h : ∀ a ∈ items, ∀ state, g state a = g' state a) (state : β) :
    items.foldlM g state = items.foldlM g' state := by
  induction items generalizing state with
  | nil => rfl
  | cons item items ih =>
    rw [List.foldlM_cons, List.foldlM_cons, h item List.mem_cons_self]
    exact bind_congr fun next => ih (fun a ha => h a (List.mem_cons_of_mem _ ha)) next

end Failures

/-! ### Well-formed specifications -/

/-- A positional slot has an action, and no name of a specification stands twice. -/
structure Spec.WellFormed (s : Spec) : Prop where
  slots : s.isPositional = true → s.actions ≠ []
  names : (s.label :: s.aliases).Nodup

theorem Spec.WellFormed.shareWith {s : Spec} (h : s.WellFormed) (donors : List Spec) :
    (s.shareWith donors).WellFormed := by
  refine ⟨fun hpositional => ?_, ?_⟩
  · have hname := Spec.shareWith_name donors s
    have hslots := h.slots (by rwa [isPositional, index?, hname] at hpositional)
    have htakes : s.takesValue = true := by
      unfold takesValue
      cases hactions : s.actions
      · exact absurd hactions hslots
      · rfl
    rwa [Spec.shareWith_of_takesValue donors htakes]
  · rw [label, Spec.shareWith_name, Spec.shareWith_aliases]
    exact h.names

theorem Spec.WellFormed.settle {s : Spec} (h : s.WellFormed) (hints : List GuessRule) :
    (settle hints s).WellFormed := by
  unfold CommandGrammar.settle
  split
  · exact h
  · refine ⟨fun hpositional => ?_, h.names⟩
    have hslots := h.slots hpositional
    simpa using hslots

/-! ### Normalization -/

/-- The spellings in a list pass the check if they are all different, none of them is blank, and
none was seen before. -/
theorem flagError?_eq_none_iff {specs : List Spec} : ∀ {seen : List Text},
    flagError? seen specs = none ↔
      (specs.filterMap Spec.flag?).Nodup ∧
        ∀ flag ∈ specs.filterMap Spec.flag?, Text.isAllBlank flag = false ∧ flag ∉ seen := by
  induction specs with
  | nil => simp [flagError?]
  | cons s specs ih =>
    intro seen
    unfold flagError?
    cases hflag : s.flag? with
    | none =>
      rw [List.filterMap_cons_none hflag]
      exact ih
    | some flag =>
      rw [List.filterMap_cons_some hflag, List.nodup_cons, List.forall_mem_cons]
      dsimp only
      cases hblank : Text.isAllBlank flag with
      | true => simp
      | false =>
        cases hseen : seen.contains flag with
        | true => simp_all
        | false =>
          -- A spelling is seen by all that follow it, so none of them repeats it.
          have hfresh : flag ∉ seen := by simpa using hseen
          simp only [Bool.false_eq_true, if_false, ih, List.mem_cons, not_or]
          constructor
          · rintro ⟨hnodup, hrest⟩
            exact ⟨⟨fun hmem => (hrest flag hmem).2.1 rfl, hnodup⟩, ⟨trivial, hfresh⟩,
              fun other hother => ⟨(hrest other hother).1, (hrest other hother).2.2⟩⟩
          · rintro ⟨⟨hnew, hnodup⟩, -, hrest⟩
            exact ⟨hnodup, fun other hother => ⟨(hrest other hother).1,
              fun heq => hnew (heq ▸ hother), (hrest other hother).2⟩⟩

section Sharing

variable {P : Spec → Prop}
  (hshare : ∀ donors s, (∀ d ∈ donors, P d) → P s → P (s.shareWith donors))

include hshare

theorem forall_mem_shareGroup {specs : List Spec} (h : ∀ s ∈ specs, P s) (group : List Nat) :
    ∀ s ∈ shareGroup specs group, P s := by
  intro s hs
  obtain ⟨i, hi, rfl⟩ := List.mem_mapIdx.1 hs
  split
  · refine hshare _ _ (fun d hd => ?_) (h _ (List.getElem_mem hi))
    obtain ⟨j, -, hj⟩ := List.mem_filterMap.1 (List.mem_filter.1 hd).1
    exact h d (List.mem_of_getElem? hj)
  · exact h _ (List.getElem_mem hi)

theorem forall_mem_foldl_shareStep (starts : List Nat) :
    ∀ state : List Spec × List Nat, (∀ s ∈ state.1, P s) →
      ∀ s ∈ (starts.foldl shareStep state).1, P s := by
  induction starts with
  | nil => exact fun state hstate => hstate
  | cons start starts ih =>
    intro state hstate
    refine ih _ ?_
    unfold shareStep
    split
    · exact hstate
    · exact forall_mem_shareGroup hshare hstate _

/-- What holds of all specifications and survives sharing holds of them after sharing. -/
theorem forall_mem_shareAliases {specs : List Spec} (h : ∀ s ∈ specs, P s) :
    ∀ s ∈ shareAliases specs, P s :=
  forall_mem_foldl_shareStep hshare _ (specs, []) h

/-- What holds of all specifications and survives settling and sharing holds of them after they
have been normalized. -/
theorem forall_mem_of_normalize (hsettle : ∀ hints s, P s → P (settle hints s))
    {options : CompileOptions} {specs out : List Spec} (h : normalize options specs = .ok out)
    (hspecs : ∀ s ∈ specs, P s) : ∀ s ∈ out, P s := by
  have hsettled : ∀ s ∈ specs.map (settle options.guesses), P s := by
    intro s hs
    obtain ⟨s', hs', rfl⟩ := List.mem_map.1 hs
    exact hsettle options.guesses s' (hspecs s' hs')
  unfold normalize at h
  split at h
  · exact absurd h (by simp)
  · obtain rfl := Except.ok.inj h
    split
    · exact hsettled
    · exact forall_mem_shareAliases hshare hsettled

end Sharing

theorem nodup_of_normalize {options : CompileOptions} {specs out : List Spec}
    (h : normalize options specs = .ok out) : (specs.filterMap Spec.flag?).Nodup := by
  unfold normalize firstError? at h
  cases herror : flagError? [] specs with
  | some e => simp [herror] at h
  | none => exact (flagError?_eq_none_iff.1 herror).1

/-! ### Declarations -/

/-- What the specification of one spelling takes from the forms of all. -/
structure Spec.Spells (s : Spec) (forms : List Descriptor.FlagSyntax)
    (form : Descriptor.FlagSyntax) : Prop where
  name : s.name = .flag form.flag
  aliases : s.aliases
    = (forms.map Descriptor.FlagSyntax.flag).filter (fun other => other != form.flag)
  style : s.style = form.style
  delimiter : s.delimiter = form.delimiter
  suffix : s.suffix = form.suffix

theorem Spec.Spells.flag? {s : Spec} {forms : List Descriptor.FlagSyntax}
    {form : Descriptor.FlagSyntax} (h : s.Spells forms form) : s.flag? = some form.flag := by
  rw [Spec.flag?, h.name]

/-- The spellings of specifications made from some forms are those of the forms. -/
theorem flags_mapIdx {f : Nat → Descriptor.FlagSyntax → Spec}
    (hname : ∀ i form, (f i form).name = .flag form.flag) (forms : List Descriptor.FlagSyntax) :
    (forms.mapIdx f).filterMap Spec.flag? = forms.map Descriptor.FlagSyntax.flag := by
  induction forms generalizing f with
  | nil => rfl
  | cons form forms ih =>
    have hflag : (f 0 form).flag? = some form.flag := by rw [Spec.flag?, hname]
    rw [List.mapIdx_cons, List.filterMap_cons_some hflag, List.map_cons,
      ih fun i form => hname (i + 1) form]

/-- **What an option compiles to**: one specification for each spelling of the descriptor. -/
theorem spells_of_compileOption {d : Declaration} {excludes : List Exclusion}
    {embedded : Option Embedding} {specs : List Spec}
    (h : d.compileOption excludes embedded = .ok specs) :
    ∃ forms, (Descriptor.splitSpellings (Descriptor.splitHelp d.name).1).mapM
        Descriptor.parseSpelling = .ok forms ∧
      specs.filterMap Spec.flag? = forms.map Descriptor.FlagSyntax.flag ∧
      ∀ s ∈ specs, ∃ form ∈ forms, s.Spells forms form := by
  unfold Declaration.compileOption at h
  dsimp only at h
  rw [bind_eq_ok_iff] at h
  obtain ⟨forms, hforms, h⟩ := h
  split at h
  · exact absurd h (by simp)
  · obtain rfl := Except.ok.inj h
    refine ⟨forms, hforms, flags_mapIdx (fun i form => rfl) forms, fun s hs => ?_⟩
    obtain ⟨i, hi, rfl⟩ := List.mem_mapIdx.1 hs
    exact ⟨forms[i], List.getElem_mem hi, rfl, rfl, rfl, rfl, rfl⟩

/-- **What a positional declaration compiles to**: one slot with an action, joined to nothing. -/
theorem eq_singleton_of_compilePositional {d : Declaration} {excludes : List Exclusion}
    {embedded : Option Embedding} {specs : List Spec}
    (h : d.compilePositional excludes embedded = .ok specs) :
    ∃ s index, specs = [s] ∧ s.name = .positional index ∧ s.aliases = [] ∧ s.actions ≠ [] ∧
      s.style = .separate ∧ s.suffix = [' '] := by
  unfold Declaration.compilePositional at h
  dsimp only at h
  split at h
  · exact absurd h (by simp)
  · rw [bind_eq_ok_iff] at h
    obtain ⟨index, -, h⟩ := h
    refine ⟨_, index, (Except.ok.inj h).symm, rfl, rfl, ?_, rfl, rfl⟩
    dsimp only
    split
    · exact List.cons_ne_nil _ _
    · rename_i hactions
      simpa using hactions

theorem compile_cases {options : CompileOptions} {d : Declaration} {specs : List Spec}
    (h : d.compile options = .ok specs) :
    ∃ excludes embedded, d.compileOption excludes embedded = .ok specs ∨
      d.compilePositional excludes embedded = .ok specs := by
  unfold Declaration.compile at h
  obtain ⟨excludes, -, h⟩ := bind_eq_ok_iff.1 h
  obtain ⟨embedded, -, h⟩ := bind_eq_ok_iff.1 h
  split at h
  · exact ⟨excludes, embedded, Or.inl h⟩
  · exact ⟨excludes, embedded, Or.inr h⟩

/-- Every specification comes from one of the declarations. -/
theorem exists_of_mem_compileEach {options : CompileOptions} {declarations : List Declaration}
    {specs : List Spec} (h : compileEach options declarations = .ok specs) {s : Spec}
    (hs : s ∈ specs) :
    ∃ (d : Declaration) (own : List Spec), d.compile options = .ok own ∧ s ∈ own ∧
      own.Sublist specs := by
  unfold compileEach at h
  obtain ⟨each, heach, rfl⟩ := map_eq_ok_iff.1 h
  obtain ⟨own, hown, hs⟩ := List.mem_flatten.1 hs
  obtain ⟨d, -, hd⟩ := exists_of_mem_mapM heach own hown
  exact ⟨d, own, hd, hs, List.sublist_flatten_of_mem hown⟩

/-- The specifications of a declaration are well formed if its spellings differ. -/
theorem wellFormed_of_declaration {options : CompileOptions} {d : Declaration} {specs : List Spec}
    (h : d.compile options = .ok specs) (hnodup : (specs.filterMap Spec.flag?).Nodup) :
    ∀ s ∈ specs, s.WellFormed := by
  intro s hs
  obtain ⟨excludes, embedded, hoption | hpositional⟩ := compile_cases h
  · obtain ⟨forms, -, hflags, hspells⟩ := spells_of_compileOption hoption
    obtain ⟨form, -, hform⟩ := hspells s hs
    refine ⟨fun hslot => ?_, ?_⟩
    · simp [Spec.isPositional, Spec.index?, hform.name] at hslot
    · rw [hflags] at hnodup
      rw [Spec.label, hform.name, hform.aliases]
      refine List.nodup_cons.2 ⟨?_, hnodup.filter _⟩
      simp [SpecName.write]
  · obtain ⟨s', index, rfl, -, haliases, hactions, -⟩ :=
      eq_singleton_of_compilePositional hpositional
    obtain rfl := List.mem_singleton.1 hs
    refine ⟨fun _ => hactions, ?_⟩
    rw [haliases]
    exact List.nodup_singleton _

/-! ### Grammars -/

/-- A grammar as compilation makes it, in any edition. -/
def Grammar.Compiled (g : Grammar) : Prop :=
  ∃ (options : CompileOptions) (program : Text) (declarations : List Declaration)
    (compiled : Grammar) (edition : Nat),
    compileGrammar options program declarations = .ok compiled ∧ g = compiled.issue edition

/-- The first edition of a grammar is the grammar itself. -/
theorem Grammar.issue_ofSpecs (program : Text) (specs : List Spec) (guesses : List GuessRule) :
    (ofSpecs program specs guesses).issue 0 = ofSpecs program specs guesses := by
  rw [issue, specs_ofSpecs]
  rfl

theorem Grammar.compiled_of_compileGrammar {options : CompileOptions} {program : Text}
    {declarations : List Declaration} {g : Grammar}
    (h : compileGrammar options program declarations = .ok g) : g.Compiled := by
  refine ⟨options, program, declarations, g, 0, h, ?_⟩
  obtain ⟨specs, -, rfl⟩ := map_eq_ok_iff.1 h
  exact (issue_ofSpecs program specs options.guesses).symm

/-- The specifications of a compiled grammar are what some declarations compile to. -/
theorem Grammar.Compiled.exists_compile {g : Grammar} (h : g.Compiled) :
    ∃ options declarations, compile options declarations = .ok g.specs := by
  obtain ⟨options, program, declarations, compiled, edition, hcompiled, rfl⟩ := h
  obtain ⟨specs, hspecs, rfl⟩ := map_eq_ok_iff.1 hcompiled
  rw [specs_issue, specs_ofSpecs]
  exact ⟨options, declarations, hspecs⟩

/-- What holds of the specifications of every declaration and survives settling and sharing holds of
all members of a compiled grammar. -/
theorem Grammar.Compiled.forall_mem {P : Spec → Prop}
    (hdeclaration : ∀ options (d : Declaration) own, d.compile options = .ok own →
      (own.filterMap Spec.flag?).Nodup → ∀ s ∈ own, P s)
    (hsettle : ∀ hints s, P s → P (settle hints s))
    (hshare : ∀ donors s, (∀ d ∈ donors, P d) → P s → P (s.shareWith donors)) {g : Grammar}
    (h : g.Compiled) : ∀ m ∈ g.members, P m.spec := by
  obtain ⟨options, declarations, hcompile⟩ := h.exists_compile
  obtain ⟨each, heach, hnormalize⟩ := bind_eq_ok_iff.1 hcompile
  have hnodup := nodup_of_normalize hnormalize
  have hspecs : ∀ s ∈ g.specs, P s := by
    refine forall_mem_of_normalize hshare hsettle hnormalize fun s hs => ?_
    obtain ⟨d, own, hd, hs, hsub⟩ := exists_of_mem_compileEach heach hs
    exact hdeclaration options d own hd ((hsub.filterMap Spec.flag?).nodup hnodup) s hs
  exact fun m hm => hspecs m.spec (List.mem_map_of_mem hm)

/-- **The members of a compiled grammar are well formed.** -/
theorem Grammar.Compiled.wellFormed {g : Grammar} (h : g.Compiled) :
    ∀ m ∈ g.members, m.spec.WellFormed :=
  h.forall_mem (fun _ _ _ => wellFormed_of_declaration) (fun hints _ hs => hs.settle hints)
    fun donors _ _ hs => hs.shareWith donors

/-! ### Two compiled grammars -/

/-- A search tool that hands words over to another command. -/
def searchGrammar : Grammar :=
  .ofSpecs "find".toList
    [{ name := .flag "-name".toList,
       actions := [{ metavar := "PATTERN".toList, source := .static 0 .files }] },
      { name := .flag "-exec".toList, embedded := some { terminators := [[';'], ['+']] } },
      { name := .positional .rest, actions := [{ metavar := "PATH".toList }] }] []

theorem searchGrammar_compiled : searchGrammar.Compiled := by
  have h : compileGrammar { embeddings := builtinEmbeddings } "find".toList
      [{ kind := .option, name := "-name".toList,
          actions := [{ metavar := "PATTERN".toList, source := .keyword .files }] },
        { kind := .option, name := "-exec".toList, embeddingName := some "exec".toList },
        .positional "* PATH".toList] = .ok searchGrammar := rfl
  exact Grammar.compiled_of_compileGrammar h

/-- A command with two spellings of one option. -/
def listGrammar : Grammar :=
  .ofSpecs "ls".toList
    [{ name := .flag "-a".toList, aliases := ["--all".toList] },
      { name := .flag "--all".toList, aliases := ["-a".toList] },
      { name := .positional .rest, actions := [{ metavar := "FILE".toList }] }] []

theorem listGrammar_compiled : listGrammar.Compiled := by
  have h : compileGrammar {} "ls".toList
      [.option "-a, --all".toList, .positional "* FILE".toList] = .ok listGrammar := rfl
  exact Grammar.compiled_of_compileGrammar h

/-- The grammar of the command that the search tool may run. -/
def listLookup (program : Text) : Option Grammar :=
  if program = "ls".toList then some listGrammar else none

theorem listLookup_compiled (program : Text) (g : Grammar) (h : listLookup program = some g) :
    g.Compiled := by
  unfold listLookup at h
  split at h
  · obtain rfl := Option.some.inj h
    exact listGrammar_compiled
  · exact absurd h (by simp)

end CommandGrammar
