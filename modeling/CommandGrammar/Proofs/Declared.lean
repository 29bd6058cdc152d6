import CommandGrammar.Proofs.Composition
import CommandGrammar.Proofs.Lookup

/-!
# The spellings of one declaration

An option declaration compiles to one specification for each of its spellings, and every one of
them lists all the others as its aliases. Sharing then works inside the declaration: the spellings
with value slots of their own stay as they are, and every other one takes the slots of the first of
these that belongs to its length class, or of the first of all if its class has none.

`SharesSlots` says this field by field, for the specifications of a declaration before and after
sharing; before sharing they are what the declaration compiles to when spellings keep their slots
to themselves.

* `getElem?_of_compileOption`: what the spelling in each place compiles to;
* `exists_own_of_compile`: a declaration among others is compiled as if it stood alone;
* `sharesSlots_normalized`: sharing inside one declaration;
* `compile_shares_slots`: sharing in everything that some declarations compile to;
* `exists_actions_of_one_carrier`: the case of one spelling with a value descriptor;
* `mem_names_normalized`: every spelling is known under all of them.
-/

namespace CommandGrammar

/-! ### One specification for each spelling -/

/-- The surface forms of the spellings of an option, in their order. -/
def Declaration.forms (d : Declaration) : Except GrammarError (List Descriptor.FlagSyntax) :=
  (Descriptor.splitSpellings (Descriptor.splitHelp d.name).1).mapM Descriptor.parseSpelling

/-- The place of the spelling that gets the declared slots: the first with a value descriptor. -/
def carrier (forms : List Descriptor.FlagSyntax) : Nat :=
  (forms.findIdx? fun form => !form.metavars.isEmpty).getD 0

/-- What the spelling in a given place takes from its declaration. -/
structure Spec.Declares (s : Spec) (d : Declaration) (forms : List Descriptor.FlagSyntax)
    (i : Nat) (form : Descriptor.FlagSyntax) : Prop where
  spells : s.Spells forms form
  independent : s.independent = d.independent
  actions : s.actions
    = Declaration.spellingActions (d.actions.map ActionDecl.toAction) (carrier forms) i
        form.metavars

theorem getElem?_of_compileOption {d : Declaration} {excludes : List Exclusion}
    {embedded : Option Embedding} {specs : List Spec}
    (h : d.compileOption excludes embedded = .ok specs) :
    ∃ forms, d.forms = .ok forms ∧
      specs.map Spec.flag? = forms.map (fun form => some form.flag) ∧
      ∀ (i : Nat) (s : Spec), specs[i]? = some s →
        ∃ form, forms[i]? = some form ∧ s.Declares d forms i form := by
  unfold Declaration.compileOption at h
  dsimp only at h
  rw [bind_eq_ok_iff] at h
  obtain ⟨forms, hforms, h⟩ := h
  split at h
  · exact absurd h (by simp)
  · obtain rfl := Except.ok.inj h
    refine ⟨forms, hforms, ?_, fun i s hs => ?_⟩
    · apply List.ext_getElem?
      intro i
      simp [Spec.flag?, Function.comp_def]
    · rw [List.getElem?_mapIdx, Option.map_eq_some_iff] at hs
      obtain ⟨form, hform, rfl⟩ := hs
      exact ⟨form, hform, ⟨rfl, rfl, rfl, rfl, rfl⟩, rfl, rfl⟩

/-- An option declaration compiles to the specifications of its spellings. -/
theorem exists_compileOption {options : CompileOptions} {d : Declaration} {specs : List Spec}
    (hkind : d.kind = .option) (h : d.compile options = .ok specs) :
    ∃ excludes embedded, d.compileOption excludes embedded = .ok specs := by
  unfold Declaration.compile at h
  obtain ⟨excludes, -, h⟩ := bind_eq_ok_iff.1 h
  obtain ⟨embedded, -, h⟩ := bind_eq_ok_iff.1 h
  rw [hkind] at h
  exact ⟨excludes, embedded, h⟩

/-! ### One declaration among others -/

theorem compile_eq_ok_iff {options : CompileOptions} {declarations : List Declaration}
    {specs : List Spec} :
    compile options declarations = .ok specs ↔
      ∃ each, compileEach options declarations = .ok each ∧ Valid each ∧
        specs = normalized options each := by
  have hbind : compile options declarations = .ok specs ↔
      ∃ each, compileEach options declarations = .ok each ∧
        normalize options each = .ok specs := bind_eq_ok_iff
  simp only [hbind, normalize_eq_ok_iff]

/-- **A declaration among others** is compiled as if it stood alone. -/
theorem exists_own_of_compile {options : CompileOptions} {earlier later : List Declaration}
    {d : Declaration} {specs : List Spec}
    (h : compile options (earlier ++ d :: later) = .ok specs) :
    ∃ own before after, d.compile options = .ok own ∧ Valid own ∧
      compile options earlier = .ok before ∧ compile options later = .ok after ∧
      specs = before ++ normalized options own ++ after := by
  obtain ⟨each, heach, h⟩ := bind_eq_ok_iff.1 h
  obtain ⟨first, rest, hfirst, hrest, rfl⟩ := compileEach_append_iff.1 heach
  obtain ⟨before, out, hbefore, hout, -, rfl⟩ :=
    (normalize_append_iff (selfContained_of_compileEach hfirst)
      (selfContained_of_compileEach hrest)).1 h
  rw [← List.singleton_append] at hrest
  obtain ⟨own, others, hown, hothers, rfl⟩ := compileEach_append_iff.1 hrest
  obtain ⟨middle, after, hmiddle, hafter, -, rfl⟩ :=
    (normalize_append_iff (selfContained_of_compileEach hown)
      (selfContained_of_compileEach hothers)).1 hout
  obtain ⟨hvalid, rfl⟩ := normalize_eq_ok_iff.1 hmiddle
  rw [compileEach_singleton] at hown
  refine ⟨own, before, after, hown, hvalid, ?_, ?_, (List.append_assoc _ _ _).symm⟩
  · exact bind_eq_ok_iff.2 ⟨first, hfirst, hbefore⟩
  · exact bind_eq_ok_iff.2 ⟨others, hothers, hafter⟩

/-! ### Sharing inside one declaration -/

/-- What a spelling has become when it has taken the value slots of a donor. -/
structure Spec.TakesSlots (s donor t : Spec) : Prop where
  actions : t.actions = donor.actions
  style : t.style = donor.style
  valueOptional : t.valueOptional = donor.valueOptional
  repeatable : t.repeatable = (s.repeatable || donor.repeatable)
  /-- From a donor of its own length class it takes the joints as they are. -/
  sameClass : donor.isLong = s.isLong → t.delimiter = donor.delimiter ∧ t.suffix = donor.suffix
  separate : donor.isLong ≠ s.isLong → donor.style = .separate →
    t.delimiter = [] ∧ t.suffix = [' ']
  joined : donor.isLong ≠ s.isLong → donor.style ≠ .separate →
    t.delimiter = (if s.isLong then ['='] else []) ∧
      t.suffix = flagSuffix donor.style t.delimiter s.isLong
  name : t.name = s.name
  aliases : t.aliases = s.aliases
  excludes : t.excludes = s.excludes
  help : t.help = s.help
  embedded : t.embedded = s.embedded
  independent : t.independent = s.independent

/-- Whether a spelling is the donor of another one: the first with value slots among those of the
same length class, or the first of all if the class has none. -/
def Spec.IsDonorFor (own : List Spec) (s donor : Spec) : Prop :=
  own.find? (fun t => t.takesValue && t.isLong == s.isLong) = some donor ∨
    (own.find? (fun t => t.takesValue && t.isLong == s.isLong) = none ∧
      own.find? Spec.takesValue = some donor)

/-- What sharing makes of the spellings of one declaration, place by place. -/
structure SharesSlots (independent : Bool) (own shared : List Spec) : Prop where
  apart : independent = true ∨ (∀ s ∈ own, s.takesValue = false) → shared = own
  kept : ∀ (i : Nat) (s : Spec), own[i]? = some s → s.takesValue = true → shared[i]? = some s
  taken : independent = false → (∃ t ∈ own, t.takesValue = true) →
    ∀ (i : Nat) (s : Spec), own[i]? = some s → s.takesValue = false →
      ∃ donor t, Spec.IsDonorFor own s donor ∧ shared[i]? = some t ∧ s.TakesSlots donor t

theorem Spec.takesSlots_receive (s donor : Spec) : s.TakesSlots donor (s.receive donor) where
  actions := rfl
  style := rfl
  valueOptional := rfl
  repeatable := rfl
  sameClass := by
    intro hclass
    simp [receive, receivedSuffix, receivedDelimiter, hclass]
  separate := by
    intro hclass hstyle
    simp [receive, receivedSuffix, receivedDelimiter, hclass, hstyle, flagSuffix]
  joined := by
    intro hclass hstyle
    simp [receive, receivedSuffix, receivedDelimiter, hclass, hstyle, inlineDelimiter]
  name := rfl
  aliases := rfl
  excludes := rfl
  help := rfl
  embedded := rfl
  independent := rfl

/-- If a spelling has value slots, there is a donor for every other one. -/
theorem exists_donorFor {own : List Spec} (hshares : ∀ s ∈ own, s.independent = false)
    (hdonor : ∃ t ∈ own, t.takesValue = true) (s : Spec) :
    ∃ donor, Spec.donorFor? (own.filter Spec.isDonor) s = some donor ∧
      Spec.IsDonorFor own s donor := by
  have hdonors : own.filter Spec.isDonor = own.filter Spec.takesValue := by
    refine List.filter_congr fun t ht => ?_
    rw [Spec.isDonor, hshares t ht]
    exact Bool.and_true _
  have hsame : (own.filter Spec.takesValue).find? (fun t => t.isLong == s.isLong)
      = own.find? fun t => t.takesValue && t.isLong == s.isLong := by
    rw [List.find?_filter]
    simp only [Bool.decide_and, Bool.decide_eq_true]
  unfold Spec.donorFor? Spec.IsDonorFor
  rw [hdonors, hsame, List.head?_filter]
  cases hclass : own.find? (fun t => t.takesValue && t.isLong == s.isLong) with
  | some donor => exact ⟨donor, rfl, Or.inl rfl⟩
  | none =>
    obtain ⟨t, ht, htakes⟩ := hdonor
    obtain ⟨donor, hfirst⟩ := Option.isSome_iff_exists.1 (List.find?_isSome.2 ⟨t, ht, htakes⟩)
    exact ⟨donor, hfirst, Or.inr ⟨rfl, hfirst⟩⟩

/-- **Sharing inside one declaration.** If all specifications are of one class, and all of them
keep their slots to themselves or none does, they share as `SharesSlots` says. -/
theorem sharesSlots_map {own : List Spec} {independent : Bool}
    (hown : ∀ s ∈ own, s.independent = independent) :
    SharesSlots independent own (own.map fun s => s.shareWith (own.filter Spec.isDonor)) := by
  have hmem : ∀ {i : Nat} {s : Spec}, own[i]? = some s → s ∈ own := List.mem_of_getElem?
  refine ⟨fun hapart => ?_, fun i s hs htakes => ?_, fun hshares hdonor i s hs htakes => ?_⟩
  · -- Either nobody may give anything, or nobody has anything to give.
    have hnone : own.filter Spec.isDonor = [] := by
      refine List.filter_eq_nil_iff.2 fun t ht => ?_
      rw [Spec.isDonor, hown t ht]
      rcases hapart with rfl | hslots
      · simp
      · simp [hslots t ht]
    rw [hnone]
    simp
  · rw [List.getElem?_map, hs, Option.map_some, Spec.shareWith_of_takesValue _ htakes]
  · obtain ⟨donor, hfind, hdonor⟩ :=
      exists_donorFor (fun t ht => (hown t ht).trans hshares) hdonor s
    have hrecipient : s.isRecipient = true := by
      rw [Spec.isRecipient, htakes, hown s (hmem hs), hshares]
      rfl
    refine ⟨donor, s.receive donor, hdonor, ?_, s.takesSlots_receive donor⟩
    rw [List.getElem?_map, hs, Option.map_some, Spec.shareWith, if_pos hrecipient, hfind]

section OneOption

variable {options : CompileOptions} {d : Declaration} {excludes : List Exclusion}
  {embedded : Option Embedding} {own : List Spec} (hsharing : options.noSharing = false)
  (hown : d.compileOption excludes embedded = .ok own) (hvalid : Valid own)

include hsharing hown hvalid

/-- All spellings of a declaration have the same donors. -/
theorem normalized_eq_map_shareWith :
    normalized options own = (own.map (settle options.guesses)).map
      fun s => s.shareWith ((own.map (settle options.guesses)).filter Spec.isDonor) := by
  obtain ⟨_, -, hspells, hclass⟩ := spells_of_compileOption hown
  have hsettle := keepsNames_settle options.guesses
  have hone : ∀ s ∈ own, ∀ t ∈ own, s.isSpelledBy t = true := by
    refine isSpelledBy_of_spellings hspells fun s hs => ?_
    obtain ⟨form, -, hform⟩ := hclass s hs
    exact ⟨form.flag, hform.flag?, hform.aliases⟩
  have hagree : AliasesAgree own := by
    intro s hs t ht _ u hu
    rw [hone s hs u hu, hone t ht u hu]
  rw [normalized, hsharing, if_neg Bool.false_ne_true,
    shareAliases_eq_map (hsettle.valid_map hvalid).nodup (hsettle.agree_map hagree)]
  refine List.map_congr_left fun s hs => ?_
  congr 1
  refine List.filter_congr fun t ht => ?_
  obtain ⟨s', hs', rfl⟩ := List.mem_map.1 hs
  obtain ⟨t', ht', rfl⟩ := List.mem_map.1 ht
  rw [hsettle.isSpelledBy, hone s' hs' t' ht', Bool.and_true]

/-- The specifications of a declaration once its guesses are settled and its slots shared. -/
theorem sharesSlots_normalized :
    SharesSlots d.independent (own.map (settle options.guesses)) (normalized options own) := by
  obtain ⟨_, -, -, hspelled⟩ := getElem?_of_compileOption hown
  rw [normalized_eq_map_shareWith hsharing hown hvalid]
  refine sharesSlots_map fun s hs => ?_
  obtain ⟨s', hs', rfl⟩ := List.mem_map.1 hs
  obtain ⟨i, hi⟩ := List.mem_iff_getElem?.1 hs'
  obtain ⟨form, -, hform⟩ := hspelled i s' hi
  rw [independent_settle, hform.independent]

end OneOption

/-! ### Everything that is compiled -/

/-- Normalizing keeps names and aliases in their places. -/
theorem names_normalized (options : CompileOptions) {specs : List Spec}
    (hnodup : (specs.filterMap Spec.flag?).Nodup) (hagree : AliasesAgree specs) :
    (normalized options specs).map (fun s => (s.name, s.aliases))
      = specs.map fun s => (s.name, s.aliases) := by
  have hkeeps : ∀ {f : Spec → Spec}, KeepsNames f → ∀ specs : List Spec,
      (specs.map f).map (fun s => (s.name, s.aliases))
        = specs.map fun s => (s.name, s.aliases) := by
    intro f hf specs
    rw [List.map_map]
    refine List.map_congr_left fun s _ => ?_
    show ((f s).name, (f s).aliases) = (s.name, s.aliases)
    rw [hf.name, hf.aliases]
  have hsettle := keepsNames_settle options.guesses
  unfold normalized
  split
  · exact hkeeps hsettle specs
  · rw [← hsettle.flags_map specs] at hnodup
    rw [shareAliases_eq_map hnodup (hsettle.agree_map hagree), hkeeps (keepsNames_shareWith _),
      hkeeps hsettle]

/-- No spelling is blank in what declarations compile to. -/
theorem notBlank_of_compile {options : CompileOptions} {declarations : List Declaration}
    {specs : List Spec} (h : compile options declarations = .ok specs) :
    ∀ flag ∈ specs.filterMap Spec.flag?, Text.isAllBlank flag = false := by
  obtain ⟨each, heach, hvalid, rfl⟩ := compile_eq_ok_iff.1 h
  rw [flags_normalized options hvalid.nodup
    (selfContained_of_compileEach heach hvalid.nodup).agree]
  exact hvalid.notBlank

/-- The aliases of the spelling in each place are the other spellings in their order. -/
theorem aliases_of_compileOption {d : Declaration} {excludes : List Exclusion}
    {embedded : Option Embedding} {own : List Spec}
    (hown : d.compileOption excludes embedded = .ok own)
    (hnodup : (own.filterMap Spec.flag?).Nodup) {forms : List Descriptor.FlagSyntax}
    (hforms : d.forms = .ok forms) {i : Nat} {s : Spec} (hs : own[i]? = some s) :
    s.aliases = (forms.map Descriptor.FlagSyntax.flag).eraseIdx i := by
  obtain ⟨forms', hforms', -, hdeclared⟩ := getElem?_of_compileOption hown
  obtain rfl : forms' = forms := Except.ok.inj (hforms'.symm.trans hforms)
  obtain ⟨forms'', hforms'', hflags, -⟩ := spells_of_compileOption hown
  obtain rfl : forms'' = forms' := Except.ok.inj (hforms''.symm.trans hforms)
  rw [hflags] at hnodup
  obtain ⟨form, hform, hdeclares⟩ := hdeclared i s hs
  obtain ⟨hi, hplace⟩ := List.getElem?_eq_some_iff.1 hform
  have hlt : i < (forms''.map Descriptor.FlagSyntax.flag).length := by simpa using hi
  have hflag : (forms''.map Descriptor.FlagSyntax.flag)[i] = form.flag := by
    rw [List.getElem_map, hplace]
  rw [hdeclares.spells.aliases, ← hflag, ← hnodup.erase_eq_filter, hnodup.erase_getElem]

/-- **Sharing between the spellings of a declaration**, in whatever company it is compiled. -/
theorem compile_shares_slots {options : CompileOptions} {earlier later : List Declaration}
    {d : Declaration} {specs : List Spec} (hsharing : options.noSharing = false)
    (hkind : d.kind = .option) (h : compile options (earlier ++ d :: later) = .ok specs) :
    (specs.filterMap Spec.flag?).Nodup ∧
      (∀ flag ∈ specs.filterMap Spec.flag?, Text.isAllBlank flag = false) ∧
      ∃ before own shared after forms,
        specs = before ++ shared ++ after ∧ compile options earlier = .ok before ∧
        compile options later = .ok after ∧
        compile { options with noSharing := true } [d] = .ok own ∧ d.forms = .ok forms ∧
        own.map Spec.flag? = forms.map (fun form => some form.flag) ∧
        shared.map Spec.flag? = forms.map (fun form => some form.flag) ∧
        (∀ (i : Nat) (s : Spec), shared[i]? = some s →
          s.aliases = (forms.map Descriptor.FlagSyntax.flag).eraseIdx i) ∧
        SharesSlots d.independent own shared := by
  refine ⟨nodup_of_compile h, notBlank_of_compile h, ?_⟩
  obtain ⟨own, before, after, hcompile, hvalid, hbefore, hafter, rfl⟩ := exists_own_of_compile h
  obtain ⟨excludes, embedded, hown⟩ := exists_compileOption hkind hcompile
  obtain ⟨forms, hforms, hflags, -⟩ := getElem?_of_compileOption hown
  have hself := selfContained_of_declaration hcompile
  have hnames := names_normalized options hvalid.nodup hself.agree
  have halone : compile { options with noSharing := true } [d]
      = .ok (own.map (settle options.guesses)) := by
    refine compile_eq_ok_iff.2 ⟨own, ?_, hvalid, rfl⟩
    rw [compileEach_singleton]
    exact hcompile
  -- Names and aliases are those before sharing, which are those of the surface forms.
  have hflag : ∀ specs : List Spec,
      specs.map (fun s => (s.name, s.aliases)) = own.map (fun s => (s.name, s.aliases)) →
      specs.map Spec.flag? = forms.map (fun form => some form.flag) := by
    intro specs hsame
    rw [← hflags]
    have hnamed := congrArg (List.map fun entry : SpecName × List Text =>
      Spec.flag? { name := entry.1 }) hsame
    rw [List.map_map, List.map_map] at hnamed
    exact hnamed
  refine ⟨before, own.map (settle options.guesses), normalized options own, after, forms, rfl,
    hbefore, hafter, halone, hforms, ?_, hflag _ hnames, ?_,
    sharesSlots_normalized hsharing hown hvalid⟩
  · rw [List.map_map, ← hflags]
    exact List.map_congr_left fun s _ => (keepsNames_settle options.guesses).flag? s
  · intro i s hs
    have hplace := congrArg (fun entries => entries[i]?) hnames
    simp only [List.getElem?_map, hs, Option.map_some] at hplace
    obtain ⟨s', hs', hsame⟩ := Option.map_eq_some_iff.1 hplace.symm
    rw [← aliases_of_compileOption hown hvalid.nodup hforms hs']
    exact (congrArg Prod.snd hsame).symm

/-- Four spellings of one option, of which the second and the third have a value slot. -/
def colorDeclaration : Declaration :=
  .option "-c, -C\x7bdark,light\x7d, --color[=\x7bauto,never\x7d], --colour".toList

/-- The first spelling takes the slot of the second, the last one that of the third. -/
theorem compile_shares_slots_color :
    ∃ specs, compile {} ([.option "-v".toList] ++ colorDeclaration :: []) = .ok specs ∧
      colorDeclaration.kind = .option ∧ (specs.filterMap Spec.flag?).Nodup ∧
      ∃ before own shared after,
        specs = before ++ shared ++ after ∧
        compile { noSharing := true } [colorDeclaration] = .ok own ∧
        SharesSlots false own shared := by
  have hcompile : ∃ specs, compile {} ([.option "-v".toList] ++ colorDeclaration :: [])
      = .ok specs := ⟨_, rfl⟩
  obtain ⟨specs, hcompile⟩ := hcompile
  obtain ⟨hnodup, -, before, own, shared, after, _, hspecs, -, -, hown, -, -, -, -, hshares⟩ :=
    compile_shares_slots rfl rfl hcompile
  exact ⟨specs, hcompile, rfl, hnodup, before, own, shared, after, hspecs, hown, hshares⟩

/-! ### One spelling with a value descriptor -/

section OneCarrier

variable {first last : List Descriptor.FlagSyntax} {form : Descriptor.FlagSyntax}
  (hform : form.metavars ≠ []) (hbare : ∀ other ∈ first ++ last, other.metavars = [])

include hform hbare

theorem carrier_append : carrier (first ++ form :: last) = first.length := by
  have hfirst : first.findIdx? (fun form => !form.metavars.isEmpty) = none := by
    refine List.findIdx?_eq_none_iff.2 fun other hother => ?_
    rw [hbare other (List.mem_append_left _ hother)]
    rfl
  have hhere : (!form.metavars.isEmpty) = true := by simpa using hform
  unfold carrier
  rw [List.findIdx?_append, hfirst, List.findIdx?_cons, if_pos hhere]
  simp

/-- Declared slots go to the spelling with the value descriptor, and to no other. -/
theorem Spec.Declares.takesValue_iff {s : Spec} {d : Declaration} {i : Nat}
    {own : Descriptor.FlagSyntax} (h : s.Declares d (first ++ form :: last) i own)
    (hown : (first ++ form :: last)[i]? = some own) : s.takesValue = true ↔ i = first.length := by
  rw [Spec.takesValue_iff, h.actions, carrier_append hform hbare]
  constructor
  · intro hactions
    by_contra hplace
    have hother : own ∈ first ++ last := by
      rcases Nat.lt_or_gt_of_ne hplace with hlt | hgt
      · rw [List.getElem?_append_left hlt] at hown
        exact List.mem_append_left _ (List.mem_of_getElem? hown)
      · obtain ⟨n, rfl⟩ := Nat.exists_eq_add_of_lt hgt
        rw [List.getElem?_append_right (by omega)] at hown
        have hrest : first.length + n + 1 - first.length = n + 1 := by omega
        rw [hrest, List.getElem?_cons_succ] at hown
        exact List.mem_append_right _ (List.mem_of_getElem? hown)
    rw [hbare own hother] at hactions
    have hnone : Declaration.spellingActions (d.actions.map ActionDecl.toAction) first.length i []
        = [] := by simp [Declaration.spellingActions, hplace]
    exact hactions hnone
  · rintro rfl
    rw [List.getElem?_append_right (Nat.le_refl _), Nat.sub_self] at hown
    obtain rfl : form = own := Option.some.inj hown
    obtain ⟨metavar, metavars, hmetavars⟩ := List.exists_cons_of_ne_nil hform
    rw [hmetavars]
    cases d.actions with
    | nil => simp [Declaration.spellingActions]
    | cons action actions => simp [Declaration.spellingActions, overlay]

variable {options : CompileOptions} {d : Declaration} {excludes : List Exclusion}
  {embedded : Option Embedding} {own : List Spec} (hsharing : options.noSharing = false)
  (hown : d.compileOption excludes embedded = .ok own) (hvalid : Valid own)
  (hshares : d.independent = false) (hforms : d.forms = .ok (first ++ form :: last))

include hsharing hown hvalid hshares hforms

/-- **One spelling gives its slots to all.** -/
theorem exists_actions_of_one_carrier :
    ∃ donor ∈ own, ∀ t ∈ normalized options own,
      t.actions = (settle options.guesses donor).actions := by
  obtain ⟨forms, hforms', hflags, hdeclared⟩ := getElem?_of_compileOption hown
  obtain rfl : forms = first ++ form :: last := Except.ok.inj (hforms'.symm.trans hforms)
  have hplace : ∀ (i : Nat) (s : Spec), own[i]? = some s →
      (s.takesValue = true ↔ i = first.length) := by
    intro i s hs
    obtain ⟨other, hother, hdeclares⟩ := hdeclared i s hs
    exact hdeclares.takesValue_iff hform hbare hother
  have hlength : first.length < own.length := by
    have hsame := congrArg List.length hflags
    simp only [List.length_map, List.length_append, List.length_cons] at hsame
    omega
  have hdonor := List.getElem?_eq_getElem hlength
  refine ⟨own[first.length], List.getElem_mem hlength, fun t ht => ?_⟩
  have htakes : own[first.length].takesValue = true := (hplace _ _ hdonor).2 rfl
  have hindependent : ∀ s ∈ own, s.independent = false := by
    intro s hs
    obtain ⟨i, hi⟩ := List.mem_iff_getElem?.1 hs
    obtain ⟨_, -, hdeclares⟩ := hdeclared i s hi
    exact hdeclares.independent.trans hshares
  have hunique : ∀ s ∈ own, s.takesValue = true → s = own[first.length] := by
    intro s hs htakes
    obtain ⟨i, hi⟩ := List.mem_iff_getElem?.1 hs
    obtain rfl : i = first.length := (hplace i s hi).1 htakes
    exact Option.some.inj (hi.symm.trans hdonor)
  rw [normalized_eq_map_shareWith hsharing hown hvalid, List.map_map] at ht
  obtain ⟨s, hs, rfl⟩ := List.mem_map.1 ht
  dsimp only [Function.comp]
  rcases Spec.shareWith_cases ((own.map (settle options.guesses)).filter Spec.isDonor)
    (settle options.guesses s) with ⟨hself, hnone⟩ | ⟨-, donor, hdonor, hreceive⟩
  · -- A spelling that receives nothing is the donor: for every other there is one.
    rw [hself]
    cases htakes' : s.takesValue with
    | true => rw [hunique s hs htakes']
    | false =>
      have hrecipient : (settle options.guesses s).isRecipient = true := by
        rw [Spec.isRecipient, takesValue_settle, htakes', independent_settle, hindependent s hs]
        rfl
      have hgives : (settle options.guesses own[first.length]).isDonor = true := by
        rw [Spec.isDonor, takesValue_settle, htakes, independent_settle,
          hindependent _ (List.getElem_mem hlength)]
        rfl
      have hmem := List.mem_filter.2
        ⟨List.mem_map_of_mem (f := settle options.guesses) (List.getElem_mem hlength), hgives⟩
      rw [hnone hrecipient] at hmem
      exact absurd hmem List.not_mem_nil
  · rw [hreceive]
    obtain ⟨hmem, hgives⟩ := List.mem_filter.1 hdonor
    obtain ⟨s', hs', rfl⟩ := List.mem_map.1 hmem
    rw [Spec.isDonor, takesValue_settle, Bool.and_eq_true] at hgives
    rw [hunique s' hs' hgives.1]
    rfl

end OneCarrier

/-- The names of an option: its own spelling and the others. -/
def Spec.names (s : Spec) : List Text := s.flag?.getD [] :: s.aliases

section Spellings

variable {options : CompileOptions} {d : Declaration} {own : List Spec}
  {forms : List Descriptor.FlagSyntax} (hkind : d.kind = .option)
  (hown : d.compile options = .ok own) (hvalid : Valid own) (hforms : d.forms = .ok forms)

include hkind hown hvalid hforms

/-- The names of every spelling are all spellings. -/
theorem mem_names_normalized {t : Spec} (ht : t ∈ normalized options own) (name : Text) :
    name ∈ t.names ↔ name ∈ forms.map Descriptor.FlagSyntax.flag := by
  obtain ⟨excludes, embedded, hoption⟩ := exists_compileOption hkind hown
  obtain ⟨forms', hforms', -, hspelled⟩ := spells_of_compileOption hoption
  obtain rfl : forms' = forms := Except.ok.inj (hforms'.symm.trans hforms)
  have hnames := names_normalized options hvalid.nodup (selfContained_of_declaration hown).agree
  have hmem : (t.name, t.aliases) ∈ own.map fun s => (s.name, s.aliases) := by
    rw [← hnames]
    exact List.mem_map_of_mem (f := fun s : Spec => (s.name, s.aliases)) ht
  obtain ⟨s, hs, hsame⟩ := List.mem_map.1 hmem
  obtain ⟨hname, haliases⟩ := Prod.mk.inj hsame
  obtain ⟨form, hform, hspells⟩ := hspelled s hs
  have hflag : t.flag? = some form.flag := by
    unfold Spec.flag?
    rw [← hname, hspells.name]
  rw [Spec.names, hflag, ← haliases, hspells.aliases, List.mem_cons, List.mem_filter]
  constructor
  · rintro (rfl | ⟨hother, -⟩)
    · exact List.mem_map_of_mem hform
    · exact hother
  · intro hmem
    by_cases hself : name = form.flag
    · exact Or.inl hself
    · exact Or.inr ⟨hmem, by simpa using hself⟩

/-- A member that is spelled like an option of the declaration is what this option compiles to. -/
theorem mem_normalized_of_flag {before after : List Spec}
    (hnodup : ((before ++ normalized options own ++ after).filterMap Spec.flag?).Nodup) {s : Spec}
    (hs : s ∈ before ++ normalized options own ++ after) {flag : Text}
    (hflag : s.flag? = some flag) (hspelling : flag ∈ forms.map Descriptor.FlagSyntax.flag) :
    s ∈ normalized options own := by
  obtain ⟨excludes, embedded, hoption⟩ := exists_compileOption hkind hown
  obtain ⟨forms', hforms', hflags, -⟩ := spells_of_compileOption hoption
  obtain rfl : forms' = forms := Except.ok.inj (hforms'.symm.trans hforms)
  have hspelled : flag ∈ (normalized options own).filterMap Spec.flag? := by
    rwa [flags_normalized options hvalid.nodup (selfContained_of_declaration hown).agree, hflags]
  obtain ⟨t, ht, htflag⟩ := List.mem_filterMap.1 hspelled
  obtain ⟨i, hi⟩ := List.mem_iff_getElem?.1 hs
  obtain ⟨j, hj⟩ := List.mem_iff_getElem?.1
    (List.mem_append_left after (List.mem_append_right before ht))
  obtain rfl : i = j := place_unique hnodup hi hj hflag htflag
  obtain rfl : s = t := Option.some.inj (hi.symm.trans hj)
  exact ht

end Spellings

end CommandGrammar
