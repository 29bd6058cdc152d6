import CommandGrammar.Proofs.Availability
import CommandGrammar.Proofs.Declared

/-!
# The spellings of an option on a line

A match removes specifications one by one: those with its own name or one of its aliases, and those
that it excludes. In a compiled grammar it cannot take one spelling of an option away and leave
another. A member answers to a spelling of a declaration only if it is a spelling of this
declaration itself, and then it answers to all of them.

`Grammar.HasOption` is an option declaration with its place in a compiled grammar.

* `HasOption.answersTo_iff`: which members answer to the spellings of a declaration;
* `HasOption.covers_eq`, `HasOption.removes_iff`: exclusions and matches do not tell them apart;
* `HasOption.available`: where one of them is available, all are;
* `spellings_together`: the spellings of a declaration are available together or not at all.
-/

namespace CommandGrammar

open Line

/-! ### Names -/

theorem Spec.flag?_eq_some_iff {s : Spec} {flag : Text} :
    s.flag? = some flag ↔ s.name = .flag flag := by
  unfold flag?
  cases s.name <;> simp

theorem Spec.answersTo_iff_mem_names {s : Spec} (h : s.isOption = true) {name : Text} :
    s.answersTo name = true ↔ name ∈ s.names := by
  obtain ⟨flag, hflag⟩ := isOption_iff.1 h
  rw [answersTo_iff, names, hflag, List.mem_cons, Option.some.injEq]
  exact or_congr_left eq_comm

/-- An option is a spelling of what was matched if that answers to it; and if an option was matched,
nothing else is one. -/
theorem Spec.spells_iff_answersTo {matched s : Spec}
    (h : s.isOption = true ∨ matched.isOption = true) :
    (s.name = matched.name ∨ ∃ flag ∈ matched.aliases, s.flag? = some flag) ↔
      ∃ flag, s.flag? = some flag ∧ matched.answersTo flag = true := by
  cases hname : s.name with
  | flag spelling =>
    rw [flag?_eq_some_iff.2 hname]
    simp only [Option.some.injEq, exists_eq_left', exists_eq_right', answersTo_iff,
      flag?_eq_some_iff]
    exact or_congr_left eq_comm
  | positional index =>
    have hnone : s.flag? = none := by simp [flag?, hname]
    have hmatched : matched.name ≠ .positional index := by
      intro heq
      simp [isOption, flag?, hname, heq] at h
    simp [hnone, hmatched.symm]

/-- The aliases of what is compiled are spellings in it. -/
theorem alias_mem_of_compile {options : CompileOptions} {declarations : List Declaration}
    {specs : List Spec} (h : compile options declarations = .ok specs) :
    ∀ s ∈ specs, ∀ name ∈ s.aliases, name ∈ specs.filterMap Spec.flag? := by
  obtain ⟨each, heach, hvalid, rfl⟩ := compile_eq_ok_iff.1 h
  have hagree := (selfContained_of_compileEach heach hvalid.nodup).agree
  have hnames := names_normalized options hvalid.nodup hagree
  rw [flags_normalized options hvalid.nodup hagree]
  intro s hs name hname
  have hmem : (s.name, s.aliases) ∈ each.map fun s => (s.name, s.aliases) := by
    rw [← hnames]
    exact List.mem_map_of_mem (f := fun s : Spec => (s.name, s.aliases)) hs
  obtain ⟨s', hs', hsame⟩ := List.mem_map.1 hmem
  obtain ⟨-, haliases⟩ := Prod.mk.inj hsame
  exact hvalid.listed s' hs' name (haliases ▸ hname)

/-- What is compiled answers to spellings in it only. -/
theorem flag_mem_of_answersTo {options : CompileOptions} {declarations : List Declaration}
    {specs : List Spec} (h : compile options declarations = .ok specs) {s : Spec} (hs : s ∈ specs)
    {flag : Text} (hanswers : s.answersTo flag = true) : flag ∈ specs.filterMap Spec.flag? := by
  rcases Spec.answersTo_iff.1 hanswers with hself | hname
  · exact List.mem_filterMap.2 ⟨s, hs, hself⟩
  · exact alias_mem_of_compile h s hs flag hname

/-! ### An option of a grammar -/

/-- The members that are spelled like one of some forms. -/
def Grammar.spellings (g : Grammar) (forms : List Descriptor.FlagSyntax) : List Member :=
  g.members.filter fun m => m.spec.flag?.any (forms.map Descriptor.FlagSyntax.flag).contains

/-- An option declaration in a compiled grammar: what it compiles to stands between what the
declarations before and after it compile to. -/
structure Grammar.HasOption (g : Grammar) (options : CompileOptions) (d : Declaration)
    (forms : List Descriptor.FlagSyntax) (own before after : List Spec) : Prop where
  kind : d.kind = .option
  compiles : d.compile options = .ok own
  valid : Valid own
  forms : d.forms = .ok forms
  earlier : ∃ declarations, compile options declarations = .ok before
  later : ∃ declarations, compile options declarations = .ok after
  nodup : ((before ++ normalized options own ++ after).filterMap Spec.flag?).Nodup
  specs : g.specs = before ++ normalized options own ++ after

theorem Grammar.exists_hasOption {options : CompileOptions} {program : Text}
    {declarations : List Declaration} {compiled : Grammar}
    (h : compileGrammar options program declarations = .ok compiled) {d : Declaration}
    (hd : d ∈ declarations) (hkind : d.kind = .option) (edition : Nat) :
    ∃ forms own before after,
      (compiled.issue edition).HasOption options d forms own before after := by
  obtain ⟨specs, hspecs, rfl⟩ := map_eq_ok_iff.1 h
  obtain ⟨earlier, later, rfl⟩ := List.append_of_mem hd
  have hnodup := nodup_of_compile hspecs
  obtain ⟨own, before, after, hown, hvalid, hbefore, hafter, rfl⟩ := exists_own_of_compile hspecs
  obtain ⟨excludes, embedded, hoption⟩ := exists_compileOption hkind hown
  obtain ⟨forms, hforms, -⟩ := getElem?_of_compileOption hoption
  exact ⟨forms, own, before, after, hkind, hown, hvalid, hforms, ⟨earlier, hbefore⟩,
    ⟨later, hafter⟩, hnodup, (specs_issue edition _).trans (specs_ofSpecs program _ _)⟩

namespace Grammar.HasOption

variable {g : Grammar} {options : CompileOptions} {d : Declaration}
  {forms : List Descriptor.FlagSyntax} {own before after : List Spec}
  (h : g.HasOption options d forms own before after)

include h

/-- The spellings of the declaration, in its order. -/
theorem flags_normalized :
    (normalized options own).map Spec.flag? = forms.map fun form => some form.flag := by
  obtain ⟨excludes, embedded, hoption⟩ := exists_compileOption h.kind h.compiles
  obtain ⟨forms', hforms', hflags, -⟩ := getElem?_of_compileOption hoption
  obtain rfl : forms' = forms := Except.ok.inj (hforms'.symm.trans h.forms)
  have hnames :=
    names_normalized options h.valid.nodup (selfContained_of_declaration h.compiles).agree
  have hflag : ∀ specs : List Spec, specs.map Spec.flag?
      = (specs.map fun s => (s.name, s.aliases)).map fun entry => Spec.flag? { name := entry.1 } :=
    fun specs => by rw [List.map_map]; rfl
  rw [← hflags, hflag, hnames, ← hflag]

theorem exists_flag {t : Spec} (ht : t ∈ normalized options own) :
    ∃ flag, t.flag? = some flag ∧ flag ∈ forms.map Descriptor.FlagSyntax.flag := by
  have hflag := List.mem_map_of_mem (f := Spec.flag?) ht
  rw [h.flags_normalized] at hflag
  obtain ⟨form, hform, hspelled⟩ := List.mem_map.1 hflag
  exact ⟨form.flag, hspelled.symm, List.mem_map_of_mem hform⟩

theorem exists_spelling {flag : Text} (hflag : flag ∈ forms.map Descriptor.FlagSyntax.flag) :
    ∃ t ∈ normalized options own, t.flag? = some flag := by
  obtain ⟨form, hform, rfl⟩ := List.mem_map.1 hflag
  have hmem : some form.flag ∈ (normalized options own).map Spec.flag? := by
    rw [h.flags_normalized]
    exact List.mem_map_of_mem (f := fun form : Descriptor.FlagSyntax => some form.flag) hform
  exact List.mem_map.1 hmem

theorem isOption {t : Spec} (ht : t ∈ normalized options own) : t.isOption = true := by
  obtain ⟨flag, hflag, -⟩ := h.exists_flag ht
  exact Spec.isOption_of_flag? hflag

/-- Every spelling of the declaration answers to exactly the spellings of it. -/
theorem answersTo_own {t : Spec} (ht : t ∈ normalized options own) {name : Text} :
    t.answersTo name = true ↔ name ∈ forms.map Descriptor.FlagSyntax.flag := by
  rw [Spec.answersTo_iff_mem_names (h.isOption ht),
    mem_names_normalized h.kind h.compiles h.valid h.forms ht]

theorem answersTo_eq {s t : Spec} (hs : s ∈ normalized options own)
    (ht : t ∈ normalized options own) (name : Text) : s.answersTo name = t.answersTo name := by
  rw [Bool.eq_iff_iff, h.answersTo_own hs, h.answersTo_own ht]

/-! ### The other declarations -/

/-- The other declarations share no spelling with this one. -/
theorem flag_not_mem {flag : Text} (hflag : flag ∈ forms.map Descriptor.FlagSyntax.flag) :
    flag ∉ before.filterMap Spec.flag? ∧ flag ∉ after.filterMap Spec.flag? := by
  have hspelled : flag ∈ (normalized options own).filterMap Spec.flag? :=
    List.mem_filterMap.2 (h.exists_spelling hflag)
  have hnodup := h.nodup
  rw [List.filterMap_append, List.filterMap_append, List.nodup_append', List.nodup_append']
    at hnodup
  obtain ⟨⟨-, -, hdisjoint⟩, -, hdisjoint'⟩ := hnodup
  exact ⟨fun hmem => hdisjoint hmem hspelled,
    fun hmem => hdisjoint' (List.mem_append_right _ hspelled) hmem⟩

/-- **The members that are spelled like the declaration** are what it compiles to. -/
theorem specs_spellings : (g.spellings forms).map Member.spec = normalized options own := by
  have hother : ∀ {specs : List Spec}, (∀ {flag}, flag ∈ forms.map Descriptor.FlagSyntax.flag →
      flag ∉ specs.filterMap Spec.flag?) → specs.filter
        (fun s => s.flag?.any (forms.map Descriptor.FlagSyntax.flag).contains) = [] := by
    intro specs hdisjoint
    refine List.filter_eq_nil_iff.2 fun s hs hspelled => ?_
    obtain ⟨flag, hflag, hmem⟩ := (Option.any_eq_true _ _).1 hspelled
    exact hdisjoint (List.contains_iff_mem.1 hmem) (List.mem_filterMap.2 ⟨s, hs, hflag⟩)
  have hself : ∀ s ∈ normalized options own,
      s.flag?.any (forms.map Descriptor.FlagSyntax.flag).contains = true := by
    intro s hs
    obtain ⟨flag, hflag, hmem⟩ := h.exists_flag hs
    rw [hflag, Option.any_some, List.contains_iff_mem]
    exact hmem
  have hfilter : (g.spellings forms).map Member.spec = g.specs.filter
      (fun s => s.flag?.any (forms.map Descriptor.FlagSyntax.flag).contains) := by
    rw [Grammar.specs, List.filter_map]
    rfl
  rw [hfilter, h.specs, List.filter_append, List.filter_append,
    hother fun hflag => (h.flag_not_mem hflag).1, hother fun hflag => (h.flag_not_mem hflag).2,
    List.filter_eq_self.2 hself, List.nil_append, List.append_nil]

/-- **A member answers to a spelling of the declaration** exactly if it is what this compiles to. -/
theorem answersTo_iff {s : Spec} (hs : s ∈ g.specs) {flag : Text}
    (hflag : flag ∈ forms.map Descriptor.FlagSyntax.flag) :
    s.answersTo flag = true ↔ s ∈ normalized options own := by
  obtain ⟨earlier, hbefore⟩ := h.earlier
  obtain ⟨later, hafter⟩ := h.later
  constructor
  · intro hanswers
    obtain ⟨hnotBefore, hnotAfter⟩ := h.flag_not_mem hflag
    rw [h.specs] at hs
    rcases List.mem_append.1 hs with hs | hs
    · rcases List.mem_append.1 hs with hs | hs
      · exact absurd (flag_mem_of_answersTo hbefore hs hanswers) hnotBefore
      · exact hs
    · exact absurd (flag_mem_of_answersTo hafter hs hanswers) hnotAfter
  · exact fun hmem => (h.answersTo_own hmem).2 hflag

/-! ### What does not tell the spellings apart -/

/-- **Exclusions do not tell the spellings of a declaration apart.** -/
theorem covers_eq (e : Exclusion) {s t : Spec} (hs : s ∈ normalized options own)
    (ht : t ∈ normalized options own) : e.covers s = e.covers t := by
  have hsoption := h.isOption hs
  have htoption := h.isOption ht
  cases e with
  | allOptions => exact hsoption.trans htoption.symm
  | allPositionals =>
    show s.isPositional = t.isPositional
    rw [Spec.isOption_eq_not_isPositional] at hsoption htoption
    simpa using hsoption.trans htoption.symm
  | name n =>
    cases n with
    | flag spelling => exact h.answersTo_eq hs ht spelling
    | positional index =>
      show (s.name == .positional index) = (t.name == .positional index)
      have hne : ∀ {u : Spec}, u.isOption = true → (u.name == .positional index) = false := by
        intro u hoption
        rw [beq_eq_false_iff_ne]
        intro hname
        simp [Spec.isOption, Spec.flag?, hname] at hoption
      rw [hne hsoption, hne htoption]

/-- **A match does not tell the spellings of a declaration apart.** -/
theorem removes_iff {matched s t : Spec} (hmatched : matched ∈ g.specs)
    (hs : s ∈ normalized options own) (ht : t ∈ normalized options own) :
    matched.Removes s ↔ matched.Removes t := by
  have hspells : ∀ u ∈ normalized options own,
      (u.name = matched.name ∨ ∃ flag ∈ matched.aliases, u.flag? = some flag) ↔
        matched ∈ normalized options own := by
    intro u hu
    obtain ⟨flag, hflag, hmem⟩ := h.exists_flag hu
    rw [Spec.spells_iff_answersTo (Or.inl (h.isOption hu)), hflag, ← h.answersTo_iff hmatched hmem]
    simp
  unfold Spec.Removes
  rw [hspells s hs, hspells t ht]
  simp only [h.covers_eq _ hs ht]

end Grammar.HasOption

/-! ### The moments of a level -/

/-- What a level has matched is what was available to it at its beginning. -/
theorem member_of_own {lookup : Text → Option Grammar} {start : Line} {now : Moment}
    (h : Reaches lookup start now) :
    ∀ r ∈ now.own, ∀ m ∈ r.member, m ∈ start.available := by
  induction h with
  | start => exact fun r hr => absurd hr List.not_mem_nil
  | @word now token rest hnow _ ih =>
    intro r hr m hm
    rcases List.mem_append.1 hr with hr | hr
    · exact ih r hr m hm
    · rcases now.written_takes token rest with ⟨-, hnone, -⟩ | ⟨m', hm', -, -, hmember, -⟩
      · rw [hnone r hr] at hm
        exact absurd hm (by simp)
      · rw [hmember r hr, Option.mem_some] at hm
        rw [available_of_reaches hnow] at hm'
        exact hm ▸ (List.mem_filter.1 hm').1

/-- **Where one spelling of an option is available, all are.** -/
theorem Grammar.HasOption.available {g : Grammar} {options : CompileOptions} {d : Declaration}
    {forms : List Descriptor.FlagSyntax} {own before after : List Spec}
    (h : g.HasOption options d forms own before after) {lookup : Text → Option Grammar}
    {start : Line} {now : Moment} (hstart : start.available = g.members)
    (hnow : Reaches lookup start now) {m other : Member} (hm : m.spec ∈ normalized options own)
    (hother : other ∈ g.members) (hspelled : other.spec ∈ normalized options own)
    (havailable : m ∈ now.line.available) : other ∈ now.line.available := by
  have hremoved : Removed now.own m.spec ↔ Removed now.own other.spec := by
    refine exists_congr fun r => and_congr_right fun hr => exists_congr fun matched =>
      and_congr_right fun hmatched => ?_
    have hmember := member_of_own hnow r hr matched hmatched
    rw [hstart] at hmember
    exact h.removes_iff (List.mem_map_of_mem hmember) hm hspelled
  rw [available_of_reaches hnow, List.mem_filter, decide_eq_true_iff] at havailable ⊢
  rw [hstart]
  exact ⟨hother, hremoved.not.1 havailable.2⟩

/-- What holds of two items alike holds of all of them or of none. -/
theorem all_or_none {α : Type} {items : List α} {p : α → Prop}
    (h : ∀ a ∈ items, ∀ b ∈ items, p a → p b) : (∀ a ∈ items, p a) ∨ ∀ a ∈ items, ¬ p a := by
  by_cases hsome : ∃ a ∈ items, p a
  · obtain ⟨a, ha, hholds⟩ := hsome
    exact Or.inl fun b hb => h a ha b hb hholds
  · exact Or.inr fun a ha hholds => hsome ⟨a, ha, hholds⟩

/-- **The spellings of an option appear and disappear together.** In a compiled grammar every
spelling of an option declaration is a member. An exclusion covers all of them or none; and at every
moment of a level that this grammar begins, all of them are available or none is. -/
theorem spellings_together {options : CompileOptions} {program : Text}
    {declarations : List Declaration} {compiled : Grammar}
    (h : compileGrammar options program declarations = .ok compiled) {d : Declaration}
    (hd : d ∈ declarations) (hkind : d.kind = .option) (edition : Nat) :
    ∃ forms, d.forms = .ok forms ∧
      ((compiled.issue edition).spellings forms).map (fun m => m.spec.flag?)
        = forms.map (fun form => some form.flag) ∧
      (∀ e : Exclusion,
        (∀ m ∈ (compiled.issue edition).spellings forms, e.covers m.spec = true) ∨
          ∀ m ∈ (compiled.issue edition).spellings forms, e.covers m.spec = false) ∧
      ∀ (lookup : Text → Option Grammar) (start : Line) (now : Moment),
        start.available = (compiled.issue edition).members → Reaches lookup start now →
          (∀ m ∈ (compiled.issue edition).spellings forms, m ∈ now.line.available) ∨
            ∀ m ∈ (compiled.issue edition).spellings forms, m ∉ now.line.available := by
  obtain ⟨forms, own, before, after, hoption⟩ := Grammar.exists_hasOption h hd hkind edition
  have hspelled : ∀ m ∈ (compiled.issue edition).spellings forms,
      m.spec ∈ normalized options own :=
    fun m hm => hoption.specs_spellings ▸ List.mem_map_of_mem hm
  refine ⟨forms, hoption.forms, ?_, fun e => ?_, fun lookup start now hstart hnow => ?_⟩
  · rw [← hoption.flags_normalized, ← hoption.specs_spellings, List.map_map]
    rfl
  · simp only [← Bool.not_eq_true]
    refine all_or_none fun m hm other hother hcovers => ?_
    rwa [hoption.covers_eq e (hspelled other hother) (hspelled m hm)]
  · refine all_or_none fun m hm other hother havailable => ?_
    exact hoption.available hstart hnow (hspelled m hm) (List.mem_filter.1 hother).1
      (hspelled other hother) havailable

/-- The options of a command, one of them with two spellings. -/
def listDeclarations : List Declaration :=
  [.option "-a, --all".toList, .positional "* FILE".toList]

def allForms : List Descriptor.FlagSyntax := [{ flag := "-a".toList }, { flag := "--all".toList }]

def listedLine : Line := { tokens := ["-a".toList, "src".toList], available := listGrammar.members }

/-- Afterwards neither of them is available. -/
theorem spellings_together_list :
    (listGrammar.spellings allForms).map (fun m => m.spec.flag?)
        = [some "-a".toList, some "--all".toList] ∧
      ∃ now, Reaches listLookup listedLine now ∧ now.line.tokens = ["src".toList] ∧
        ∀ m ∈ listGrammar.spellings allForms, m ∉ now.line.available := by
  have hcompile : compileGrammar {} "ls".toList listDeclarations = .ok listGrammar := rfl
  have hd : Declaration.option "-a, --all".toList ∈ listDeclarations := List.mem_cons_self
  have hissue : listGrammar.issue 0 = listGrammar := Grammar.issue_ofSpecs _ _ _
  obtain ⟨forms, hforms, hflags, -, htogether⟩ := spellings_together hcompile hd rfl 0
  obtain rfl : forms = allForms := Except.ok.inj (hforms.symm.trans rfl)
  rw [hissue] at hflags htogether
  have hnow : Reaches listLookup listedLine (Moment.next listLookup ⟨listedLine, false, []⟩
      "-a".toList ["src".toList]) := Reaches.start.word rfl
  refine ⟨hflags, _, hnow, by decide +kernel, ?_⟩
  exact (htogether listLookup listedLine _ rfl hnow).resolve_left (by decide +kernel)

end CommandGrammar
