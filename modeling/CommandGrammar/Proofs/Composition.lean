import CommandGrammar.Proofs.Normalization

/-!
# Compiling in parts

A declaration is compiled on its own, and what follows works on the list of all specifications. It
works on each declaration separately all the same: the aliases of a spelling are the other spellings
of its declaration, so the specifications of a declaration keep to themselves, and so do those of
several declarations if no spelling stands in two of them.

* `selfContained_of_compileEach`: what declarations compile to is self-contained;
* `normalize_append_iff`: two self-contained lists are normalized each on its own;
* `compile_append_iff`: so two lists of declarations are compiled each on its own;
* `normalize_compiled`: a compiled list is normalized already.
-/

namespace CommandGrammar

/-! ### Two lists normalized together -/

theorem valid_append_iff {first second : List Spec} (hfirst : SelfContained first)
    (hsecond : SelfContained second) :
    Valid (first ++ second) ↔ Valid first ∧ Valid second ∧
      (first.filterMap Spec.flag?).Disjoint (second.filterMap Spec.flag?) := by
  constructor
  · intro h
    have hnodup := h.nodup
    have hnotBlank := h.notBlank
    rw [List.filterMap_append, List.nodup_append'] at hnodup
    rw [List.filterMap_append, List.forall_mem_append] at hnotBlank
    exact ⟨⟨hnodup.1, hnotBlank.1, hfirst.listed⟩, ⟨hnodup.2.1, hnotBlank.2, hsecond.listed⟩,
      hnodup.2.2⟩
  · rintro ⟨hvalid₁, hvalid₂, hdisjoint⟩
    refine ⟨?_, ?_, (hfirst.append hsecond hdisjoint).listed⟩
    · rw [List.filterMap_append, List.nodup_append']
      exact ⟨hvalid₁.nodup, hvalid₂.nodup, hdisjoint⟩
    · rw [List.filterMap_append, List.forall_mem_append]
      exact ⟨hvalid₁.notBlank, hvalid₂.notBlank⟩

/-- Normalizing keeps the spellings in their places. -/
theorem flags_normalized (options : CompileOptions) {specs : List Spec}
    (hnodup : (specs.filterMap Spec.flag?).Nodup) (hagree : AliasesAgree specs) :
    (normalized options specs).filterMap Spec.flag? = specs.filterMap Spec.flag? := by
  have hsettle := keepsNames_settle options.guesses
  rw [← hsettle.flags_map specs] at hnodup ⊢
  unfold normalized
  split
  · rfl
  · rw [shareAliases_eq_map hnodup (hsettle.agree_map hagree), (keepsNames_shareWith _).flags_map]

theorem normalized_append (options : CompileOptions) {first second : List Spec}
    (hfirst : SelfContained first) (hsecond : SelfContained second)
    (hnodup : ((first ++ second).filterMap Spec.flag?).Nodup) :
    normalized options (first ++ second)
      = normalized options first ++ normalized options second := by
  have hsettle := keepsNames_settle options.guesses
  unfold normalized
  split
  · exact List.map_append
  · rw [← hsettle.flags_map, List.map_append] at hnodup
    rw [List.map_append]
    exact shareAliases_append (hsettle.selfContained_map hfirst)
      (hsettle.selfContained_map hsecond) hnodup

/-- **Two lists normalized together** are normalized each on its own. -/
theorem normalize_append_iff {options : CompileOptions} {first second out : List Spec}
    (hfirst : (first.filterMap Spec.flag?).Nodup → SelfContained first)
    (hsecond : (second.filterMap Spec.flag?).Nodup → SelfContained second) :
    normalize options (first ++ second) = .ok out ↔
      ∃ out₁ out₂, normalize options first = .ok out₁ ∧ normalize options second = .ok out₂ ∧
        (out₁.filterMap Spec.flag?).Disjoint (out₂.filterMap Spec.flag?) ∧ out = out₁ ++ out₂ := by
  constructor
  · intro h
    obtain ⟨hvalid, rfl⟩ := normalize_eq_ok_iff.1 h
    have hnodup := hvalid.nodup
    rw [List.filterMap_append, List.nodup_append'] at hnodup
    have hself₁ := hfirst hnodup.1
    have hself₂ := hsecond hnodup.2.1
    obtain ⟨hvalid₁, hvalid₂, hdisjoint⟩ := (valid_append_iff hself₁ hself₂).1 hvalid
    refine ⟨_, _, normalize_eq_ok_iff.2 ⟨hvalid₁, rfl⟩, normalize_eq_ok_iff.2 ⟨hvalid₂, rfl⟩, ?_,
      normalized_append options hself₁ hself₂ hvalid.nodup⟩
    rw [flags_normalized options hvalid₁.nodup hself₁.agree,
      flags_normalized options hvalid₂.nodup hself₂.agree]
    exact hdisjoint
  · rintro ⟨out₁, out₂, h₁, h₂, hdisjoint, rfl⟩
    obtain ⟨hvalid₁, rfl⟩ := normalize_eq_ok_iff.1 h₁
    obtain ⟨hvalid₂, rfl⟩ := normalize_eq_ok_iff.1 h₂
    have hself₁ := hfirst hvalid₁.nodup
    have hself₂ := hsecond hvalid₂.nodup
    rw [flags_normalized options hvalid₁.nodup hself₁.agree,
      flags_normalized options hvalid₂.nodup hself₂.agree] at hdisjoint
    have hvalid := (valid_append_iff hself₁ hself₂).2 ⟨hvalid₁, hvalid₂, hdisjoint⟩
    exact normalize_eq_ok_iff.2
      ⟨hvalid, (normalized_append options hself₁ hself₂ hvalid.nodup).symm⟩

/-! ### The specifications of one declaration -/

section Spellings

variable {specs : List Spec} {flags : List Text} (hflags : specs.filterMap Spec.flag? = flags)
  (hown : ∀ s ∈ specs, ∃ flag, s.flag? = some flag ∧
    s.aliases = flags.filter (fun other => other != flag))

include hflags hown

/-- Specifications whose aliases are all the other spellings are one class. -/
theorem isSpelledBy_of_spellings : ∀ s ∈ specs, ∀ t ∈ specs, s.isSpelledBy t = true := by
  intro s hs t ht
  obtain ⟨flag, hflag, haliases⟩ := hown s hs
  obtain ⟨other, hother, -⟩ := hown t ht
  refine Spec.isSpelledBy_iff.2 ⟨Option.isSome_iff_exists.2 ⟨flag, hflag⟩, other, hother, ?_⟩
  rw [Spec.answersTo_iff]
  by_cases heq : other = flag
  · exact Or.inl (heq ▸ hflag)
  · have hmem : other ∈ flags := hflags ▸ List.mem_filterMap.2 ⟨t, ht, hother⟩
    refine Or.inr ?_
    rw [haliases]
    exact List.mem_filter.2 ⟨hmem, bne_iff_ne.2 heq⟩

theorem selfContained_of_spellings : SelfContained specs where
  listed := by
    intro s hs name hname
    obtain ⟨flag, -, haliases⟩ := hown s hs
    rw [haliases] at hname
    rw [hflags]
    exact (List.mem_filter.1 hname).1
  agree := by
    intro s hs t ht _ u hu
    rw [isSpelledBy_of_spellings hflags hown t ht u hu,
      isSpelledBy_of_spellings hflags hown s hs u hu]

end Spellings

theorem selfContained_of_declaration {options : CompileOptions} {d : Declaration}
    {specs : List Spec} (h : d.compile options = .ok specs) : SelfContained specs := by
  obtain ⟨excludes, embedded, hoption | hpositional⟩ := compile_cases h
  · obtain ⟨forms, -, hflags, hspells⟩ := spells_of_compileOption hoption
    refine selfContained_of_spellings hflags fun s hs => ?_
    obtain ⟨form, -, hform⟩ := hspells s hs
    exact ⟨form.flag, hform.flag?, hform.aliases⟩
  · obtain ⟨s, index, rfl, hname, haliases, -⟩ := eq_singleton_of_compilePositional hpositional
    -- A positional slot is in no class.
    have hoption : s.isOption = false := by simp [Spec.isOption, Spec.flag?, hname]
    refine ⟨by simp [haliases], fun t ht u _ hspelled => ?_⟩
    obtain rfl := List.mem_singleton.1 ht
    exact absurd (Spec.isSpelledBy_iff.1 hspelled).1 (Bool.eq_false_iff.1 hoption)

/-! ### The specifications of several declarations -/

theorem compileEach_append_iff {options : CompileOptions} {first second : List Declaration}
    {specs : List Spec} :
    compileEach options (first ++ second) = .ok specs ↔
      ∃ specs₁ specs₂, compileEach options first = .ok specs₁ ∧
        compileEach options second = .ok specs₂ ∧ specs = specs₁ ++ specs₂ := by
  unfold compileEach
  rw [List.mapM_append]
  simp only [map_eq_ok_iff, bind_eq_ok_iff]
  constructor
  · rintro ⟨each, ⟨each₁, h₁, each₂, h₂, heach⟩, rfl⟩
    obtain rfl := Except.ok.inj heach
    exact ⟨_, _, ⟨each₁, h₁, rfl⟩, ⟨each₂, h₂, rfl⟩, List.flatten_append⟩
  · rintro ⟨_, _, ⟨each₁, h₁, rfl⟩, ⟨each₂, h₂, rfl⟩, rfl⟩
    exact ⟨_, ⟨each₁, h₁, each₂, h₂, rfl⟩, List.flatten_append⟩

theorem compileEach_singleton (options : CompileOptions) (d : Declaration) :
    compileEach options [d] = d.compile options := by
  unfold compileEach
  rw [List.mapM_cons, List.mapM_nil]
  cases d.compile options with
  | error e => rfl
  | ok specs => exact congrArg Except.ok (List.append_nil specs)

/-- **What declarations compile to is self-contained** if no spelling stands twice in it. -/
theorem selfContained_of_compileEach {options : CompileOptions} {declarations : List Declaration} :
    ∀ {specs : List Spec}, compileEach options declarations = .ok specs →
      (specs.filterMap Spec.flag?).Nodup → SelfContained specs := by
  induction declarations with
  | nil =>
    intro specs h _
    obtain rfl : [] = specs := Except.ok.inj h
    exact ⟨by simp, by simp [AliasesAgree]⟩
  | cons d declarations ih =>
    intro specs h hnodup
    rw [← List.singleton_append, compileEach_append_iff] at h
    obtain ⟨own, others, hown, hothers, rfl⟩ := h
    rw [compileEach_singleton] at hown
    rw [List.filterMap_append, List.nodup_append'] at hnodup
    obtain ⟨-, hnodup, hdisjoint⟩ := hnodup
    exact (selfContained_of_declaration hown).append (ih hothers hnodup) hdisjoint

/-- No spelling stands twice in what declarations compile to. -/
theorem nodup_of_compile {options : CompileOptions} {declarations : List Declaration}
    {specs : List Spec} (h : compile options declarations = .ok specs) :
    (specs.filterMap Spec.flag?).Nodup := by
  obtain ⟨own, hown, h⟩ := bind_eq_ok_iff.1 h
  obtain ⟨hvalid, rfl⟩ := normalize_eq_ok_iff.1 h
  rw [flags_normalized options hvalid.nodup
    (selfContained_of_compileEach hown hvalid.nodup).agree]
  exact hvalid.nodup

/-- **Compiling in parts.** Two lists of declarations compile together exactly if they compile each
on its own without a spelling in common, and then to the one list after the other. -/
theorem compile_append_iff (options : CompileOptions) (first second : List Declaration)
    (specs : List Spec) :
    compile options (first ++ second) = .ok specs ↔
      ∃ specs₁ specs₂, compile options first = .ok specs₁ ∧ compile options second = .ok specs₂ ∧
        (specs₁.filterMap Spec.flag?).Disjoint (specs₂.filterMap Spec.flag?) ∧
        specs = specs₁ ++ specs₂ := by
  have hcompile : ∀ declarations out, compile options declarations = .ok out ↔
      ∃ own, compileEach options declarations = .ok own ∧ normalize options own = .ok out :=
    fun _ _ => bind_eq_ok_iff
  constructor
  · intro h
    obtain ⟨own, hown, h⟩ := (hcompile _ _).1 h
    obtain ⟨own₁, own₂, hown₁, hown₂, rfl⟩ := compileEach_append_iff.1 hown
    obtain ⟨specs₁, specs₂, h₁, h₂, hdisjoint, rfl⟩ :=
      (normalize_append_iff (selfContained_of_compileEach hown₁)
        (selfContained_of_compileEach hown₂)).1 h
    exact ⟨specs₁, specs₂, (hcompile _ _).2 ⟨own₁, hown₁, h₁⟩, (hcompile _ _).2 ⟨own₂, hown₂, h₂⟩,
      hdisjoint, rfl⟩
  · rintro ⟨specs₁, specs₂, h₁, h₂, hdisjoint, rfl⟩
    obtain ⟨own₁, hown₁, h₁⟩ := (hcompile _ _).1 h₁
    obtain ⟨own₂, hown₂, h₂⟩ := (hcompile _ _).1 h₂
    refine (hcompile _ _).2 ⟨own₁ ++ own₂, ?_, ?_⟩
    · exact compileEach_append_iff.2 ⟨own₁, own₂, hown₁, hown₂, rfl⟩
    · exact (normalize_append_iff (selfContained_of_compileEach hown₁)
        (selfContained_of_compileEach hown₂)).2 ⟨specs₁, specs₂, h₁, h₂, hdisjoint, rfl⟩

/-- **A compiled list is normalized already**, if no hint answers with a guess. -/
theorem normalize_compiled {options : CompileOptions} {declarations : List Declaration}
    {specs : List Spec} (h : compile options declarations = .ok specs)
    (hhints : ∀ rule ∈ options.guesses, rule.source ≠ .guess) :
    normalize options specs = .ok specs := by
  obtain ⟨own, hown, h⟩ := bind_eq_ok_iff.1 h
  obtain ⟨hvalid, rfl⟩ := normalize_eq_ok_iff.1 h
  have hagree := (selfContained_of_compileEach hown hvalid.nodup).agree
  exact normalize_normalized hvalid (Or.inr ⟨hagree, guessesAgree_of_hints hhints own⟩)

end CommandGrammar
