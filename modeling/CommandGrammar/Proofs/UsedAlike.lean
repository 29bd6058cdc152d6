import CommandGrammar.Proofs.Declared

/-!
# Spellings that are used alike

If at most one spelling of an option has a value descriptor, sharing makes all of them alike in
everything that steers a match: the value slots, the style, whether the value may be left out,
whether the option may be repeated, and what becomes unavailable or takes the words that follow.

A spelling without a descriptor is a bare flag, and has nothing of its own to lose. Either no
spelling has a value slot, and all stay as they were declared; or one has, and all the others take
what it has.

* `OneDescriptor.place_eq`: the one form with a value descriptor;
* `exists_settings`, `bare_of_not_takesValue`, `eq_of_takesValue`: the spellings before sharing;
* `usedAlike_normalized`: the spellings after sharing.
-/

namespace CommandGrammar

/-! ### Spellings without a value descriptor -/

namespace Descriptor

theorem metavars_withMetavars (form : FlagSyntax) (metavars : List Text) :
    (form.withMetavars metavars).metavars ≠ [] := by
  unfold FlagSyntax.withMetavars
  dsimp only
  split
  · exact List.cons_ne_nil _ _
  · rename_i hmetavars
    simpa using hmetavars

theorem eq_bare_of_flagSyntax? {flag rest : Text} {form : FlagSyntax}
    (h : flagSyntax? flag rest = some form) (hbare : form.metavars = []) :
    form = { flag := flag } := by
  unfold flagSyntax? at h
  split at h
  · exact (Option.some.inj h).symm
  · obtain ⟨inner, -, rfl⟩ := Option.map_eq_some_iff.1 h
    exact absurd hbare (metavars_withMetavars _ _)
  · obtain rfl := Option.some.inj h
    exact absurd hbare (metavars_withMetavars _ _)
  · obtain ⟨inner, -, rfl⟩ := Option.map_eq_some_iff.1 h
    exact absurd hbare (metavars_withMetavars _ _)
  · split at h
    · obtain rfl := Option.some.inj h
      exact absurd hbare (metavars_withMetavars _ _)
    · obtain rfl := Option.some.inj h
      exact absurd hbare (metavars_withMetavars _ _)

/-- A spelling without a value descriptor is a flag and nothing else. -/
theorem eq_bare_of_parseSpelling {spelling : Text} {form : FlagSyntax}
    (h : parseSpelling spelling = .ok form) (hbare : form.metavars = []) :
    form = { flag := form.flag } := by
  unfold parseSpelling at h
  dsimp only at h
  split at h
  · exact absurd h (by simp)
  · split at h
    · rename_i hsyntax
      obtain rfl := Except.ok.inj h
      have hform := eq_bare_of_flagSyntax? hsyntax hbare
      rw [hform]
    · exact absurd h (by simp)

/-- Whether at most one of some forms has a value descriptor: of any two, one has none. -/
def OneDescriptor (forms : List FlagSyntax) : Prop :=
  forms.Pairwise fun form other => form.metavars = [] ∨ other.metavars = []

instance (forms : List FlagSyntax) : Decidable (OneDescriptor forms) :=
  inferInstanceAs (Decidable (forms.Pairwise _))

/-- The only form with a value descriptor is the one that gets the declared slots. -/
theorem OneDescriptor.place_eq {forms : List FlagSyntax} (h : OneDescriptor forms) {i : Nat}
    {form : FlagSyntax} (hform : forms[i]? = some form) (hmetavars : form.metavars ≠ []) :
    i = carrier forms := by
  obtain ⟨hi, rfl⟩ := List.getElem?_eq_some_iff.1 hform
  have hpairs := List.pairwise_iff_getElem.1 h
  unfold carrier
  cases hplace : forms.findIdx? (fun form => !form.metavars.isEmpty) with
  | none =>
    have hnone := List.findIdx?_eq_none_iff.1 hplace _ (List.getElem_mem hi)
    simp [hmetavars] at hnone
  | some j =>
    obtain ⟨hj, hfirst, -⟩ := List.findIdx?_eq_some_iff_getElem.1 hplace
    have hfirst : forms[j].metavars ≠ [] := by simpa using hfirst
    rcases Nat.lt_trichotomy i j with hlt | heq | hlt
    · exact absurd (hpairs i j hi hj hlt) (by simp [hmetavars, hfirst])
    · exact heq
    · exact absurd (hpairs j i hj hi hlt) (by simp [hmetavars, hfirst])

end Descriptor

/-! ### Spellings that are used alike -/

/-- Whether two specifications are alike in what steers a match. -/
structure Spec.UsedAlike (s t : Spec) : Prop where
  actions : t.actions = s.actions
  style : t.style = s.style
  valueOptional : t.valueOptional = s.valueOptional
  repeatable : t.repeatable = s.repeatable
  excludes : t.excludes = s.excludes
  embedded : t.embedded = s.embedded

/-- Two specifications that are used like a third are used alike. -/
theorem Spec.UsedAlike.of_common {s t u : Spec} (hs : u.UsedAlike s) (ht : u.UsedAlike t) :
    s.UsedAlike t :=
  ⟨ht.actions.trans hs.actions.symm, ht.style.trans hs.style.symm,
    ht.valueOptional.trans hs.valueOptional.symm, ht.repeatable.trans hs.repeatable.symm,
    ht.excludes.trans hs.excludes.symm, ht.embedded.trans hs.embedded.symm⟩

/-- What a spelling takes from its declaration and its form, value slots aside. -/
structure Spec.Settings (s : Spec) (d : Declaration) (excludes : List Exclusion)
    (embedded : Option Embedding) (form : Descriptor.FlagSyntax) : Prop where
  style : s.style = form.style
  valueOptional : s.valueOptional = form.valueOptional
  repeatable : s.repeatable = (d.repeatable || form.repeatable)
  excludes : s.excludes = excludes
  embedded : s.embedded = embedded

theorem Spec.Settings.settle {s : Spec} {d : Declaration} {excludes : List Exclusion}
    {embedded : Option Embedding} {form : Descriptor.FlagSyntax}
    (h : s.Settings d excludes embedded form) (hints : List GuessRule) :
    (settle hints s).Settings d excludes embedded form := by
  unfold CommandGrammar.settle
  split
  · exact h
  · exact ⟨h.style, h.valueOptional, h.repeatable, h.excludes, h.embedded⟩

section OneDescriptor

variable {d : Declaration} {excludes : List Exclusion} {embedded : Option Embedding}
  {own : List Spec} {forms : List Descriptor.FlagSyntax}
  (hown : d.compileOption excludes embedded = .ok own) (hforms : d.forms = .ok forms)

include hown hforms

/-- What the spelling in a given place takes from the form in this place. -/
theorem exists_settings {i : Nat} {s : Spec} (hs : own[i]? = some s) :
    ∃ form, forms[i]? = some form ∧ s.Declares d forms i form ∧
      s.Settings d excludes embedded form := by
  obtain ⟨declared, hdeclared, -, hplaces⟩ := getElem?_of_compileOption hown
  obtain rfl : declared = forms := Except.ok.inj (hdeclared.symm.trans hforms)
  obtain ⟨form, hform, hdeclares⟩ := hplaces i s hs
  refine ⟨form, hform, hdeclares, ?_⟩
  unfold Declaration.compileOption at hown
  dsimp only at hown
  rw [bind_eq_ok_iff] at hown
  obtain ⟨declared', hdeclared', hown⟩ := hown
  obtain rfl : declared' = declared := Except.ok.inj (hdeclared'.symm.trans hdeclared)
  split at hown
  · exact absurd hown (by simp)
  · obtain rfl := Except.ok.inj hown
    rw [List.getElem?_mapIdx, hform] at hs
    obtain rfl := Option.some.inj hs
    exact ⟨rfl, rfl, rfl, rfl, rfl⟩

/-- A spelling without value slots has the settings of one without a value descriptor. -/
theorem bare_of_not_takesValue {s : Spec} (hs : s ∈ own) (htakes : s.takesValue = false) :
    ∃ flag, s.Settings d excludes embedded { flag := flag } := by
  obtain ⟨i, hi⟩ := List.mem_iff_getElem?.1 hs
  obtain ⟨form, hform, hdeclares, hsettings⟩ := exists_settings hown hforms hi
  have hbare : form.metavars = [] := by
    by_contra hmetavars
    obtain ⟨metavar, metavars, hmetavars⟩ := List.exists_cons_of_ne_nil hmetavars
    rw [Spec.takesValue_eq_false_iff, hdeclares.actions, hmetavars] at htakes
    revert htakes
    cases d.actions <;> simp [Declaration.spellingActions, overlay]
  obtain ⟨spelling, -, hparse⟩ :=
    exists_of_mem_mapM hforms form (List.mem_of_getElem? hform)
  rw [Descriptor.eq_bare_of_parseSpelling hparse hbare] at hsettings
  exact ⟨form.flag, hsettings⟩

variable (hone : Descriptor.OneDescriptor forms)

include hone

/-- If at most one form has a value descriptor, at most one spelling has value slots of its own. -/
theorem eq_of_takesValue {s t : Spec} (hs : s ∈ own) (ht : t ∈ own) (hstakes : s.takesValue = true)
    (httakes : t.takesValue = true) : s = t := by
  have hplace : ∀ {i : Nat} {u : Spec}, own[i]? = some u → u.takesValue = true →
      i = carrier forms := by
    intro i u hu htakes
    obtain ⟨form, hform, hdeclares, -⟩ := exists_settings hown hforms hu
    by_contra hother
    have hbare : form.metavars = [] := by
      by_contra hmetavars
      exact hother (hone.place_eq hform hmetavars)
    rw [Spec.takesValue_iff, hdeclares.actions, hbare] at htakes
    exact htakes (by simp [Declaration.spellingActions, hother])
  obtain ⟨i, hi⟩ := List.mem_iff_getElem?.1 hs
  obtain ⟨j, hj⟩ := List.mem_iff_getElem?.1 ht
  rw [hplace hi hstakes] at hi
  rw [hplace hj httakes] at hj
  exact Option.some.inj (hi.symm.trans hj)

omit hone in
/-- The declaration decides what a match excludes and hands over, and may let all repeat. -/
theorem settings_settle (hints : List GuessRule) {s : Spec} (hs : s ∈ own) :
    (settle hints s).excludes = excludes ∧ (settle hints s).embedded = embedded ∧
      (d.repeatable = true → (settle hints s).repeatable = true) ∧
      (settle hints s).independent = d.independent := by
  obtain ⟨i, hi⟩ := List.mem_iff_getElem?.1 hs
  obtain ⟨form, -, hdeclares, hsettings⟩ := exists_settings hown hforms hi
  have hsettled := hsettings.settle hints
  refine ⟨hsettled.excludes, hsettled.embedded, fun hrepeatable => ?_, ?_⟩
  · rw [hsettled.repeatable, hrepeatable, Bool.true_or]
  · rw [independent_settle, hdeclares.independent]

omit hone in
/-- Sharing keeps what a match hands over. -/
theorem embedded_normalized {options : CompileOptions} (hsharing : options.noSharing = false)
    (hvalid : Valid own) : ∀ t ∈ normalized options own, t.embedded = embedded := by
  rw [normalized_eq_map_shareWith hsharing hown hvalid, List.map_map]
  refine List.forall_mem_map.2 fun s hs => ?_
  obtain ⟨-, hembedded, -⟩ := settings_settle hown hforms options.guesses hs
  dsimp only [Function.comp]
  rcases Spec.shareWith_cases ((own.map (settle options.guesses)).filter Spec.isDonor)
    (settle options.guesses s) with ⟨hself, -⟩ | ⟨-, u, -, hreceive⟩
  · rwa [hself]
  · rw [hreceive]
    exact hembedded

/-- If one spelling has value slots, all the others become like it. -/
theorem usedAlike_shareWith (hindependent : d.independent = false) (hints : List GuessRule)
    {donor s : Spec} (hdonor : donor ∈ own) (htakes : donor.takesValue = true) (hs : s ∈ own) :
    (settle hints donor).UsedAlike
      ((settle hints s).shareWith ((own.map (settle hints)).filter Spec.isDonor)) := by
  have hunique : ∀ {u : Spec}, u ∈ own → u.takesValue = true → u = donor :=
    fun hu hutakes => eq_of_takesValue hown hforms hone hu hdonor hutakes htakes
  have hgives : settle hints donor ∈ (own.map (settle hints)).filter Spec.isDonor := by
    refine List.mem_filter.2 ⟨List.mem_map_of_mem hdonor, ?_⟩
    rw [Spec.isDonor, takesValue_settle, htakes, (settings_settle hown hforms hints hdonor).2.2.2,
      hindependent]
    rfl
  obtain ⟨hexcludes, hembedded, -, hshares⟩ := settings_settle hown hforms hints hs
  rcases Spec.shareWith_cases ((own.map (settle hints)).filter Spec.isDonor) (settle hints s) with
    ⟨hself, hnone⟩ | ⟨hrecipient, u, hu, hreceive⟩
  · -- Only the donor itself receives nothing.
    rw [hself]
    cases hstakes : s.takesValue with
    | true =>
      rw [hunique hs hstakes]
      exact ⟨rfl, rfl, rfl, rfl, rfl, rfl⟩
    | false =>
      have hrecipient : (settle hints s).isRecipient = true := by
        rw [Spec.isRecipient, takesValue_settle, hstakes, hshares, hindependent]
        rfl
      rw [hnone hrecipient] at hgives
      exact absurd hgives List.not_mem_nil
  · obtain ⟨hmem, hdonates⟩ := List.mem_filter.1 hu
    obtain ⟨u, hu', rfl⟩ := List.mem_map.1 hmem
    rw [Spec.isDonor, takesValue_settle, Bool.and_eq_true] at hdonates
    obtain rfl := hunique hu' hdonates.1
    obtain ⟨hexcludes', hembedded', hrepeatable', -⟩ := settings_settle hown hforms hints hu'
    rw [Spec.isRecipient, takesValue_settle, Bool.and_eq_true, Bool.not_eq_true'] at hrecipient
    obtain ⟨flag, hbare⟩ := bare_of_not_takesValue hown hforms hs hrecipient.1
    rw [hreceive]
    refine ⟨rfl, rfl, rfl, ?_, hexcludes.trans hexcludes'.symm, hembedded.trans hembedded'.symm⟩
    show ((settle hints s).repeatable || (settle hints u).repeatable) = (settle hints u).repeatable
    rw [(hbare.settle hints).repeatable, Bool.or_false]
    cases hrepeatable : d.repeatable with
    | true => rw [hrepeatable' hrepeatable, Bool.true_or]
    | false => exact Bool.false_or _

/-- **Sharing makes the spellings of an option alike**, if at most one has a value descriptor. -/
theorem usedAlike_normalized {options : CompileOptions} (hsharing : options.noSharing = false)
    (hvalid : Valid own) (hindependent : d.independent = false) :
    ∀ s ∈ normalized options own, ∀ t ∈ normalized options own, s.UsedAlike t := by
  obtain ⟨model, hmodel⟩ : ∃ model : Spec, ∀ t ∈ normalized options own, model.UsedAlike t := by
    rw [normalized_eq_map_shareWith hsharing hown hvalid, List.map_map]
    by_cases htaker : ∃ donor ∈ own, donor.takesValue = true
    · obtain ⟨donor, hdonor, htakes⟩ := htaker
      refine ⟨settle options.guesses donor, List.forall_mem_map.2 fun s hs => ?_⟩
      exact usedAlike_shareWith hown hforms hone hindependent options.guesses hdonor htakes hs
    · -- Nobody has anything to give, so all are as they were declared: without a value.
      have htakes : ∀ s ∈ own, s.takesValue = false := by simpa using htaker
      have hnone : (own.map (settle options.guesses)).filter Spec.isDonor = [] := by
        refine List.filter_eq_nil_iff.2 (List.forall_mem_map.2 fun s hs => ?_)
        rw [Spec.isDonor, takesValue_settle, htakes s hs]
        exact Bool.false_ne_true
      rw [hnone]
      let model : Spec :=
        { name := .flag []
          repeatable := d.repeatable
          excludes := excludes
          embedded := embedded }
      refine ⟨model, List.forall_mem_map.2 fun s hs => ?_⟩
      dsimp only [Function.comp]
      rw [Spec.shareWith_nil]
      obtain ⟨flag, hbare⟩ := bare_of_not_takesValue hown hforms hs (htakes s hs)
      have hsettled := hbare.settle options.guesses
      have hactions : (settle options.guesses s).actions = [] := by
        rw [← Spec.takesValue_eq_false_iff, takesValue_settle, htakes s hs]
      exact ⟨hactions, hsettled.style, hsettled.valueOptional,
        hsettled.repeatable.trans (Bool.or_false _), hsettled.excludes, hsettled.embedded⟩
  exact fun s hs t ht => (hmodel s hs).of_common (hmodel t ht)

end OneDescriptor

end CommandGrammar
