import CommandGrammar.Proofs.Declared
import CommandGrammar.Proofs.Guessing
import CommandGrammar.Proofs.NextWord
import CommandGrammar.Proofs.Values

/-!
# Completing a value after either spelling

If one spelling of an option has a value descriptor, sharing gives its slots to all the others, and
a value that follows any of them completes the same slot. The slots were settled under the name of
the donor, so the name that was typed does not matter any more, and as every spelling is known under
the names of all, generators do not see it either.

It does matter for a guess that is still open when the line is completed. Such a guess is made under
the name in the record, and nothing makes the guesses for two spellings agree
(`open_guess_depends_on_spelling`). A guess stays open in a slot without a placeholder, or if a hint
or a generator answers with a guess.

* `ofHistory_named`: what a flag and its value say about names;
* `exists_slots_of_spellings`: the records of a value after any spelling;
* `spellings_complete_alike`: what completes a value after two spellings.
-/

namespace CommandGrammar

/-! ### Settled slots and known names -/

/-- A slot with a placeholder is settled by hints that never answer with a guess. -/
theorem source_ne_guess_of_settle {hints : List GuessRule}
    (hhints : ∀ rule ∈ hints, rule.source ≠ .guess) {s : Spec} (hoption : s.isOption = true)
    {a : Action} (ha : a ∈ (settle hints s).actions) (hmetavar : a.metavar ≠ []) :
    a.source ≠ .guess := by
  have hbounded : ¬ s.isUnbounded = true := by
    intro hunbounded
    rw [Spec.isOption_eq_not_isPositional, Spec.isPositional_of_isUnbounded hunbounded] at hoption
    exact absurd hoption Bool.false_ne_true
  rw [settle, if_neg hbounded] at ha
  obtain ⟨a, -, rfl⟩ := List.mem_map.1 ha
  unfold settleAction at hmetavar ⊢
  split at hmetavar
  · split at hmetavar
    · rename_i hempty
      exact absurd (List.isEmpty_iff.1 hempty) hmetavar
    · rename_i hempty
      rw [if_neg hempty]
      exact guessSource_ne_guess hhints s.label a.metavar
  · assumption

namespace Line

/-- What a flag and its value tell about a name: it has one list with the value if it is a spelling
of the option, and none otherwise. -/
theorem ofHistory_named (l : Line) {m : Member} (hnames : m.spec.names.Nodup) (action : Action)
    (flag value name : Text) :
    let history := [nameRecord l m flag,
      valueRecord m (nextOccurrence l.history) 0 action [] value]
    (Context.ofHistory history).get name = (if name ∈ m.spec.names then [[value]] else []) ∧
      (Context.ofHistory history).seen name = m.spec.names.contains name := by
  intro history
  have hblock : ∀ r ∈ history, r.occurrence = nextOccurrence l.history := by
    simp [history, nameRecord, valueRecord]
  have husage : Context.ofHistory history
      = Context.insertUsage [] ⟨nameRecord l m flag, [value]⟩ := by
    have hone := Usage.ofMatches_eq_singleton (List.cons_ne_nil _ _) hblock
    show (Usage.ofMatches history).foldl Context.insertUsage [] = _
    rw [hone]
    rfl
  have hget := Context.get_insertUsage [] (u := ⟨nameRecord l m flag, [value]⟩) hnames name
  rw [husage]
  exact ⟨hget, Context.seen_insertUsage [] _ name⟩

/-- The same value after two spellings with the same names tells the same. -/
theorem agree_ofHistory_named (l l' : Line) {m m' : Member} (hnames : m.spec.names.Nodup)
    (hnames' : m'.spec.names.Nodup) (hsame : ∀ name, name ∈ m.spec.names ↔ name ∈ m'.spec.names)
    (action : Action) (flag flag' value : Text) :
    Context.Agree
      (Context.ofHistory [nameRecord l m flag,
        valueRecord m (nextOccurrence l.history) 0 action [] value])
      (Context.ofHistory [nameRecord l' m' flag',
        valueRecord m' (nextOccurrence l'.history) 0 action [] value]) := by
  intro name
  have hcontains : m.spec.names.contains name = m'.spec.names.contains name := by
    rw [Bool.eq_iff_iff, List.contains_iff_mem, List.contains_iff_mem, hsame]
  obtain ⟨hget, hseen⟩ := ofHistory_named l hnames action flag value name
  obtain ⟨hget', hseen'⟩ := ofHistory_named l' hnames' action flag' value name
  simp only [hsame] at hget
  rw [hcontains] at hseen
  exact ⟨hget.trans hget'.symm, hseen.trans hseen'.symm⟩

/-! ### Two spellings of one option -/

section Alike

variable {options : CompileOptions} {program : Text} {earlier later : List Declaration}
  {d : Declaration} {compiled : Grammar}
  (hcompile : compileGrammar options program (earlier ++ d :: later) = .ok compiled)
  (hsharing : options.noSharing = false) (hkind : d.kind = .option)
  (hshares : d.independent = false) {first last : List Descriptor.FlagSyntax}
  {form : Descriptor.FlagSyntax} (hforms : d.forms = .ok (first ++ form :: last))
  (hform : form.metavars ≠ []) (hbare : ∀ other ∈ first ++ last, other.metavars = [])

include hcompile hsharing hkind hshares hforms hform hbare

/-- **A value after any spelling** of an option with one value descriptor completes the same slot.
Its trace has the name and the value, and the names of the spelling are all spellings. -/
theorem exists_slots_of_spellings (lookup : Text → Option Grammar) (edition : Nat) :
    ∃ slots : List Action,
      ((∀ rule ∈ options.guesses, rule.source ≠ .guess) →
        ∀ a ∈ slots, a.metavar ≠ [] → a.source ≠ .guess) ∧
      ∀ m ∈ (compiled.issue edition).members, ∀ flag, m.spec.flag? = some flag →
        flag ∈ (first ++ form :: last).map Descriptor.FlagSyntax.flag →
        (∀ name, name ∈ m.spec.names
          ↔ name ∈ (first ++ form :: last).map Descriptor.FlagSyntax.flag) ∧
        m.spec.names.Nodup ∧
        ∀ value, EndsInValue (parse lookup [flag, value] (compiled.issue edition).members) m value →
          ∃ action, slots.head? = some action ∧
            (parse lookup [flag, value] (compiled.issue edition).members).history
              = [nameRecord { tokens := [value], available := (compiled.issue edition).members } m
                  flag, valueRecord m 0 0 action [] value] := by
  have hg : (compiled.issue edition).Compiled :=
    ⟨options, program, _, compiled, edition, hcompile, rfl⟩
  obtain ⟨specs, hspecs, rfl⟩ := map_eq_ok_iff.1 hcompile
  obtain ⟨own, before, after, hown, hvalid, -, -, rfl⟩ := exists_own_of_compile hspecs
  obtain ⟨excludes, embedded, hoption⟩ := exists_compileOption hkind hown
  obtain ⟨donor, hdonor, hactions⟩ :=
    exists_actions_of_one_carrier hform hbare hsharing hoption hvalid hshares hforms
  have hmembers : ∀ m ∈ (Grammar.issue edition (.ofSpecs program
      (before ++ normalized options own ++ after) options.guesses)).members,
      m.spec ∈ before ++ normalized options own ++ after := by
    intro m hm
    have hmem : m.spec ∈ (Grammar.issue edition _).specs := List.mem_map_of_mem hm
    rwa [Grammar.specs_issue, Grammar.specs_ofSpecs] at hmem
  refine ⟨(settle options.guesses donor).actions, fun hhints a ha => ?_, ?_⟩
  · obtain ⟨_, -, -, hspelled⟩ := spells_of_compileOption hoption
    obtain ⟨_, -, hspells⟩ := hspelled donor hdonor
    exact source_ne_guess_of_settle hhints (Spec.isOption_of_flag? hspells.flag?) ha
  · intro m hm flag hflag hspelling
    have hshared := mem_normalized_of_flag hkind hown hvalid hforms (nodup_of_compile hspecs)
      (hmembers m hm) hflag hspelling
    have hnames : m.spec.names.Nodup := by
      have hwellFormed := (hg.wellFormed m hm).names
      rwa [Spec.label_of_isOption (Spec.isOption_of_flag? hflag)] at hwellFormed
    refine ⟨mem_names_normalized hkind hown hvalid hforms hshared, hnames, ?_⟩
    intro value hvalue
    obtain ⟨left, right, hsplit, hothers⟩ := hg.exists_split hm hflag
    have hflags : ∀ other ∈ left ++ m :: right, other.spec.flag? ≠ some [] := by
      intro other hother hempty
      rw [← hsplit] at hother
      have hblank := notBlank_of_compile hspecs []
        (List.mem_filterMap.2 ⟨_, hmembers other hother, hempty⟩)
      exact absurd hblank (by decide)
    rw [hsplit] at hvalue ⊢
    obtain ⟨action, actions, hslots, hhistory⟩ :=
      history_of_endsInValue hflag hothers hflags hvalue
    refine ⟨action, ?_, hhistory⟩
    rw [← hactions m.spec hshared, hslots]
    rfl

/-- **Either spelling completes the same value.** Let an option have one value descriptor among all
its spellings and share its slots. A value that follows two of its spellings is completed with the
same suffix and placeholder. It is completed from the same provider if no guess is open; an open
guess is made under the spelling that was typed. No guess is open in a slot with a placeholder if
neither hints nor generators answer with a guess. -/
theorem spellings_complete_alike (lookup : Text → Option Grammar) (edition : Nat) {m m' : Member}
    (hm : m ∈ (compiled.issue edition).members) (hm' : m' ∈ (compiled.issue edition).members)
    {flag flag' : Text} (hflag : m.spec.flag? = some flag) (hflag' : m'.spec.flag? = some flag')
    (hspelling : flag ∈ (first ++ form :: last).map Descriptor.FlagSyntax.flag)
    (hspelling' : flag' ∈ (first ++ form :: last).map Descriptor.FlagSyntax.flag) {value : Text}
    (hvalue : EndsInValue (parse lookup [flag, value] (compiled.issue edition).members) m value)
    (hvalue' : EndsInValue (parse lookup [flag', value] (compiled.issue edition).members) m' value)
    {generators : Generators} (hgenerators : generators.Extensional)
    (resolving : ResolveOptions) :
    let history := (parse lookup [flag, value] (compiled.issue edition).members).history
    let history' := (parse lookup [flag', value] (compiled.issue edition).members).history
    let completion := Completion.resolve generators resolving history
    let completion' := Completion.resolve generators resolving history'
    completion.suffix = completion'.suffix ∧ completion.metavar = completion'.metavar ∧
      (Completion.OpenGuess generators history ↔ Completion.OpenGuess generators history') ∧
      (¬ Completion.OpenGuess generators history → completion.provider = completion'.provider) ∧
      (Completion.OpenGuess generators history →
        ∀ typed ∈ [(flag, completion), (flag', completion')],
          let guessed := guessSource typed.1 completion.metavar resolving.guesses
          guessed.isGenerator = false → typed.2.provider = Completion.providerOf guessed) ∧
      (completion.metavar ≠ [] → (∀ rule ∈ options.guesses, rule.source ≠ .guess) →
        (∀ number context, generators number context ≠ .guess) →
        ¬ Completion.OpenGuess generators history) := by
  intro history history' completion completion'
  obtain ⟨slots, hsettled, hslots⟩ := exists_slots_of_spellings hcompile hsharing hkind hshares
    hforms hform hbare lookup edition
  obtain ⟨hnames, hnodup, hread⟩ := hslots m hm flag hflag hspelling
  obtain ⟨hnames', hnodup', hread'⟩ := hslots m' hm' flag' hflag' hspelling'
  obtain ⟨action, haction, hhistory⟩ := hread value hvalue
  obtain ⟨action', haction', hhistory'⟩ := hread' value hvalue'
  obtain rfl : action = action' := Option.some.inj (haction.symm.trans haction')
  have htrace : history = _ := hhistory
  have htrace' : history' = _ := hhistory'
  have hlast : history.getLast? = some (valueRecord m 0 0 action [] value) := by
    rw [htrace]
    rfl
  have hlast' : history'.getLast? = some (valueRecord m' 0 0 action [] value) := by
    rw [htrace']
    rfl
  -- Both traces say the same about all names, so the generators answer the same.
  have hagree : (Context.ofHistory history).Agree (Context.ofHistory history') := by
    rw [htrace, htrace']
    exact agree_ofHistory_named _ _ hnodup hnodup'
      (fun name => (hnames name).trans (hnames' name).symm) action flag flag' value
  have hslot : (valueRecord m 0 0 action [] value).action
      = (valueRecord m' 0 0 action [] value).action := rfl
  have hopen := Completion.openGuess_congr hgenerators hslot hagree hlast hlast'
  obtain ⟨hsuffix, hplaceholders, hproviders⟩ :=
    Completion.resolve_congr hgenerators hslot hagree hlast hlast' resolving
  have hmetavar : completion.metavar = action.metavar := by
    have hresolve : completion = _ := Completion.resolve_of_last generators resolving hlast
    rw [hresolve]
    rfl
  refine ⟨hsuffix, hplaceholders, hopen, hproviders, ?_, ?_⟩
  · intro hguess
    have hprovider := Completion.provider_of_openGuess generators resolving hlast hguess
    have hprovider' := Completion.provider_of_openGuess generators resolving hlast' (hopen.1 hguess)
    have hname : (valueRecord m 0 0 action [] value).name = flag := by simp [valueRecord, hflag]
    have hname' : (valueRecord m' 0 0 action [] value).name = flag' := by
      simp [valueRecord, hflag']
    rw [hmetavar]
    rw [hname] at hprovider
    rw [hname'] at hprovider'
    refine List.forall_mem_cons.2 ⟨fun _ => hprovider, ?_⟩
    exact List.forall_mem_singleton.2 fun _ => hprovider'
  · intro hplaceholder hhints hanswers
    rw [hmetavar] at hplaceholder
    rw [Completion.openGuess_iff generators hlast]
    have hsource := hsettled hhints action (List.mem_of_head? haction) hplaceholder
    exact Source.followed_ne_guess hanswers _ _ hsource

end Alike

/-- A value after `-f` or `--format` is completed from the same enumeration. -/
theorem spellings_complete_alike_format :
    ∃ m m', m ∈ (renderGrammar.issue 0).members ∧ m' ∈ (renderGrammar.issue 0).members ∧
      EndsInValue (parse listLookup ["-f".toList, "js".toList] (renderGrammar.issue 0).members) m
        "js".toList ∧
      EndsInValue (parse listLookup ["--format".toList, "js".toList]
        (renderGrammar.issue 0).members) m' "js".toList ∧
      (Completion.resolve Completion.listing {} (parse listLookup ["-f".toList, "js".toList]
          (renderGrammar.issue 0).members).history).provider
        = (Completion.resolve Completion.listing {} (parse listLookup
            ["--format".toList, "js".toList]
            (renderGrammar.issue 0).members).history).provider := by
  let format : Action :=
    { metavar := "\x7bjson,yaml\x7d".toList
      source := .literal ["json".toList, "yaml".toList] }
  have hcompile : compileGrammar {} "render".toList
      ([] ++ .option "-f, --format=\x7bjson,yaml\x7d".toList
        :: [.option "-c, --color[=\x7bauto,never\x7d]".toList]) = .ok renderGrammar := rfl
  have hforms : (Declaration.option "-f, --format=\x7bjson,yaml\x7d".toList).forms
      = .ok ([{ flag := "-f".toList }] ++
        { flag := "--format".toList, style := .separateOrInline, delimiter := ['='],
          suffix := ['='], metavars := ["\x7bjson,yaml\x7d".toList] } :: []) := rfl
  have hread : ∀ flag ∈ ["-f".toList, "--format".toList],
      ∃ m ∈ (renderGrammar.issue 0).members, m.spec.flag? = some flag ∧
        m.spec.actions = [format] ∧
        (parse listLookup [flag, "js".toList] (renderGrammar.issue 0).members).history.getLast?
          = some (valueRecord m 0 0 format [] "js".toList) := by decide +kernel
  obtain ⟨m, hm, hflag, hactions, hlast⟩ := hread "-f".toList (by decide)
  obtain ⟨m', hm', hflag', hactions', hlast'⟩ := hread "--format".toList (by decide)
  have hvalue := endsInValue_of_valueRecord hflag hactions 0 hlast
  have hvalue' := endsInValue_of_valueRecord hflag' hactions' 0 hlast'
  have hgenerators : Generators.Extensional Completion.listing := fun _ _ _ _ => rfl
  obtain ⟨-, hmetavar, -, hclosed, -, hnone⟩ :=
    spellings_complete_alike hcompile rfl rfl rfl hforms (by decide) (by decide) listLookup 0 hm hm'
      hflag hflag' (by decide) (by decide) hvalue hvalue' hgenerators {}
  have hplaceholder : (Completion.resolve Completion.listing {} (parse listLookup
      ["-f".toList, "js".toList] (renderGrammar.issue 0).members).history).metavar ≠ [] := by
    rw [Completion.resolve_of_last _ _ hlast]
    show format.metavar ≠ []
    decide
  exact ⟨m, m', hm, hm', hvalue, hvalue',
    hclosed (hnone hplaceholder (fun _ h => absurd h List.not_mem_nil) fun _ _ h => nomatch h)⟩

/-- Hints that tell long spellings from short ones. -/
def lengthHints : List GuessRule :=
  [⟨"--".toList, .sequence (.one (.single '-')) (.one (.single '-')), .static 0 .directories⟩,
    ⟨[], .nothing, .static 0 .files⟩]

/-- An option whose slot has no placeholder. -/
def directoryGrammar : Grammar :=
  .ofSpecs "tool".toList
    [{ name := .flag "-d".toList, aliases := ["--directory".toList], style := .separateOrInline,
        actions := [{}] },
      { name := .flag "--directory".toList, aliases := ["-d".toList], style := .separateOrInline,
        delimiter := ['='], suffix := ['='], actions := [{}] }] lengthHints

/-- The guess stays open without a placeholder, and is made under the spelling that was typed. -/
theorem open_guess_depends_on_spelling :
    ∃ form,
      compileGrammar { guesses := lengthHints } "tool".toList
          [.option "-d, --directory=".toList] = .ok directoryGrammar ∧
        (Declaration.option "-d, --directory=".toList).forms
          = .ok ([{ flag := "-d".toList }] ++ form :: []) ∧
        form.flag = "--directory".toList ∧ form.metavars ≠ [] ∧
        ∃ m ∈ directoryGrammar.members, ∃ m' ∈ directoryGrammar.members,
          EndsInValue (parse listLookup ["-d".toList, []] directoryGrammar.members) m [] ∧
          EndsInValue (parse listLookup ["--directory".toList, []] directoryGrammar.members) m' [] ∧
          (Completion.resolve Completion.listing { guesses := lengthHints }
              (parse listLookup ["-d".toList, []] directoryGrammar.members).history).provider
            ≠ (Completion.resolve Completion.listing { guesses := lengthHints }
              (parse listLookup ["--directory".toList, []]
                directoryGrammar.members).history).provider := by
  have hread : ∀ flag ∈ ["-d".toList, "--directory".toList],
      ∃ m ∈ directoryGrammar.members, m.spec.flag? = some flag ∧ m.spec.actions = [{}] ∧
        (parse listLookup [flag, []] directoryGrammar.members).history.getLast?
          = some (valueRecord m 0 0 {} [] []) := by decide +kernel
  obtain ⟨m, hm, hflag, hactions, hlast⟩ := hread "-d".toList (by decide)
  obtain ⟨m', hm', hflag', hactions', hlast'⟩ := hread "--directory".toList (by decide)
  have hforms : (Declaration.option "-d, --directory=".toList).forms
      = .ok ([{ flag := "-d".toList }] ++
        { flag := "--directory".toList, style := .separateOrInline, delimiter := ['='],
          suffix := ['='], metavars := [[]] } :: []) := rfl
  refine ⟨_, rfl, hforms, rfl, by decide, m, hm, m', hm',
    endsInValue_of_valueRecord hflag hactions 0 hlast,
    endsInValue_of_valueRecord hflag' hactions' 0 hlast', ?_⟩
  decide +kernel

end Line

end CommandGrammar
