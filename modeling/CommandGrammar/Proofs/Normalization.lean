import CommandGrammar.Proofs.Compiled
import CommandGrammar.Proofs.Sharing

/-!
# Normalized lists

Normalizing a list checks it, settles its guesses and shares its value slots. The checks are about
names alone, which neither settling nor sharing changes; a settled guess is never a guess again
under the same name. What is left is sharing: it is done with a list if no class has both a donor
and a recipient, and if no slot that was given away holds a guess that another name settles.

* `normalize_eq_ok_iff`: what normalizing a list gives, and when it gives anything;
* `settle_settle`, `shareAliases_shareAliases`: a settled list is settled, a shared list is shared;
* `normalize_idempotent`: a normalized list is normalized to itself;
* `guessesAgree_of_hints`: of the two conditions for this, that on guesses is met by all hints that
  never answer with a guess.

Two things stand in the way of the last one for all lists. Aliases need not be mutual, and then a
recipient of the first pass is a donor of the second (`normalize_again_shares`). A hint may answer
with a guess, and then a slot that was shared is settled in the second pass under the name of its
recipient (`normalize_again_settles`).
-/

namespace CommandGrammar

/-! ### Valid lists -/

/-- What a list of specifications has to satisfy. -/
structure Valid (specs : List Spec) : Prop where
  nodup : (specs.filterMap Spec.flag?).Nodup
  notBlank : ∀ flag ∈ specs.filterMap Spec.flag?, Text.isAllBlank flag = false
  listed : ∀ s ∈ specs, ∀ name ∈ s.aliases, name ∈ specs.filterMap Spec.flag?

theorem aliasError?_eq_none_iff {specs : List Spec} :
    aliasError? specs = none ↔
      ∀ s ∈ specs, ∀ name ∈ s.aliases, name ∈ specs.filterMap Spec.flag? := by
  unfold aliasError?
  rw [Option.map_eq_none_iff, List.find?_eq_none]
  simp only [List.mem_flatMap, Bool.not_eq_true', List.contains_eq_mem, decide_eq_false_iff_not,
    not_not, forall_exists_index, and_imp]
  exact ⟨fun h s hs name hname => h name s hs hname, fun h name s hs hname => h s hs name hname⟩

theorem firstError?_eq_none_iff {specs : List Spec} :
    firstError? specs = none ↔ Valid specs := by
  unfold firstError?
  cases herror : flagError? [] specs with
  | some e =>
    refine iff_of_false (Option.some_ne_none e) fun h => ?_
    have hnone := flagError?_eq_none_iff.2
      ⟨h.nodup, fun flag hflag => ⟨h.notBlank flag hflag, List.not_mem_nil⟩⟩
    exact absurd (herror.symm.trans hnone) (Option.some_ne_none e)
  | none =>
    obtain ⟨hnodup, hflags⟩ := flagError?_eq_none_iff.1 herror
    refine aliasError?_eq_none_iff.trans ⟨fun hlisted => ?_, fun h => h.listed⟩
    exact ⟨hnodup, fun flag hflag => (hflags flag hflag).1, hlisted⟩

/-- What normalizing makes of a list that passes the checks. -/
def normalized (options : CompileOptions) (specs : List Spec) : List Spec :=
  if options.noSharing then specs.map (settle options.guesses)
  else shareAliases (specs.map (settle options.guesses))

/-- **What normalizing gives.** -/
theorem normalize_eq_ok_iff {options : CompileOptions} {specs out : List Spec} :
    normalize options specs = .ok out ↔ Valid specs ∧ out = normalized options specs := by
  unfold normalize
  cases herror : firstError? specs with
  | some e =>
    refine iff_of_false (fun h => nomatch h) fun h => ?_
    exact Option.some_ne_none e (herror.symm.trans (firstError?_eq_none_iff.2 h.1))
  | none =>
    dsimp only
    rw [Except.ok.injEq]
    exact ⟨fun h => ⟨firstError?_eq_none_iff.1 herror, h.symm⟩, fun h => h.2.symm⟩

/-! ### Changes that keep the names -/

/-- Whether a change of specifications keeps their names and aliases. -/
structure KeepsNames (f : Spec → Spec) : Prop where
  name : ∀ s, (f s).name = s.name
  aliases : ∀ s, (f s).aliases = s.aliases

namespace KeepsNames

variable {f : Spec → Spec} (h : KeepsNames f)

include h

theorem flag? (s : Spec) : (f s).flag? = s.flag? := by
  unfold Spec.flag?
  rw [h.name]

theorem isSpelledBy (s t : Spec) : (f s).isSpelledBy (f t) = s.isSpelledBy t := by
  have hanswers : (f s).answersTo = s.answersTo := by
    funext name
    unfold Spec.answersTo
    rw [h.flag?, h.aliases]
  unfold Spec.isSpelledBy Spec.isOption
  rw [h.flag?, h.flag?, hanswers]

theorem flags_map (specs : List Spec) :
    (specs.map f).filterMap Spec.flag? = specs.filterMap Spec.flag? := by
  rw [List.filterMap_map]
  exact List.filterMap_congr fun s _ => h.flag? s

theorem valid_map {specs : List Spec} (hvalid : Valid specs) : Valid (specs.map f) where
  nodup := by
    rw [h.flags_map]
    exact hvalid.nodup
  notBlank := by
    rw [h.flags_map]
    exact hvalid.notBlank
  listed := by
    rw [h.flags_map]
    intro s hs name hname
    obtain ⟨s', hs', rfl⟩ := List.mem_map.1 hs
    rw [h.aliases] at hname
    exact hvalid.listed s' hs' name hname

theorem agree_map {specs : List Spec} (hagree : AliasesAgree specs) :
    AliasesAgree (specs.map f) := by
  intro s hs t ht hspelled u hu
  obtain ⟨s', hs', rfl⟩ := List.mem_map.1 hs
  obtain ⟨t', ht', rfl⟩ := List.mem_map.1 ht
  obtain ⟨u', hu', rfl⟩ := List.mem_map.1 hu
  rw [h.isSpelledBy] at *
  rw [h.isSpelledBy]
  exact hagree s' hs' t' ht' hspelled u' hu'

theorem selfContained_map {specs : List Spec} (hspecs : SelfContained specs) :
    SelfContained (specs.map f) where
  listed := by
    rw [h.flags_map]
    intro s hs name hname
    obtain ⟨s', hs', rfl⟩ := List.mem_map.1 hs
    rw [h.aliases] at hname
    exact hspecs.listed s' hs' name hname
  agree := h.agree_map hspecs.agree

end KeepsNames

theorem keepsNames_settle (hints : List GuessRule) : KeepsNames (settle hints) where
  name s := by
    unfold settle
    split <;> rfl
  aliases s := by
    unfold settle
    split <;> rfl

theorem keepsNames_shareWith (donors : Spec → List Spec) :
    KeepsNames fun s => s.shareWith (donors s) where
  name s := Spec.shareWith_name (donors s) s
  aliases s := Spec.shareWith_aliases (donors s) s

/-! ### Settled guesses -/

/-- A slot that no name settles is settled by none. -/
theorem settleAction_eq_self {a : Action} (h : a.source = .guess → a.metavar = [])
    (hints : List GuessRule) (name : Text) : settleAction hints name a = a := by
  unfold settleAction
  split
  · rename_i hguess
    rw [h hguess]
    rfl
  · rfl

/-- A slot is settled by no name, or by every name. -/
theorem settleAction_cases (hints : List GuessRule) (a : Action) :
    (∀ name, settleAction hints name a = a) ∨
      ∀ name, settleAction hints name a
        = { a with source := guessSource name a.metavar hints } := by
  by_cases hopen : a.source = .guess ∧ a.metavar ≠ []
  · refine Or.inr fun name => ?_
    unfold settleAction
    rw [hopen.1]
    simp [hopen.2]
  · refine Or.inl (settleAction_eq_self (fun hguess => ?_) hints)
    by_contra hmetavar
    exact hopen ⟨hguess, hmetavar⟩

theorem settleAction_settleAction (hints : List GuessRule) (name : Text) (a : Action) :
    settleAction hints name (settleAction hints name a) = settleAction hints name a := by
  rcases settleAction_cases hints a with hself | hsettled
  · rw [hself, hself]
  · -- The source guessed may be a guess again; then it is so again.
    rw [hsettled]
    unfold settleAction
    split <;> simp

/-- A specification with settled slots is settled. -/
theorem settle_eq_self {hints : List GuessRule} {s : Spec}
    (h : ∀ a ∈ s.actions, settleAction hints s.label a = a) : settle hints s = s := by
  have hactions : s.actions.map (settleAction hints s.label) = s.actions :=
    (List.map_congr_left h).trans (List.map_id _)
  unfold settle
  split
  · rfl
  · rw [hactions]

theorem settle_settle (hints : List GuessRule) (s : Spec) :
    settle hints (settle hints s) = settle hints s := by
  cases hunbounded : s.isUnbounded with
  | true =>
    have hself : settle hints s = s := by rw [settle, if_pos hunbounded]
    rw [hself, hself]
  | false =>
    have hsettled : settle hints s
        = { s with actions := s.actions.map (settleAction hints s.label) } := by
      rw [settle, if_neg (by simp [hunbounded])]
    rw [hsettled]
    refine settle_eq_self fun a ha => ?_
    obtain ⟨a', -, rfl⟩ := List.mem_map.1 ha
    exact settleAction_settleAction hints s.label a'

/-! ### Sharing again -/

section ShareAgain

variable {specs : List Spec} (hagree : AliasesAgree specs)

include hagree

/-- What sharing left without value slots has no donors in the shared list either. -/
theorem donorsFor_map_shareWith {s : Spec} (hs : s ∈ specs)
    (hrecipient : (s.shareWith (donorsFor specs s)).isRecipient = true) :
    donorsFor (specs.map fun t => t.shareWith (donorsFor specs t))
      (s.shareWith (donorsFor specs s)) = [] := by
  have hkeeps := keepsNames_shareWith (donorsFor specs)
  have hnone : donorsFor specs s = [] := by
    rcases Spec.shareWith_cases (donorsFor specs s) s with ⟨hself, hnone⟩ | ⟨-, d, hd, hreceive⟩
    · exact hnone (hself ▸ hrecipient)
    · -- A received slot is a slot.
      have htakes := (Bool.and_eq_true_iff.1 (Bool.and_eq_true_iff.1 (List.mem_filter.1 hd).2).1).1
      rw [hreceive] at hrecipient
      simp [Spec.isRecipient, Spec.takesValue, Spec.receive] at hrecipient
      simp [Spec.takesValue, hrecipient.1] at htakes
  refine List.filter_eq_nil_iff.2 fun t' ht' => ?_
  obtain ⟨t, ht, rfl⟩ := List.mem_map.1 ht'
  rw [hkeeps.isSpelledBy s t, Bool.and_eq_true, not_and]
  intro hdonor hspelled
  -- All of the class of `s` are without donors, so `t` is as it was, and no donor.
  rw [donorsFor_eq hagree hs ht hspelled, hnone, Spec.shareWith_nil] at hdonor
  have hmem : t ∈ donorsFor specs s := List.mem_filter.2 ⟨ht, by rw [hdonor, hspelled]; rfl⟩
  rw [hnone] at hmem
  exact absurd hmem List.not_mem_nil

/-- A shared list has no class with a donor and a recipient, so sharing it again does nothing. -/
theorem shareAliases_shareAliases (hnodup : (specs.filterMap Spec.flag?).Nodup) :
    shareAliases (shareAliases specs) = shareAliases specs := by
  have hkeeps := keepsNames_shareWith (donorsFor specs)
  rw [shareAliases_eq_map hnodup hagree]
  have hnodup' := hnodup
  rw [← hkeeps.flags_map specs] at hnodup'
  rw [shareAliases_eq_map hnodup' (hkeeps.agree_map hagree), List.map_map]
  refine List.map_congr_left fun s hs => ?_
  dsimp only [Function.comp]
  rcases Spec.shareWith_cases (donorsFor (specs.map fun t => t.shareWith (donorsFor specs t))
    (s.shareWith (donorsFor specs s))) (s.shareWith (donorsFor specs s)) with
    ⟨hself, -⟩ | ⟨hrecipient, d, hd, -⟩
  · exact hself
  · rw [donorsFor_map_shareWith hagree hs hrecipient] at hd
    exact absurd hd List.not_mem_nil

end ShareAgain

/-! ### Normalizing again -/

/-- Whether the slots that an option may receive, once settled under the name of the donor, are
settled under the name of the recipient as well. -/
def GuessesAgree (hints : List GuessRule) (specs : List Spec) : Prop :=
  ∀ s ∈ specs, s.isRecipient = true → ∀ d ∈ donorsFor specs s,
    ∀ a ∈ (settle hints d).actions, settleAction hints s.label a = a

instance (hints : List GuessRule) (specs : List Spec) : Decidable (GuessesAgree hints specs) :=
  inferInstanceAs (Decidable (∀ s ∈ specs, _ → ∀ d ∈ donorsFor specs s,
    ∀ a ∈ (settle hints d).actions, _ = _))

theorem takesValue_settle (hints : List GuessRule) (s : Spec) :
    (settle hints s).takesValue = s.takesValue := by
  unfold settle
  split
  · rfl
  · simp [Spec.takesValue]

theorem independent_settle (hints : List GuessRule) (s : Spec) :
    (settle hints s).independent = s.independent := by
  unfold settle
  split <;> rfl

theorem donorsFor_map_settle (hints : List GuessRule) (specs : List Spec) (s : Spec) :
    donorsFor (specs.map (settle hints)) (settle hints s)
      = (donorsFor specs s).map (settle hints) := by
  unfold donorsFor
  rw [List.filter_map]
  congr 1
  refine List.filter_congr fun t _ => ?_
  show ((settle hints t).isDonor && (settle hints s).isSpelledBy (settle hints t))
    = (t.isDonor && s.isSpelledBy t)
  rw [(keepsNames_settle hints).isSpelledBy, Spec.isDonor, takesValue_settle, independent_settle]
  rfl

section SharedGuesses

variable {hints : List GuessRule} {specs : List Spec} (hguesses : GuessesAgree hints specs)

include hguesses

theorem settle_shareWith {s : Spec} (hs : s ∈ specs) :
    settle hints ((settle hints s).shareWith ((donorsFor specs s).map (settle hints)))
      = (settle hints s).shareWith ((donorsFor specs s).map (settle hints)) := by
  rcases Spec.shareWith_cases ((donorsFor specs s).map (settle hints)) (settle hints s) with
    ⟨hself, -⟩ | ⟨hrecipient, d', hd', hreceive⟩
  · rw [hself, settle_settle]
  · obtain ⟨d, hd, rfl⟩ := List.mem_map.1 hd'
    rw [hreceive]
    have hrecipient : s.isRecipient = true := by
      rwa [Spec.isRecipient, takesValue_settle, independent_settle] at hrecipient
    have hlabel : ((settle hints s).receive (settle hints d)).label = s.label := by
      show (settle hints s).name.write = s.name.write
      rw [(keepsNames_settle hints).name]
    refine settle_eq_self fun a ha => ?_
    rw [hlabel]
    exact hguesses s hs hrecipient d hd a ha

/-- Settling is done before sharing, and need not be done again after it. -/
theorem map_settle_shareAliases (hagree : AliasesAgree specs)
    (hnodup : (specs.filterMap Spec.flag?).Nodup) :
    (shareAliases (specs.map (settle hints))).map (settle hints)
      = shareAliases (specs.map (settle hints)) := by
  have hsettle := keepsNames_settle hints
  rw [← hsettle.flags_map] at hnodup
  rw [shareAliases_eq_map hnodup (hsettle.agree_map hagree)]
  simp only [List.map_map]
  refine List.map_congr_left fun s hs => ?_
  dsimp only [Function.comp]
  rw [donorsFor_map_settle, settle_shareWith hguesses hs]

end SharedGuesses

/-- **A normalized list is done**, if nothing was shared or if it does not matter which spelling of
an option is asked for its aliases and its guesses. -/
theorem normalize_normalized {options : CompileOptions} {specs : List Spec} (hvalid : Valid specs)
    (hshared : options.noSharing = true ∨
      (AliasesAgree specs ∧ GuessesAgree options.guesses specs)) :
    normalize options (normalized options specs) = .ok (normalized options specs) := by
  have hsettled := (keepsNames_settle options.guesses).valid_map hvalid
  rw [normalize_eq_ok_iff]
  unfold normalized
  cases hsharing : options.noSharing with
  | true =>
    rw [if_pos rfl, if_pos rfl, List.map_map]
    refine ⟨hsettled, List.map_congr_left fun s _ => ?_⟩
    exact (settle_settle options.guesses s).symm
  | false =>
    obtain ⟨hagree, hguesses⟩ := hshared.resolve_left (Bool.eq_false_iff.1 hsharing)
    have hagree' := (keepsNames_settle options.guesses).agree_map hagree
    rw [if_neg Bool.false_ne_true, if_neg Bool.false_ne_true,
      map_settle_shareAliases hguesses hagree hvalid.nodup,
      shareAliases_shareAliases hagree' hsettled.nodup]
    refine ⟨?_, rfl⟩
    rw [shareAliases_eq_map hsettled.nodup hagree']
    exact (keepsNames_shareWith _).valid_map hsettled

/-- **Normalizing again.** A normalized list is normalized to itself, if aliases are mutual and no
hint leaves a guess to be made under the name of an alias. -/
theorem normalize_idempotent {options : CompileOptions} {specs out : List Spec}
    (h : normalize options specs = .ok out)
    (hshared : options.noSharing = true ∨
      (AliasesAgree specs ∧ GuessesAgree options.guesses specs)) :
    normalize options out = .ok out := by
  obtain ⟨hvalid, rfl⟩ := normalize_eq_ok_iff.1 h
  exact normalize_normalized hvalid hshared

/-- Two spellings of one option, of which the second has the value slot. -/
def formatSpecs : List Spec :=
  [{ name := .flag "-f".toList, aliases := ["--format".toList] },
    { name := .flag "--format".toList, aliases := ["-f".toList], style := .separateOrInline,
      delimiter := ['='], suffix := ['='],
      actions := [{ metavar := "\x7bjson,yaml\x7d".toList }] }]

theorem normalize_idempotent_format :
    ∃ out, normalize {} formatSpecs = .ok out ∧ AliasesAgree formatSpecs ∧
      GuessesAgree [] formatSpecs ∧ normalize {} out = .ok out := by
  have hagree : AliasesAgree formatSpecs := by decide
  have hguesses : GuessesAgree [] formatSpecs := by decide
  exact ⟨_, rfl, hagree, hguesses, normalize_idempotent rfl (Or.inr ⟨hagree, hguesses⟩)⟩

/-- Three options of which the first and the last call the second an alias. -/
def chainedSpecs : List Spec :=
  [{ name := .flag "-c".toList, aliases := ["-a".toList] }, { name := .flag "-a".toList },
    { name := .flag "-d".toList, aliases := ["-a".toList],
      actions := [{ metavar := "X".toList, source := .nothing }] }]

/-- The first pass gives the slot of `-d` to `-a`, the second gives it to `-c` as well. -/
theorem normalize_again_shares :
    ∃ out, normalize {} chainedSpecs = .ok out ∧ normalize {} out ≠ .ok out :=
  ⟨_, rfl, by decide⟩

/-- Hints that leave the guesses of long spellings open. -/
def openHints : List GuessRule :=
  [⟨"--".toList, .sequence (.one (.single '-')) (.one (.single '-')), .guess⟩,
    ⟨[], .nothing, .nothing⟩]

/-- The guess that `--output` gives to `-o` is settled in the second pass, under the name `-o`. -/
theorem normalize_again_settles :
    ∃ out, normalize { guesses := openHints } [
        { name := .flag "-o".toList, aliases := ["--output".toList] },
        { name := .flag "--output".toList, aliases := ["-o".toList],
          actions := [{ metavar := "FILE".toList }] }] = .ok out ∧
      normalize { guesses := openHints } out ≠ .ok out :=
  ⟨_, rfl, by decide⟩

/-! ### Hints that always settle -/

/-- The built-in table knows what to guess for every name. -/
theorem guessSource_ne_guess {hints : List GuessRule} (h : ∀ rule ∈ hints, rule.source ≠ .guess)
    (name metavar : Text) : guessSource name metavar hints ≠ .guess := by
  have hrules : ∀ rule ∈ hints ++ builtinRules, rule.source ≠ .guess := by
    refine List.forall_mem_append.2 ⟨h, ?_⟩
    simp [builtinRules, GuessRule.builtin]
  unfold guessSource
  split
  · exact fun h => nomatch h
  · unfold firstApplicable
    split
    · exact hrules _ (List.mem_of_find?_eq_some ‹_›)
    · exact fun h => nomatch h

/-- If no hint answers with a guess, a slot settled under one name is settled under all. -/
theorem settleAction_settled {hints : List GuessRule} (h : ∀ rule ∈ hints, rule.source ≠ .guess)
    (name other : Text) (a : Action) :
    settleAction hints other (settleAction hints name a) = settleAction hints name a := by
  rcases settleAction_cases hints a with hself | hsettled
  · rw [hself, hself]
  · rw [hsettled]
    refine settleAction_eq_self (fun hguess => ?_) hints other
    exact absurd hguess (guessSource_ne_guess h name a.metavar)

theorem guessesAgree_of_hints {hints : List GuessRule} (h : ∀ rule ∈ hints, rule.source ≠ .guess)
    (specs : List Spec) : GuessesAgree hints specs := by
  intro s _ _ d hd a ha
  have hspelled : s.isSpelledBy d = true := (Bool.and_eq_true_iff.1 (List.mem_filter.1 hd).2).2
  have hbounded : ¬ d.isUnbounded = true := by
    obtain ⟨-, flag, hflag, -⟩ := Spec.isSpelledBy_iff.1 hspelled
    unfold Spec.isUnbounded Spec.index?
    unfold Spec.flag? at hflag
    cases hname : d.name with
    | flag spelling => simp
    | positional index => simp [hname] at hflag
  rw [settle, if_neg hbounded] at ha
  obtain ⟨a, -, rfl⟩ := List.mem_map.1 ha
  exact settleAction_settled h d.label s.label a

end CommandGrammar
