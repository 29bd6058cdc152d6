import CommandGrammar.Proofs.Availability
import CommandGrammar.Proofs.Causality

/-!
# What is offered for an open word

The last word of a line is open if nobody knows it, or if it is the bare spelling of an option: it
offers the options that begin with it. Whoever accepts an offer puts another word in its place, and
the line is read again.

Up to the last word both lines are read alike, so they come to the same pause. There the word was
neither taken by a pending slot nor by a slot for operands, and a word that begins with it fares no
better. An option that is offered is therefore read as this option, unless the options have ended
on the line: a word after two dashes still offers every option that is left, and none of them is
read as one.

* `run_open`, `Pause.goOn_open`: what the record of an open word tells;
* `run_offered`, `run_after_marker`: how an offered option is read in the place of the word;
* `offered_read_as_option_iff`: the offers of a line.
-/

namespace CommandGrammar

/-! ### The last record of a word -/

theorem Record.Covers.length_stub_le {r : Record} {word : Text} (h : r.Covers word) :
    r.stub.length ≤ word.length := by
  rcases h with hstub | ⟨-, hsuffix⟩
  · exact Nat.le_of_eq (congrArg List.length hstub)
  · exact hsuffix.length_le

/-- The last record of a word holds no more than the word. -/
theorem Accounts.length_stub_le {word : Text} {group : List Record} (h : Accounts word group) :
    ∀ r ∈ group.getLast?, r.stub.length ≤ word.length := by
  intro r hr
  cases h with
  | single last hlast =>
    obtain rfl : last = r := by simpa using hr
    exact hlast.length_stub_le
  | cluster flags rest heads last hword _ _ _ hlast =>
    obtain rfl : last = r := by simpa using hr
    have hlength := hlast.length_stub_le
    rw [hword]
    simp only [List.length_append, List.length_cons] at hlength ⊢
    omega

theorem Accounts.ne_nil {word : Text} {group : List Record} (h : Accounts word group) :
    group ≠ [] := by
  cases h with
  | single => exact List.cons_ne_nil _ _
  | cluster => exact List.concat_ne_nil _ _

namespace Line

/-! ### A word and the beginning of it -/

theorem isFlagLike_of_isPrefix {word longer : Text} (h : word <+: longer)
    (hlike : isFlagLike word true = true) : isFlagLike longer true = true := by
  obtain ⟨more, rfl⟩ := h
  unfold isFlagLike at hlike
  split at hlike
  · simp [isFlagLike]
  · exact absurd hlike Bool.false_ne_true

/-- A word that may be an option may still be one when it has grown. -/
theorem wantsOption_of_isPrefix {members : List Member} {word longer : Text}
    (h : word <+: longer) (hwants : wantsOption members (isFlagLike word true) = true) :
    wantsOption members (isFlagLike longer true) = true := by
  unfold wantsOption at *
  cases hlike : isFlagLike word true with
  | true => rw [isFlagLike_of_isPrefix h hlike, Bool.true_or, Bool.true_or]
  | false =>
    rw [hlike, Bool.false_or] at hwants
    rw [Bool.or_assoc, hwants, Bool.or_true]

/-- Without a slot for operands every word is tried as an option. -/
theorem wantsOption_of_no_slot {members : List Member} (h : firstPositional? members = none)
    (flagLike : Bool) : wantsOption members flagLike = true := by
  have hnone : members.any (fun m => m.spec.isPositional) = false := by
    unfold firstPositional? at h
    split at h
    · rename_i hfilter
      rw [List.any_eq_false]
      exact List.filter_eq_nil_iff.1 hfilter
    · exact absurd h (by simp)
  unfold wantsOption
  rw [hnone, Bool.not_false, Bool.or_true, Bool.true_or]

/-- A pending slot that does not take the last word does not take it when it has grown. -/
theorem Pause.takes_of_isPrefix {p : Pause} {word longer : Text} (h : word <+: longer)
    (htakes : p.takes longer true = true) : p.takes word true = true := by
  have hlike : isFlagLike longer true = false → isFlagLike word true = false := by
    intro hnot
    by_contra hword
    rw [Bool.not_eq_false] at hword
    rw [isFlagLike_of_isPrefix h hword] at hnot
    exact absurd hnot (by simp)
  obtain ⟨line, ended, pending⟩ := p
  unfold takes at *
  cases pending with
  | nothing => exact htakes
  | values m occurrence slot values actions =>
    simp only [Bool.and_eq_true, Bool.not_eq_true', Bool.and_eq_false_iff, Bool.or_eq_false_iff]
      at htakes ⊢
    exact ⟨htakes.1, htakes.2.imp_right fun hstyle => ⟨hstyle.1, hlike hstyle.2⟩⟩
  | operands m occurrence values =>
    simp only [Bool.not_eq_true', Bool.and_eq_false_iff] at htakes ⊢
    exact htakes.imp_right hlike

/-! ### An open word -/

theorem eq_of_getLast?_concat {history : List Record} {last r : Record}
    (h : (history ++ [last]).getLast? = some r) : last = r := by
  rw [List.getLast?_concat] at h
  exact Option.some.inj h

/-- A line with one word left records nothing longer than this word in the end. -/
theorem length_stub_le_of_last {lookup : Text → Option Grammar} {l : Line} {ended : Bool}
    {word : Text} (htokens : l.tokens = [word]) :
    ∀ r ∈ (run lookup l ended).history.getLast?, r.stub.length ≤ word.length := by
  obtain ⟨hdone, words, groups, hwords, hhistory, hgroups⟩ := run_accounted lookup l ended
  rw [hdone, List.append_nil, htokens] at hwords
  rw [← hwords] at hgroups
  cases hgroups with
  | cons hgroup hnil =>
    cases hnil
    intro r hr
    rw [hhistory, List.flatten_singleton, List.getLast?_append_of_ne_nil _ hgroup.ne_nil] at hr
    exact hgroup.length_stub_le r hr

/-- What the record of an open word tells: it offers what is available, and either the word was
tried as an option, or the options had ended and there was no slot for it. -/
structure OpenWord (l : Line) (ended : Bool) (word : Text) (r : Record) : Prop where
  action : r.action = catchAll l.available
  isMarker : r.isMarker = false
  unread : (ended = false ∧ wantsOption l.available (isFlagLike word true) = true) ∨
    (ended = true ∧ firstPositional? l.available = none)

theorem not_ended_of_triesOptions {l : Line} {ended : Bool} {word : Text}
    (h : triesOptions { l with tokens := [] } ended word = true) :
    ended = false ∧ wantsOption l.available (isFlagLike word true) = true := by
  unfold triesOptions at h
  rw [Bool.and_eq_true, Bool.not_eq_true'] at h
  exact h

/-- **An open last word**: its record is the only one, and is of a word that nobody knows or of the
bare name of an option. -/
theorem run_open {lookup : Text → Option Grammar} {l : Line} {ended : Bool} {word : Text}
    {r : Record} (h : Plain l.available)
    (hlast : (run lookup { l with tokens := [word] } ended).history.getLast? = some r)
    (hslot : r.slot = none) (hstub : r.stub = word) :
    (run lookup { l with tokens := [word] } ended).history = l.history ++ [r] ∧
      OpenWord l ended word r := by
  rw [run_cons lookup { l with tokens := [word] } ended word [] rfl] at hlast ⊢
  have houtcome := step_outcome { l with tokens := [] } ended word
  generalize step { l with tokens := [] } ended word = s at *
  cases houtcome with
  | marker _ _ hne => exact absurd rfl hne
  | unknownOption htries _ =>
    rw [run_settled_of_done rfl rfl] at hlast ⊢
    obtain rfl : l.unknownRecord .unknownOption word = r := eq_of_getLast?_concat hlast
    exact ⟨rfl, rfl, rfl, Or.inl (not_ended_of_triesOptions htries)⟩
  | unknownOperand _ hfirst =>
    rw [run_settled_of_done rfl rfl] at hlast ⊢
    obtain rfl : l.unknownRecord .unknownPositional word = r := eq_of_getLast?_concat hlast
    refine ⟨rfl, rfl, rfl, ?_⟩
    cases ended with
    | true => exact Or.inr ⟨rfl, hfirst⟩
    | false => exact Or.inl ⟨rfl, wantsOption_of_no_slot hfirst _⟩
  | named m words left htries hhit htaken =>
    obtain ⟨rfl, rfl⟩ := List.append_eq_nil_iff.1 htaken.split.symm
    rw [run_settled_of_done (h m (findOption_named hhit).1) rfl] at hlast ⊢
    rw [valueRecords_nil_right] at hlast ⊢
    obtain rfl : nameRecord l m word = r := eq_of_getLast?_concat hlast
    exact ⟨rfl, rfl, rfl, Or.inl (not_ended_of_triesOptions htries)⟩
  | inline m value words left _ _ hm _ htakes _ htaken =>
    obtain ⟨rfl, rfl⟩ := List.append_eq_nil_iff.1 htaken.split.symm
    obtain ⟨action, actions, hactions⟩ := List.exists_cons_of_ne_nil (Spec.takesValue_iff.1 htakes)
    rw [run_settled_of_done (h m hm) rfl] at hlast
    rw [hactions, valueRecords, valueRecords_nil_right] at hlast
    obtain rfl : valueRecord m (nextOccurrence l.history) 0 action [] value = r :=
      eq_of_getLast?_concat hlast
    exact absurd hslot (by simp [valueRecord])
  | cluster m tail _ _ hcluster _ =>
    obtain ⟨c, hword, -, -, hm, -, -⟩ := splitCluster_eq_some hcluster
    -- What is put back is shorter than the word, and so is all that is recorded of it.
    unfold settled at hlast
    rw [h m hm] at hlast
    have hlength : r.stub.length ≤ ('-' :: tail).length := length_stub_le_of_last rfl r hlast
    rw [hstub, hword, List.length_cons, List.length_cons, List.length_cons] at hlength
    omega
  | operand m words left _ hfirst htaken =>
    obtain ⟨rfl, rfl⟩ := List.append_eq_nil_iff.1 htaken.split.symm
    rw [run_settled_of_done (h m (firstPositional?_eq_some hfirst).1) rfl] at hlast
    obtain rfl : operandRecord m (nextOccurrence l.history) (restSlot m.spec []) [] word = r :=
      eq_of_getLast?_concat hlast
    exact absurd hslot (by simp [operandRecord])

/-! ### An offered option in the place of the last word -/

section LastWord

variable (lookup : Text → Option Grammar) {l : Line} {word : Text}

/-- The spelling of an available option, tried as an option, is its bare name. -/
theorem run_offered (h : Plain l.available) (hflag : word ∈ flagsOf l.available)
    (hwants : wantsOption l.available (isFlagLike word true) = true) :
    ∃ m, m.spec.flag? = some word ∧
      (run lookup { l with tokens := [word] } false).history
        = l.history ++ [nameRecord l m word] := by
  obtain ⟨m, hm, hspelling⟩ := List.mem_filterMap.1 hflag
  obtain ⟨m', hexact⟩ : ∃ m', exactly? l.available word = some m' := by
    rw [← Option.isSome_iff_exists, exactly?, List.find?_isSome]
    exact ⟨m, hm, by simpa using hspelling⟩
  have hhit : findOption l.available word true = .named m' := by
    unfold findOption
    rw [hexact]
  have hread : readOption { l with tokens := [] } word
      = ((Pause.afterName l false m' word).supplied [], none) :=
    (readOption_named hhit).trans
      (Pause.acceptNamed_eq_supplied false [] (h m' (exactly?_eq_some hexact).1))
  have hstep : step { l with tokens := [] } false word
      = ⟨(Pause.afterName l false m' word).supplied [], false, none⟩ := by
    unfold step
    simp only [List.isEmpty_nil, hwants, hread]
    simp
  refine ⟨m', (exactly?_eq_some hexact).2, ?_⟩
  rw [run_cons lookup { l with tokens := [word] } false word [] rfl, hstep,
    run_settled_of_done rfl (by rw [Pause.supplied_nil]), Pause.supplied_nil]
  rfl

/-- Once the options have ended, a word without a slot is unknown, whatever it is. -/
theorem run_after_marker (hfirst : firstPositional? l.available = none) :
    (run lookup { l with tokens := [word] } true).history
      = l.history ++ [l.unknownRecord .unknownPositional word] := by
  have hstep : step { l with tokens := [] } true word
      = ⟨{ l with tokens := [] }.push (l.unknownRecord .unknownPositional word), true, none⟩ := by
    unfold step readOperand
    simp only [hfirst, Bool.not_true, Bool.false_and, Bool.false_eq_true, if_false]
    rfl
  rw [run_cons lookup { l with tokens := [word] } true word [] rfl, hstep,
    run_settled_of_done rfl rfl]
  rfl

end LastWord

namespace Pause

/-- The last word, if no pending slot takes it, is read with nothing pending. -/
theorem goOn_of_not_takes {lookup : Text → Option Grammar} {p : Pause} {word : Text}
    (h : p.takes word true = false) :
    p.goOn lookup [word] = run lookup { p.line with tokens := [word] } p.ended := by
  rw [goOn, supplied_of_not_takes h]
  rfl

/-- **An open last word after a pause** is not taken by a pending slot. -/
theorem goOn_open {lookup : Text → Option Grammar} {p : Pause} {word : Text} {r : Record}
    (h : Plain p.line.available)
    (hlast : (p.goOn lookup [word]).history.getLast? = some r) (hslot : r.slot = none)
    (hstub : r.stub = word) :
    p.takes word true = false ∧ (p.goOn lookup [word]).history = p.line.history ++ [r] ∧
      OpenWord p.line p.ended word r := by
  cases htakes : p.takes word true with
  | true =>
    obtain ⟨r', hhistory, -, hvalue⟩ := history_filled htakes
    have hread : (p.goOn lookup [word]).history = (p.filled word).line.history := by
      rw [goOn, supplied_of_takes htakes, supplied_nil, run_nil _ _ _ rfl]
    rw [hread, hhistory] at hlast
    rw [eq_of_getLast?_concat hlast] at hvalue
    exact absurd hslot hvalue
  | false =>
    rw [goOn_of_not_takes htakes] at hlast ⊢
    exact ⟨rfl, run_open h hlast hslot hstub⟩

end Pause

/-! ### The offers of a line -/

/-- **Every option that an open word offers is read as this option, unless the options have ended
on the line.** With the offered spelling in the place of the word, the last record has this spelling
for its name and no slot; it is of an option exactly if no word before has ended the options. -/
theorem offered_read_as_option_iff (lookup : Text → Option Grammar) {available : List Member}
    (h : Plain available) (words : List Text) {word : Text} {r : Record}
    (hlast : (parse lookup (words ++ [word]) available).history.getLast? = some r)
    (hslot : r.slot = none) (hstub : r.stub = word) {host : Host} {offered : Text}
    (hoffered : offered ∈ r.action.offers host word) :
    ∃ r', (parse lookup (words ++ [offered]) available).history.getLast? = some r' ∧
      r'.name = offered ∧ r'.slot = none ∧
      (r'.context = .option ↔
        ∀ earlier ∈ (parse lookup (words ++ [word]) available).history,
          earlier.isMarker = false) := by
  obtain ⟨p, hp⟩ := Pause.exists_readsAll words (Pause.Regular.start h)
  have hread : ∀ last, parse lookup (words ++ [last]) available = p.goOn lookup [last] :=
    fun last => hp.parse_eq lookup (List.cons_ne_nil last [])
  rw [hread word] at hlast
  obtain ⟨htakes, hhistory, hopen⟩ := Pause.goOn_open hp.regular.plain hlast hslot hstub
  rw [hopen.action, offers_catchAll, List.mem_filter] at hoffered
  obtain ⟨hflag, hstarts⟩ := hoffered
  have hprefix : word <+: offered := Text.startsWith_iff.1 hstarts
  -- What did not take the word does not take what begins with it either.
  have htakes' : p.takes offered true = false := by
    cases hgrown : p.takes offered true with
    | false => rfl
    | true => rw [← htakes, Pause.takes_of_isPrefix hprefix hgrown]
  have hmarker : (∀ earlier ∈ (p.goOn lookup [word]).history, earlier.isMarker = false) ↔
      p.ended = false := by
    rw [hhistory, List.forall_mem_append, List.forall_mem_singleton,
      and_iff_left hopen.isMarker, ← Bool.not_eq_true, hp.regular.ended_iff]
    simp only [not_exists, not_and, Bool.not_eq_true]
  rw [hread word, hread offered, hmarker, Pause.goOn_of_not_takes htakes']
  rcases hopen.unread with ⟨hended, hwants⟩ | ⟨hended, hfirst⟩
  · rw [hended]
    obtain ⟨m, hspelling, hname⟩ := run_offered lookup hp.regular.plain hflag
      (wantsOption_of_isPrefix hprefix hwants)
    refine ⟨nameRecord p.line m offered, ?_, ?_, rfl, iff_of_true rfl rfl⟩
    · rw [hname, List.getLast?_concat]
    · show m.spec.flag?.getD [] = offered
      rw [hspelling]
      rfl
  · rw [hended, run_after_marker lookup hfirst]
    refine ⟨p.line.unknownRecord .unknownPositional offered, List.getLast?_concat, rfl, rfl, ?_⟩
    exact iff_of_false (fun hcontext => nomatch hcontext) (fun hfalse => nomatch hfalse)

/-- The beginning of a long option after an operand. -/
theorem offered_read_as_option_list :
    Plain listGrammar.members ∧ ∃ r,
      (parse listLookup ["src".toList, "--a".toList] listGrammar.members).history.getLast?
          = some r ∧
        r.slot = none ∧ r.stub = "--a".toList ∧
        ∀ host, "--all".toList ∈ r.action.offers host "--a".toList ∧
          ∃ r', (parse listLookup ["src".toList, "--all".toList]
              listGrammar.members).history.getLast? = some r' ∧
            r'.name = "--all".toList ∧ r'.slot = none ∧ r'.context = .option := by
  have hplain : Plain listGrammar.members := by unfold Plain; decide
  have hlast : (parse listLookup ["src".toList, "--a".toList] listGrammar.members).history.getLast?
      = some (unknownRecord { tokens := [], available := listGrammar.members, history := [{}] }
          .unknownOption "--a".toList) := by
    decide +kernel
  refine ⟨hplain, _, hlast, rfl, rfl, fun host => ?_⟩
  have hoffered : "--all".toList ∈ (catchAll listGrammar.members).offers host "--a".toList := by
    rw [offers_catchAll]
    decide
  obtain ⟨r', hread, hname, hslot, hcontext⟩ := offered_read_as_option_iff listLookup hplain
    ["src".toList] hlast rfl rfl hoffered
  refine ⟨hoffered, r', hread, hname, hslot, hcontext.2 ?_⟩
  decide +kernel

/-! ### After the end of the options -/

/-- A command with one option and no operands. -/
def switchGrammar : Grammar := .ofSpecs "tool".toList [{ name := .flag "-v".toList }] []

theorem switchGrammar_compiled : switchGrammar.Compiled := by
  have h : compileGrammar {} "tool".toList [.option "-v".toList] = .ok switchGrammar := rfl
  exact Grammar.compiled_of_compileGrammar h

/-- After two dashes an unknown word offers an option, and the option is unknown in its place. -/
theorem offered_after_marker_is_unknown :
    switchGrammar.Compiled ∧ Plain switchGrammar.members ∧
      ∃ r, (parse listLookup ["--".toList, "-".toList] switchGrammar.members).history.getLast?
          = some r ∧
        r.slot = none ∧ r.stub = "-".toList ∧
        (∀ host, "-v".toList ∈ r.action.offers host "-".toList) ∧
        ∃ r', (parse listLookup ["--".toList, "-v".toList] switchGrammar.members).history.getLast?
            = some r' ∧ r'.context = .unknownPositional := by
  have hlast : (parse listLookup ["--".toList, "-".toList] switchGrammar.members).history.getLast?
      = some (unknownRecord { tokens := [], available := switchGrammar.members, history := [{}] }
          .unknownPositional "-".toList) := by
    decide +kernel
  have hplain : Plain switchGrammar.members := by unfold Plain; decide
  refine ⟨switchGrammar_compiled, hplain, _, hlast, rfl, rfl, fun host => ?_,
    unknownRecord { tokens := [], available := switchGrammar.members, history := [{}] }
      .unknownPositional "-v".toList, ?_, rfl⟩
  · rw [show (unknownRecord _ _ _).action = catchAll switchGrammar.members from rfl,
      offers_catchAll]
    decide
  · decide +kernel

end Line

end CommandGrammar
