import CommandGrammar.Proofs.FirstValue
import CommandGrammar.Proofs.Lookahead
import CommandGrammar.Proofs.Numbering
import CommandGrammar.Proofs.Pause
import CommandGrammar.Proofs.Together
import CommandGrammar.Proofs.UsedAlike

/-!
# One spelling of an option for another

A line on which a spelling of an option is given is read like the line with another spelling in its
place, if the two are used alike. Up to the spelling a match can see no more of it than that it
looks like an option; the match of the option takes the same words and removes the same
specifications; and after it the lines are the same but for their records, of which nothing but the
numbers matters any more.

The records of the one match tell which spelling was given. `Record.respelled` puts the other one
in their place.

* `acceptNamed_respelled`, `reading_respelled`: the match of either spelling;
* `run_of_history`: the words after the match;
* `spellings_interchangeable`: the whole line.
-/

namespace CommandGrammar

/-- The record of a match under another spelling of the option. -/
def Record.respelled (m : Member) (r : Record) : Record :=
  { r with
    name := m.spec.flag?.getD []
    member := some m
    stub := if r.isValue then r.stub else m.spec.flag?.getD [] }

/-- Whether a spelling begins with a dash, and is neither a lone dash nor the end of the options. -/
structure Dashed (flag : Text) : Prop where
  head : flag.head? = some '-'
  notLone : flag ≠ ['-']
  notEnd : flag ≠ Line.endOfOptions

theorem Dashed.isFlagLike {flag : Text} (h : Dashed flag) (isLast : Bool) :
    Line.isFlagLike flag isLast = true := by
  obtain ⟨hhead, hlone, -⟩ := h
  cases flag with
  | nil => simp at hhead
  | cons c tail =>
    obtain rfl : c = '-' := by simpa using hhead
    have htail : tail ≠ [] := fun hnil => hlone (by rw [hnil])
    simp [Line.isFlagLike, htail]

namespace Line

/-- A word that is spelled like an available option names this option. -/
theorem step_named {l : Line} {flag : Text} {m : Member} (h : Dashed flag)
    (hexact : exactly? l.available flag = some m) :
    step l false flag = ⟨(acceptNamed l m flag).1, false, (acceptNamed l m flag).2⟩ := by
  have hfind : findOption l.available flag l.tokens.isEmpty = .named m := by
    unfold findOption
    rw [hexact]
  have hmarker : (flag == endOfOptions) = false := beq_eq_false_iff_ne.2 h.notEnd
  have hwants : wantsOption l.available (Line.isFlagLike flag l.tokens.isEmpty) = true := by
    rw [h.isFlagLike]
    rfl
  unfold step
  dsimp only
  rw [hmarker, hwants, readOption_named hfind]
  rfl

/-! ### The match of either spelling -/

section Respelled

variable {m m' : Member} (halike : m.spec.UsedAlike m'.spec)

include halike

theorem takeValues_respelled (occurrence : Nat) (actions : List Action) :
    ∀ (slot : Nat) (values tokens : List Text),
      takeValues m' occurrence slot values actions tokens
        = ((takeValues m occurrence slot values actions tokens).1.map (Record.respelled m'),
          (takeValues m occurrence slot values actions tokens).2) := by
  have hleaves : leavesOut m'.spec = leavesOut m.spec := by
    funext next rest
    unfold leavesOut
    rw [halike.style, halike.valueOptional]
  induction actions with
  | nil => intro slot values tokens; simp [takeValues]
  | cons action actions ih =>
    intro slot values tokens
    cases tokens with
    | nil => simp [takeValues]
    | cons next rest =>
      rw [takeValues, takeValues, hleaves]
      split
      · rfl
      · rw [ih]
        rfl

/-- Two spellings of an option remove the same specifications. -/
theorem remaining_respelled (hoption : m.spec.isOption = true) (hoption' : m'.spec.isOption = true)
    (hnames : ∀ name, m'.spec.answersTo name = m.spec.answersTo name) (members : List Member) :
    remaining members m'.spec = remaining members m.spec := by
  have hbounded : ∀ {s : Spec}, s.isOption = true → s.isUnbounded = false := by
    intro s hs
    rw [Bool.eq_false_iff]
    intro hunbounded
    rw [Spec.isOption_eq_not_isPositional, Spec.isPositional_of_isUnbounded hunbounded] at hs
    exact absurd hs Bool.false_ne_true
  refine List.filter_congr fun s _ => ?_
  rw [Bool.eq_iff_iff, staysAfter_iff, staysAfter_iff]
  unfold Spec.Removes
  rw [Spec.spells_iff_answersTo (Or.inr hoption), Spec.spells_iff_answersTo (Or.inr hoption'),
    halike.repeatable, halike.excludes, hbounded hoption, hbounded hoption']
  simp only [hnames]

/-- **The match of either spelling** takes the same words and leaves the same line, but for the
records of it. -/
theorem acceptNamed_respelled {l : Line} {flag other : Text} (hflag : m.spec.flag? = some flag)
    (hother : m'.spec.flag? = some other) (hplain : m.spec.embedded = none)
    (hnames : ∀ name, m'.spec.answersTo name = m.spec.answersTo name) :
    ∃ words left records, l.tokens = words ++ left ∧ records.map Record.stub = flag :: words ∧
      (∀ r ∈ records, r.member = some m ∧ r.occurrence = nextOccurrence l.history) ∧
      acceptNamed l m flag = (l.matched m left records, none) ∧
      acceptNamed l m' other = (l.matched m left (records.map (Record.respelled m')), none) := by
  have hplain' : m'.spec.embedded = none := halike.embedded.trans hplain
  obtain ⟨words, left, hsplit, hfits, heq⟩ :=
    takeValues_eq m (nextOccurrence l.history) m.spec.actions 0 [] l.tokens
  refine ⟨words, left, nameRecord l m flag
    :: valueRecords m (nextOccurrence l.history) 0 [] m.spec.actions words, hsplit, ?_, ?_, ?_, ?_⟩
  · rw [List.map_cons, stubs_valueRecords m _ m.spec.actions 0 [] words hfits]
    rfl
  · refine List.forall_mem_cons.2 ⟨⟨rfl, rfl⟩, fun r hr => ?_⟩
    obtain ⟨-, -, hmember, hoccurrence⟩ := mem_valueRecords hr
    exact ⟨hmember, hoccurrence⟩
  · unfold acceptNamed fillSlots
    rw [hplain]
    dsimp only
    rw [List.length_nil, List.drop_zero, heq, List.append_assoc]
    rfl
  · have hname : nameRecord l m' other = (nameRecord l m flag).respelled m' := by
      simp [nameRecord, Record.respelled, Record.isValue, hother]
    unfold acceptNamed fillSlots
    rw [hplain', halike.actions, hname, remaining_respelled halike (Spec.isOption_of_flag? hflag)
      (Spec.isOption_of_flag? hother) hnames]
    dsimp only
    rw [List.length_nil, List.drop_zero, takeValues_respelled halike, heq, List.append_assoc]
    rfl

/-- **The word of either spelling**, where both are available and the options have not ended. -/
theorem reading_respelled {now : Moment} {flag other : Text} {rest : List Text}
    (hopen : now.ended = false) (hdashed : Dashed flag) (hdashed' : Dashed other)
    (hexact : exactly? now.line.available flag = some m)
    (hexact' : exactly? now.line.available other = some m') (hplain : m.spec.embedded = none)
    (hnames : ∀ name, m'.spec.answersTo name = m.spec.answersTo name) :
    ∃ words left records, rest = words ++ left ∧ records.map Record.stub = flag :: words ∧
      (∀ r ∈ records, r.member = some m ∧ r.occurrence = nextOccurrence now.line.history) ∧
      now.reading flag rest = ⟨now.line.matched m left records, false, none⟩ ∧
      Moment.reading { now with line := { now.line with tokens := other :: rest } } other rest
        = ⟨now.line.matched m left (records.map (Record.respelled m')), false, none⟩ := by
  let l : Line := { now.line with tokens := rest }
  have hflag := (exactly?_eq_some hexact).2
  have hother := (exactly?_eq_some hexact').2
  obtain ⟨words, left, records, hsplit, hstubs, hrecords, haccept, haccept'⟩ :=
    acceptNamed_respelled (l := l) halike hflag hother hplain hnames
  have hnamed := step_named (l := l) hdashed hexact
  have hnamed' := step_named (l := l) hdashed' hexact'
  rw [haccept] at hnamed
  rw [haccept'] at hnamed'
  refine ⟨words, left, records, hsplit, hstubs, hrecords, ?_, ?_⟩
  · unfold Moment.reading
    rw [hopen]
    exact hnamed
  · unfold Moment.reading
    rw [hopen]
    exact hnamed'

end Respelled

/-! ### The words after the match -/

theorem nextOccurrence_respelled (m : Member) (history records : List Record) :
    nextOccurrence (history ++ records.map (Record.respelled m))
      = nextOccurrence (history ++ records) := by
  unfold nextOccurrence
  rw [List.foldl_append, List.foldl_append, List.foldl_map]
  rfl

/-- **The rest of a line** is read alike after two histories that end with the same number. -/
theorem run_of_history (lookup : Text → Option Grammar) (l : Line) (ended : Bool)
    {history : List Record} (h : nextOccurrence history = nextOccurrence l.history) :
    ∃ later, (run lookup l ended).history = l.history ++ later ∧
      run lookup { l with history := history } ended
        = { run lookup l ended with history := history ++ later } := by
  rw [run_eq_after_fresh lookup { l with history := history }, run_eq_after_fresh lookup l]
  refine ⟨_, rfl, ?_⟩
  unfold after fresh
  dsimp only
  rw [h]

/-- A level after a word that hands nothing over. -/
theorem run_of_reading {lookup : Text → Option Grammar} {start line : Line} {now : Moment}
    {token : Text} {rest : List Text} {ended : Bool} (hnow : Reaches lookup start now)
    (hread : now.line.tokens = token :: rest)
    (hstep : now.reading token rest = ⟨line, ended, none⟩) :
    run lookup start false = run lookup line ended := by
  unfold Moment.reading at hstep
  rw [← run_of_reaches hnow, run_cons lookup now.line now.ended token rest hread, hstep]
  rfl

/-! ### The whole line -/

/-- **Where one spelling of an option is available**, a word that is any of them finds it. -/
theorem exists_exactly {g : Grammar} {options : CompileOptions} {d : Declaration}
    {forms : List Descriptor.FlagSyntax} {own before after : List Spec}
    (h : g.HasOption options d forms own before after) {lookup : Text → Option Grammar}
    {start : Line} {now : Moment} (hstart : start.available = g.members)
    (hnow : Reaches lookup start now) {flag other : Text}
    (hflag : flag ∈ forms.map Descriptor.FlagSyntax.flag)
    (hother : other ∈ forms.map Descriptor.FlagSyntax.flag)
    (havailable : ∃ m ∈ now.line.available, m.spec.flag? = some flag) :
    ∃ m ∈ now.line.available, exactly? now.line.available other = some m ∧
      m.spec.flag? = some other ∧ m.spec ∈ normalized options own := by
  have hmember : ∀ m ∈ now.line.available, m ∈ g.members := by
    intro m hm
    rw [available_of_reaches hnow, hstart] at hm
    exact (List.mem_filter.1 hm).1
  have hspelled : ∀ {m : Member} {spelling : Text}, m ∈ g.members →
      spelling ∈ forms.map Descriptor.FlagSyntax.flag → m.spec.flag? = some spelling →
      m.spec ∈ normalized options own := by
    intro m spelling hm hspelling hself
    have hanswers := Spec.answersTo_iff.2 (Or.inl hself)
    exact (h.answersTo_iff (List.mem_map_of_mem hm) hspelling).1 hanswers
  obtain ⟨m, hm, hself⟩ := havailable
  have hown := hspelled (hmember m hm) hflag hself
  obtain ⟨t, ht, htflag⟩ := h.exists_spelling hother
  obtain ⟨m', hm', rfl⟩ : ∃ m' ∈ g.members, m'.spec = t := by
    refine List.mem_map.1 (?_ : t ∈ g.specs)
    rw [h.specs]
    exact List.mem_append_left _ (List.mem_append_right _ ht)
  have hstays := h.available hstart hnow hown hm' ht hm
  have hfound : (exactly? now.line.available other).isSome := by
    rw [exactly?, List.find?_isSome]
    exact ⟨m', hstays, by simp [htflag]⟩
  obtain ⟨found, hexact⟩ := Option.isSome_iff_exists.1 hfound
  obtain ⟨hmem, hfoundFlag⟩ := exactly?_eq_some hexact
  exact ⟨found, hmem, hexact, hfoundFlag, hspelled (hmember found hmem) hother hfoundFlag⟩

/-- An option that names no embedded command hands no words over. -/
theorem exists_compileOption_plain {options : CompileOptions} {d : Declaration} {specs : List Spec}
    (hkind : d.kind = .option) (hembedding : d.embedding = none) (hname : d.embeddingName = none)
    (h : d.compile options = .ok specs) : ∃ excludes, d.compileOption excludes none = .ok specs := by
  unfold Declaration.compile Declaration.resolveEmbedding at h
  rw [hembedding, hname, hkind] at h
  obtain ⟨excludes, -, h⟩ := bind_eq_ok_iff.1 h
  exact ⟨excludes, h⟩

/-- **One spelling of an option stands for another.** Let at most one spelling of an option, which
shares its slots and hands no words over, have a value descriptor. If a line comes to a word that is
one of its spellings while that is available and the options have not ended, the line with any other
spelling in the place of this word comes there as well. Both then take the same words as values and
leave the same specifications, and they are read alike to their ends, but for the name, the
specification and the word of the flag in the records of this one match. -/
theorem spellings_interchangeable {options : CompileOptions} {program : Text}
    {declarations : List Declaration} {compiled : Grammar}
    (h : compileGrammar options program declarations = .ok compiled)
    (hsharing : options.noSharing = false) {d : Declaration} (hd : d ∈ declarations)
    (hkind : d.kind = .option) (hindependent : d.independent = false)
    (hembedding : d.embedding = none) (hname : d.embeddingName = none)
    {forms : List Descriptor.FlagSyntax} (hforms : d.forms = .ok forms)
    (hone : Descriptor.OneDescriptor forms) {flag other : Text}
    (hflag : flag ∈ forms.map Descriptor.FlagSyntax.flag) (hdashed : Dashed flag)
    (hother : other ∈ forms.map Descriptor.FlagSyntax.flag) (hdashed' : Dashed other)
    (edition : Nat) {lookup : Text → Option Grammar} {before rest : List Text} {now : Moment}
    (hnow : Reaches lookup
      { tokens := before ++ flag :: rest
        available := (compiled.issue edition).members } now)
    (hopen : now.ended = false) (hread : now.line.tokens = flag :: rest)
    (havailable : ∃ m ∈ now.line.available, m.spec.flag? = some flag) :
    Reaches lookup
        { tokens := before ++ other :: rest
          available := (compiled.issue edition).members }
        { now with line := { now.line with tokens := other :: rest } } ∧
      ∃ m ∈ now.line.available, ∃ m' ∈ now.line.available,
        m.spec.flag? = some flag ∧ m'.spec.flag? = some other ∧
        ∃ words left records later, rest = words ++ left ∧
          records.map Record.stub = flag :: words ∧
          (∀ r ∈ records, r.member = some m ∧ r.occurrence = nextOccurrence now.line.history) ∧
          (now.next lookup flag rest).line = now.line.matched m left records ∧
          (Moment.next lookup { now with line := { now.line with tokens := other :: rest } } other
              rest).line
            = now.line.matched m left (records.map (Record.respelled m')) ∧
          (parse lookup (before ++ flag :: rest) (compiled.issue edition).members).history
            = now.line.history ++ records ++ later ∧
          parse lookup (before ++ other :: rest) (compiled.issue edition).members
            = { parse lookup (before ++ flag :: rest) (compiled.issue edition).members with
                history := now.line.history ++ records.map (Record.respelled m') ++ later } := by
  obtain ⟨forms', own, first, last, hoption⟩ := Grammar.exists_hasOption h hd hkind edition
  obtain rfl : forms' = forms := Except.ok.inj (hoption.forms.symm.trans hforms)
  obtain ⟨excludes, hown⟩ := exists_compileOption_plain hkind hembedding hname hoption.compiles
  obtain ⟨m, hm, hexact, hmflag, hmown⟩ :=
    exists_exactly hoption rfl hnow hflag hflag havailable
  obtain ⟨m', hm', hexact', hmflag', hmown'⟩ :=
    exists_exactly hoption rfl hnow hflag hother havailable
  have halike := usedAlike_normalized hown hforms hone hsharing hoption.valid hindependent
    m.spec hmown m'.spec hmown'
  have hplain := embedded_normalized hown hforms hsharing hoption.valid m.spec hmown
  -- Up to the spelling both lines are read alike.
  have hlike : isFlagLike other rest.isEmpty = isFlagLike flag rest.isEmpty := by
    rw [hdashed.isFlagLike, hdashed'.isFlagLike]
  let start : Line := { tokens := [], available := (compiled.issue edition).members }
  obtain ⟨left, htokens, hnow'⟩ := @reaches_exchanged flag other rest hlike lookup start before now
    hnow (Nat.le_of_eq (congrArg weight hread.symm))
  obtain rfl : left = [] := by
    rw [hread] at htokens
    have hlength := congrArg List.length htokens
    simpa using hlength
  refine ⟨hnow', m, hm, m', hm', hmflag, hmflag', ?_⟩
  obtain ⟨words, left, records, hsplit, hstubs, hrecords, hstep, hstep'⟩ :=
    reading_respelled halike hopen hdashed hdashed' hexact hexact' hplain
      fun name => hoption.answersTo_eq hmown' hmown name
  have hnumbers := nextOccurrence_respelled m' now.line.history records
  obtain ⟨later, hlater, hrun⟩ :=
    run_of_history lookup (now.line.matched m left records) false hnumbers
  have hparse := run_of_reading hnow hread hstep
  have hparse' := run_of_reading hnow' rfl hstep'
  refine ⟨words, left, records, later, hsplit, hstubs, hrecords, ?_, ?_, ?_, ?_⟩
  · rw [Moment.next, hstep]
    rfl
  · rw [Moment.next, hstep']
    rfl
  · rw [parse, hparse, hlater]
    rfl
  · rw [parse, parse, hparse, ← hrun]
    exact hparse'

/-- The forms of the first option of a command. -/
def formatForms : List Descriptor.FlagSyntax :=
  [{ flag := "-f".toList },
    { flag := "--format".toList, style := .separateOrInline, delimiter := ['='], suffix := ['='],
      metavars := ["\x7bjson,yaml\x7d".toList] }]

/-- The short spelling has no value descriptor of its own, and takes the value all the same. -/
theorem spellings_interchangeable_format :
    ∃ m', m'.spec.flag? = some "--format".toList ∧
      ∃ earlier words left records later, ["json".toList, "-c".toList] = words ++ left ∧
        records.map Record.stub = "-f".toList :: words ∧
        (parse listLookup ["-c".toList, "-f".toList, "json".toList, "-c".toList]
            (renderGrammar.issue 0).members).history = earlier ++ records ++ later ∧
        (parse listLookup ["-c".toList, "--format".toList, "json".toList, "-c".toList]
            (renderGrammar.issue 0).members).history
          = earlier ++ records.map (Record.respelled m') ++ later := by
  have hcompile : compileGrammar {} "render".toList
      [.option "-f, --format=\x7bjson,yaml\x7d".toList,
        .option "-c, --color[=\x7bauto,never\x7d]".toList] = .ok renderGrammar := rfl
  have hforms : (Declaration.option "-f, --format=\x7bjson,yaml\x7d".toList).forms
      = .ok formatForms := rfl
  have hshort : Dashed "-f".toList := ⟨rfl, by decide, by decide⟩
  have hlong : Dashed "--format".toList := ⟨rfl, by decide, by decide⟩
  let start : Line :=
    { tokens := ["-c".toList] ++ "-f".toList :: ["json".toList, "-c".toList]
      available := (renderGrammar.issue 0).members }
  have hnow : Reaches listLookup start (Moment.next listLookup ⟨start, false, []⟩ "-c".toList
      ["-f".toList, "json".toList, "-c".toList]) := Reaches.start.word rfl
  obtain ⟨-, m, -, m', -, -, hflag, words, left, records, later, hsplit, hstubs, -, -, -, hhistory,
      hparse⟩ :=
    spellings_interchangeable hcompile rfl List.mem_cons_self rfl rfl rfl rfl hforms (by decide)
      (by decide) hshort (by decide) hlong 0 hnow rfl (by decide +kernel) (by decide +kernel)
  exact ⟨m', hflag, _, words, left, records, later, hsplit, hstubs, hhistory,
    congrArg Line.history hparse⟩

end Line

end CommandGrammar
