import CommandGrammar.Proofs.Declared
import CommandGrammar.Proofs.FirstValue
import CommandGrammar.Proofs.Operands
import Mathlib.Data.List.MinMax

/-!
# Words that fit an option

A word fits an option if it is spelled like its flag, or joined from its flag, its delimiter and a
value. In a compiled grammar flags and delimiters never add up to the same text in two ways, so a
word that fits an available option is not ambiguous, and wherever the line gets to it, it is read as
an option, be it the first word or the one after an operand.

The slot of the rest is another matter. It takes words along without trying them, up to the next one
that looks like an option; and a word that fits an option without a dash need not look like one.

* `distinct_of_compiled`: flags and delimiters of a compiled grammar;
* `findOption_of_fits`: a word that fits an option is found to be one;
* `Outcome.option_of_fits`: and is read as one;
* `step_operand`: which words an operand takes along;
* `fitting_words`: how a line reads the words that fit its options.
-/

namespace CommandGrammar

/-! ### Delimiters -/

/-- Whether nothing but an equals sign stands between the flag of an option and its value. -/
def Spec.Delimited (s : Spec) : Prop := s.delimiter = [] ∨ s.delimiter = ['=']

theorem Spec.Delimited.settle {s : Spec} (h : s.Delimited) (hints : List GuessRule) :
    (settle hints s).Delimited := by
  unfold CommandGrammar.settle
  split <;> exact h

theorem Spec.Delimited.shareWith {s : Spec} (h : s.Delimited) {donors : List Spec}
    (hdonors : ∀ d ∈ donors, d.Delimited) : (s.shareWith donors).Delimited := by
  rcases Spec.shareWith_cases donors s with ⟨hself, -⟩ | ⟨-, donor, hdonor, hreceive⟩
  · rwa [hself]
  · rw [hreceive]
    show s.receivedDelimiter donor = [] ∨ s.receivedDelimiter donor = ['=']
    unfold receivedDelimiter
    split
    · exact hdonors donor hdonor
    · split
      · exact Or.inl rfl
      · cases s.isLong with
        | true => exact Or.inr rfl
        | false => exact Or.inl rfl

namespace Descriptor

theorem delimiter_of_flagSyntax? {flag rest : Text} {form : FlagSyntax}
    (h : flagSyntax? flag rest = some form) : form.delimiter = [] ∨ form.delimiter = ['='] := by
  unfold flagSyntax? at h
  split at h
  · obtain rfl := Option.some.inj h
    exact Or.inl rfl
  · obtain ⟨inner, -, rfl⟩ := Option.map_eq_some_iff.1 h
    exact Or.inr rfl
  · obtain rfl := Option.some.inj h
    exact Or.inr rfl
  · obtain ⟨inner, -, rfl⟩ := Option.map_eq_some_iff.1 h
    exact Or.inl rfl
  · split at h
    · obtain rfl := Option.some.inj h
      exact Or.inl rfl
    · obtain rfl := Option.some.inj h
      exact Or.inl rfl

theorem delimiter_of_parseSpelling {spelling : Text} {form : FlagSyntax}
    (h : parseSpelling spelling = .ok form) : form.delimiter = [] ∨ form.delimiter = ['='] := by
  unfold parseSpelling at h
  dsimp only at h
  split at h
  · exact absurd h (by simp)
  · split at h
    · rename_i hsyntax
      obtain rfl := Except.ok.inj h
      exact delimiter_of_flagSyntax? hsyntax
    · exact absurd h (by simp)

end Descriptor

theorem delimited_of_compilePositional {d : Declaration} {excludes : List Exclusion}
    {embedded : Option Embedding} {specs : List Spec}
    (h : d.compilePositional excludes embedded = .ok specs) : ∀ s ∈ specs, s.Delimited := by
  unfold Declaration.compilePositional at h
  dsimp only at h
  split at h
  · exact absurd h (by simp)
  · obtain ⟨index, -, h⟩ := bind_eq_ok_iff.1 h
    obtain rfl := Except.ok.inj h
    exact List.forall_mem_singleton.2 (Or.inl rfl)

theorem delimited_of_declaration {options : CompileOptions} {d : Declaration} {specs : List Spec}
    (h : d.compile options = .ok specs) : ∀ s ∈ specs, s.Delimited := by
  obtain ⟨excludes, embedded, hoption | hpositional⟩ := compile_cases h
  · intro s hs
    obtain ⟨forms, hforms, -, hspells⟩ := spells_of_compileOption hoption
    obtain ⟨form, hmem, hform⟩ := hspells s hs
    obtain ⟨spelling, -, hparse⟩ := exists_of_mem_mapM hforms form hmem
    have hdelimiter := Descriptor.delimiter_of_parseSpelling hparse
    rwa [← hform.delimiter] at hdelimiter
  · exact delimited_of_compilePositional hpositional

theorem Grammar.Compiled.delimited {g : Grammar} (h : g.Compiled) :
    ∀ m ∈ g.members, m.spec.Delimited :=
  h.forall_mem (fun _ _ _ hd _ => delimited_of_declaration hd) (fun hints _ hs => hs.settle hints)
    fun _ _ hdonors hs => hs.shareWith hdonors

/-- Flag and delimiter add up to a text in one way only: an equals sign would have ended the flag
before. -/
theorem flag_eq_of_append_eq {flag flag' delimiter delimiter' : Text}
    (hflag : Descriptor.EndsBefore flag) (hflag' : Descriptor.EndsBefore flag')
    (hne : flag ≠ []) (hne' : flag' ≠ []) (hdelimiter : delimiter = [] ∨ delimiter = ['='])
    (hdelimiter' : delimiter' = [] ∨ delimiter' = ['='])
    (h : flag ++ delimiter = flag' ++ delimiter') : flag = flag' := by
  have hends : ∀ {long short : Text}, Descriptor.EndsBefore long → short ≠ [] →
      long ≠ short ++ ['='] := by
    intro long short hlong hshort heq
    obtain ⟨c, rest, rfl⟩ := List.exists_cons_of_ne_nil hshort
    have hmem : '=' ∈ long.tail := by
      rw [heq]
      exact List.mem_append_right rest (List.mem_singleton_self _)
    exact absurd (hlong '=' hmem) (by decide)
  rcases hdelimiter with rfl | rfl <;> rcases hdelimiter' with rfl | rfl
  · rwa [List.append_nil, List.append_nil] at h
  · rw [List.append_nil] at h
    exact absurd h (hends hflag hne')
  · rw [List.append_nil] at h
    exact absurd h.symm (hends hflag' hne)
  · exact List.append_cancel_right h

/-! ### Words that fit an option -/

/-- Whether a word is spelled like the flag of an option, or joined from its flag, its delimiter and
a value. -/
def Spec.Fits (s : Spec) (word : Text) : Prop :=
  ∃ flag ∈ s.flag?, word = flag ∨
    (s.takesValue = true ∧ s.style.acceptsInline = true ∧ s.delimiter ≠ [] ∧
      flag ++ s.delimiter <+: word)

instance (s : Spec) (word : Text) : Decidable (s.Fits word) :=
  inferInstanceAs (Decidable (∃ flag ∈ s.flag?, word = flag ∨ (_ ∧ _ ∧ _ ∧ _)))

/-- What fits an option begins with its flag. -/
theorem Spec.Fits.exists_prefix {s : Spec} {word : Text} (h : s.Fits word) :
    ∃ flag, s.flag? = some flag ∧ flag <+: word := by
  obtain ⟨flag, hflag, rfl | ⟨-, -, -, hprefix⟩⟩ := h
  · exact ⟨_, hflag, List.prefix_refl _⟩
  · exact ⟨flag, hflag, (List.prefix_append flag s.delimiter).trans hprefix⟩

namespace Line

theorem mem_inlineFits_of_value {members : List Member} {m : Member} (hm : m ∈ members)
    {word value : Text} (h : inlineValue? word m.spec = some value) :
    (m, value) ∈ inlineFits members word :=
  List.mem_filterMap.2 ⟨m, hm, by rw [h]; rfl⟩

/-- What fits an option and is not its flag carries a value for it. -/
theorem inlineValue?_of_fits {s : Spec} {word : Text} (h : s.Fits word)
    (hflag : s.flag? ≠ some word) : ∃ value, inlineValue? word s = some value := by
  obtain ⟨flag, hspelled, rfl | ⟨htakes, hstyle, hdelimiter, value, rfl⟩⟩ := h
  · exact absurd hspelled hflag
  · refine ⟨value, ?_⟩
    have hlonger : flag.length < (flag ++ s.delimiter ++ value).length := by
      have hpos := List.length_pos_iff.2 hdelimiter
      rw [List.length_append, List.length_append]
      omega
    exact inlineValue?_joined hspelled htakes hstyle hlonger

/-- Whether the flags of some members are all different, and flags and delimiters are as a compiled
grammar has them. -/
structure Distinct (members : List Member) : Prop where
  nodup : (flagsOf members).Nodup
  spelled : ∀ m ∈ members, m.spec.flag? ≠ some []
  joined : ∀ m ∈ members, m.spec.Joined
  delimited : ∀ m ∈ members, m.spec.Delimited

/-- Flags and delimiters of a compiled grammar. -/
theorem distinct_of_compiled {g : Grammar} (h : g.Compiled) : Distinct g.members where
  nodup := h.nodup
  spelled m hm hempty := by
    obtain ⟨options, declarations, hcompile⟩ := h.exists_compile
    have hblank := notBlank_of_compile hcompile []
      (List.mem_filterMap.2 ⟨m.spec, List.mem_map_of_mem hm, hempty⟩)
    exact absurd hblank (by decide)
  joined := h.joined
  delimited := h.delimited

/-- What is left of some members is as distinct as they are. -/
theorem Distinct.filter {members : List Member} (h : Distinct members) (p : Member → Bool) :
    Distinct (members.filter p) where
  nodup := (List.filter_sublist.filterMap _).nodup h.nodup
  spelled m hm := h.spelled m (List.mem_filter.1 hm).1
  joined m hm := h.joined m (List.mem_filter.1 hm).1
  delimited m hm := h.delimited m (List.mem_filter.1 hm).1

/-- A word carries values of different lengths for different options. -/
theorem Distinct.flag_eq {members : List Member} (h : Distinct members) {m other : Member}
    (hm : m ∈ members) (hother : other ∈ members) {word value value' : Text}
    (hvalue : inlineValue? word m.spec = some value)
    (hvalue' : inlineValue? word other.spec = some value')
    (hlength : value'.length = value.length) :
    m.spec.flag? = other.spec.flag? := by
  obtain ⟨flag, hflag, -, -, hword⟩ := inlineValue?_eq_some hvalue
  obtain ⟨flag', hflag', -, -, hword'⟩ := inlineValue?_eq_some hvalue'
  have hjoint := (List.append_inj' (hword.symm.trans hword') hlength.symm).1
  have hsame := flag_eq_of_append_eq ((h.joined m hm).flag flag hflag)
    ((h.joined other hother).flag flag' hflag') (fun hempty => h.spelled m hm (hempty ▸ hflag))
    (fun hempty => h.spelled other hother (hempty ▸ hflag')) (h.delimited m hm)
    (h.delimited other hother) hjoint
  rw [hflag, hflag', hsame]

/-- **What fits an option** is never ambiguous: it names an option or carries a value for one. -/
theorem findOption_of_fits {members : List Member} (h : Distinct members) {m : Member}
    (hm : m ∈ members) {word : Text} (hfits : m.spec.Fits word) (isLast : Bool) :
    ∃ found, findOption members word isLast = .named found ∨
      ∃ value, findOption members word isLast = .inline found value := by
  unfold findOption
  cases hexact : exactly? members word with
  | some found => exact ⟨found, Or.inl rfl⟩
  | none =>
    have hflag : m.spec.flag? ≠ some word := by
      simpa using List.find?_eq_none.1 hexact m hm
    obtain ⟨value, hvalue⟩ := inlineValue?_of_fits hfits hflag
    have hfit := mem_inlineFits_of_value hm hvalue
    -- Among the options that the word carries a value for, one has the shortest.
    obtain ⟨⟨found, shortest⟩, hfound⟩ : ∃ fit, fit ∈ List.argmin
        (fun fit : Member × Text => fit.2.length) (inlineFits members word) := by
      refine Option.ne_none_iff_exists'.1 fun hnone => ?_
      rw [List.argmin_eq_none.1 hnone] at hfit
      exact absurd hfit List.not_mem_nil
    obtain ⟨hmem, hshortest⟩ := mem_inlineFits (List.argmin_mem hfound)
    obtain ⟨flag, hspelled, -⟩ := inlineValue?_eq_some hshortest
    obtain ⟨before, after, rfl, hothers⟩ := exists_split_of_nodup h.nodup hmem hspelled
    have hsplit : ∀ {other}, other ∈ before ++ after → other ∈ before ++ found :: after := by
      intro other hother
      rw [List.mem_append] at hother ⊢
      exact hother.imp_right (List.mem_cons_of_mem found)
    have hlongest : longestFits (inlineFits (before ++ found :: after) word)
        = [(found, shortest)] := by
      refine longestFits_eq_singleton hshortest fun other hother value' hvalue' => ?_
      have hle := List.le_of_mem_argmin (mem_inlineFits_of_value (hsplit hother) hvalue') hfound
      refine lt_of_le_of_ne hle fun hlength => hothers other hother ?_
      rw [← h.flag_eq hmem (hsplit hother) hshortest hvalue' hlength.symm, hspelled]
    exact ⟨found, Or.inr ⟨shortest, by rw [hlongest]⟩⟩

/-- **What fits an available option is read as one**, if the options have not ended. -/
theorem Outcome.option_of_fits {l : Line} {token : Text} {s : Step} (h : Outcome l false token s)
    (hdistinct : Distinct l.available) {m : Member} (hm : m ∈ l.available)
    (hfits : m.spec.Fits token) (hdash : token ≠ ['-']) :
    ∃ records, s.line.history = l.history ++ records ∧ records ≠ [] ∧
      ∀ r ∈ records, r.context = .option := by
  obtain ⟨flag, hflag, hprefix⟩ := hfits.exists_prefix
  have hlike : Text.startsWith ['-'] flag = true → isFlagLike token l.tokens.isEmpty = true := by
    intro hstarts
    obtain ⟨tail, htoken⟩ := (Text.startsWith_iff.1 hstarts).trans hprefix
    cases tail with
    | nil => exact absurd htoken.symm hdash
    | cons c tail => rw [← htoken]; rfl
  have htries : triesOptions l false token = true := wantsOption_of_flag hm hflag hlike
  have hfound := findOption_of_fits hdistinct hm hfits l.tokens.isEmpty
  have hhit : findOption l.available token l.tokens.isEmpty ≠ .miss := by
    rcases hfound with ⟨found, hnamed | ⟨value, hinline⟩⟩
    · simp [hnamed]
    · simp [hinline]
  have hslots : ¬ leftToSlots l false token := by
    rintro (hnone | ⟨hnone, -⟩)
    · exact Bool.false_ne_true (hnone.symm.trans htries)
    · exact hhit hnone.1
  cases h with
  | marker => exact ⟨_, rfl, List.cons_ne_nil _ _, List.forall_mem_singleton.2 rfl⟩
  | unknownOption _ hunknown =>
    rcases hunknown with hambiguous | ⟨hnone, -⟩
    · rcases hfound with ⟨found, hnamed | ⟨value, hinline⟩⟩
      · exact absurd (hnamed.symm.trans hambiguous) (by simp)
      · exact absurd (hinline.symm.trans hambiguous) (by simp)
    · exact absurd hnone.1 hhit
  | unknownOperand hleft => exact absurd hleft hslots
  | operand m words left hleft => exact absurd hleft hslots
  | cluster m rest _ hmiss => exact absurd hmiss hhit
  | named m words left =>
    refine ⟨_, rfl, List.cons_ne_nil _ _, List.forall_mem_cons.2 ⟨rfl, fun r hr => ?_⟩⟩
    exact (mem_valueRecords hr).1
  | inline m value words left _ _ _ _ htakes =>
    obtain ⟨action, actions, hactions⟩ := List.exists_cons_of_ne_nil (Spec.takesValue_iff.1 htakes)
    refine ⟨_, rfl, ?_, fun r hr => (mem_valueRecords hr).1⟩
    rw [hactions]
    exact List.cons_ne_nil _ _

/-! ### Words that an operand takes along -/

/-- The words up to the next one that looks like an option in its place. -/
def operandRun : List Text → List Text
  | [] => []
  | word :: rest => if isFlagLike word rest.isEmpty then [] else word :: operandRun rest

/-- The words that an operand takes along in its slot. -/
def takenAlong (s : Spec) (rest : List Text) : List Text :=
  if s.isUnbounded then operandRun rest else []

theorem takeRest_fst (m : Member) (occurrence : Nat) (tokens : List Text) :
    ∀ values : List Text, (takeRest false m occurrence values tokens).1
      = restRecords m occurrence values (operandRun tokens) := by
  induction tokens with
  | nil => intro values; rfl
  | cons word rest ih =>
    intro values
    rw [takeRest, operandRun, Bool.not_false, Bool.true_and]
    split
    · rfl
    · exact congrArg (List.cons _) (ih (values ++ [word]))

theorem history_acceptOperand (l : Line) {m : Member} (hplain : m.spec.embedded = none)
    (token : Text) :
    (acceptOperand l false m token).1.history
      = l.history
        ++ restRecords m (nextOccurrence l.history) [] (token :: takenAlong m.spec l.tokens) := by
  unfold acceptOperand takenAlong
  simp only [hplain]
  split
  · simp [takeRest_fst, restRecords, restSlot_nil]
  · simp [restRecords, restSlot_nil]

/-- A word that is left to the slots is read as an operand. -/
theorem step_of_leftToSlots {l : Line} {token : Text} (hmarker : token ≠ endOfOptions)
    (h : leftToSlots l false token) :
    step l false token
      = ⟨(readOperand l false token).1, false, (readOperand l false token).2⟩ := by
  unfold step
  rw [beq_eq_false_iff_ne.2 hmarker]
  dsimp only [Bool.not_false, Bool.true_and, Bool.false_and]
  rcases h with hnone | ⟨⟨hmiss, hcluster⟩, hlike⟩
  · have hwants : wantsOption l.available (isFlagLike token l.tokens.isEmpty) = false := hnone
    simp [hwants]
  · simp [readOption_operand hmiss hcluster hlike]

/-- A word that is not left to a slot is recorded as something else. -/
theorem Outcome.slot_or_not_positional {l : Line} {ended : Bool} {token : Text} {s : Step}
    (h : Outcome l ended token s) :
    (leftToSlots l ended token ∧ ∃ m, firstPositional? l.available = some m) ∨
      ∃ records, s.line.history = l.history ++ records ∧
        ∀ r ∈ records, r.context ≠ .positional := by
  have hoption : ∀ {r : Record}, r.context = .option → r.context ≠ .positional :=
    fun hr => hr ▸ by decide
  cases h with
  | operand m words left hleft hfirst => exact Or.inl ⟨hleft, m, hfirst⟩
  | marker => exact Or.inr ⟨_, rfl, List.forall_mem_singleton.2 (hoption rfl)⟩
  | unknownOption =>
    exact Or.inr ⟨_, rfl, List.forall_mem_singleton.2 (by simp [unknownRecord])⟩
  | unknownOperand =>
    exact Or.inr ⟨_, rfl, List.forall_mem_singleton.2 (by simp [unknownRecord])⟩
  | cluster => exact Or.inr ⟨_, rfl, List.forall_mem_singleton.2 (hoption rfl)⟩
  | inline => exact Or.inr ⟨_, rfl, fun r hr => hoption (mem_valueRecords hr).1⟩
  | named =>
    refine Or.inr ⟨_, rfl, List.forall_mem_cons.2 ⟨hoption rfl, fun r hr => ?_⟩⟩
    exact hoption (mem_valueRecords hr).1

/-- **An operand** in the slot of the rest takes the words along up to the next one that looks like
an option; in any other slot it takes none. -/
theorem step_operand {l : Line} (hplain : Plain l.available) {token : Text}
    (hmarker : token ≠ endOfOptions) {records : List Record}
    (hwritten : (step l false token).line.history = l.history ++ records) {r : Record}
    (hr : r ∈ records) (hcontext : r.context = .positional) :
    ∃ m ∈ r.member, records.map Record.stub = token :: takenAlong m.spec l.tokens := by
  rcases (step_outcome l false token).slot_or_not_positional with
    ⟨hslots, m, hfirst⟩ | ⟨others, hothers, hnone⟩
  · have hread : readOperand l false token = acceptOperand l false m token := by
      unfold readOperand
      rw [hfirst]
    rw [step_of_leftToSlots hmarker hslots, hread,
      history_acceptOperand l (hplain m (firstPositional?_eq_some hfirst).1)] at hwritten
    obtain rfl := List.append_cancel_left hwritten
    exact ⟨m, (mem_restRecords hr).2.2.1, stubs_restRecords m _ _ []⟩
  · obtain rfl := List.append_cancel_left (hothers.symm.trans hwritten)
    exact absurd hcontext (hnone r hr)

/-- No word that an operand takes along begins with a dash, but for a dash alone. -/
theorem not_startsWith_of_mem_operandRun {word : Text} {tokens : List Text}
    (h : word ∈ operandRun tokens) (hdash : word ≠ ['-']) : ¬ ['-'] <+: word := by
  induction tokens with
  | nil => exact absurd h List.not_mem_nil
  | cons next rest ih =>
    rw [operandRun] at h
    split at h
    · exact absurd h List.not_mem_nil
    · rename_i hlike
      rcases List.mem_cons.1 h with rfl | hmem
      · rintro ⟨tail, rfl⟩
        cases tail with
        | nil => exact hdash rfl
        | cons c tail => exact hlike rfl
      · exact ih hmem

theorem takenAlong_subset (s : Spec) (rest : List Text) : takenAlong s rest ⊆ operandRun rest := by
  unfold takenAlong
  split
  · exact List.Subset.refl _
  · exact List.nil_subset _

/-! ### Lines without an end of the options -/

/-- Two dashes are read only if they are a word of the line. -/
theorem ne_endOfOptions_of_reaches {lookup : Text → Option Grammar} {start : Line} {now : Moment}
    (hplain : Plain start.available) (hmarker : endOfOptions ∉ start.tokens)
    (h : Reaches lookup start now) {token : Text} {rest : List Text}
    (hread : now.line.tokens = token :: rest) : token ≠ endOfOptions := by
  rintro rfl
  have hleft := left_of_reaches hplain h
  rw [hread] at hleft
  exact hmarker (hleft.marker.subset List.mem_cons_self)

/-- The options of a line that hands no words over end with two dashes only. -/
theorem ended_of_reaches {lookup : Text → Option Grammar} {start : Line} {now : Moment}
    (hplain : Plain start.available) (hmarker : endOfOptions ∉ start.tokens)
    (h : Reaches lookup start now) : now.ended = false := by
  induction h with
  | start => rfl
  | @word now token rest hnow hread ih =>
    have houtcome := now.outcome token rest
    show (now.reading token rest).ended = false
    generalize now.reading token rest = s at houtcome
    cases houtcome with
    | marker _ htoken =>
      exact absurd htoken (ne_endOfOptions_of_reaches hplain hmarker hnow hread)
    | _ => exact ih

/-- **How a line reads the words that fit its options.** Let the line of a compiled grammar hand no
words over and hold no two dashes. A word other than a dash that fits an available option when the
line gets to it is recorded as an option and nothing else. What is recorded as an operand instead is
the word the line got to and, in the slot of the rest, the words up to the next one that looks like
an option: but for a dash these fit none but options that begin with no dash. -/
theorem fitting_words {lookup : Text → Option Grammar} {g : Grammar} (h : g.Compiled)
    (hplain : Plain g.members) {tokens : List Text} (hmarker : endOfOptions ∉ tokens) {now : Moment}
    (hnow : Reaches lookup { tokens := tokens, available := g.members } now) {token : Text}
    {rest : List Text} (hread : now.line.tokens = token :: rest) :
    (token ≠ ['-'] → (∃ m ∈ now.line.available, m.spec.Fits token) →
        now.written token rest ≠ [] ∧ ∀ r ∈ now.written token rest, r.context = .option) ∧
      ∀ r ∈ now.written token rest, r.context = .positional → ∃ m ∈ r.member,
        (now.written token rest).map Record.stub = token :: takenAlong m.spec rest ∧
        ∀ word ∈ takenAlong m.spec rest, word ≠ ['-'] → ∀ s : Spec, s.Fits word →
          ∃ flag, s.flag? = some flag ∧ ¬ ['-'] <+: flag := by
  have hended := ended_of_reaches hplain hmarker hnow
  have houtcome := now.outcome token rest
  rw [hended] at houtcome
  constructor
  · rintro hdash ⟨m, hm, hfits⟩
    have hdistinct : Distinct now.line.available := by
      rw [available_of_reaches hnow]
      exact (distinct_of_compiled h).filter _
    obtain ⟨records, hhistory, hne, hcontexts⟩ :=
      houtcome.option_of_fits hdistinct hm hfits hdash
    rw [Moment.written_eq hhistory]
    exact ⟨hne, hcontexts⟩
  · intro r hr hcontext
    have hplain' : Plain now.line.available := plain_of_reaches hplain hnow
    have hmarker' := ne_endOfOptions_of_reaches hplain hmarker hnow hread
    obtain ⟨records, hhistory, -⟩ := houtcome.takes
    rw [Moment.written_eq hhistory] at hr ⊢
    have hstep : now.reading token rest = step { now.line with tokens := rest } false token := by
      rw [Moment.reading, hended]
    rw [hstep] at hhistory
    obtain ⟨m, hm, hstubs⟩ := step_operand (l := { now.line with tokens := rest }) hplain' hmarker'
      hhistory hr hcontext
    refine ⟨m, hm, hstubs, fun word hword hdash s hfits => ?_⟩
    obtain ⟨flag, hflag, hprefix⟩ := hfits.exists_prefix
    refine ⟨flag, hflag, fun hstarts => ?_⟩
    exact not_startsWith_of_mem_operandRun (takenAlong_subset m.spec rest hword) hdash
      (hstarts.trans hprefix)

/-- A command with an option that begins with no dash, and a slot for the rest. -/
def convertGrammar : Grammar :=
  .ofSpecs "dd".toList
    [{ name := .flag "conv".toList, style := .separateOrInline, delimiter := ['='], suffix := ['='],
        actions := [{ metavar := "\x7bascii,ebcdic\x7d".toList,
                      source := .literal ["ascii".toList, "ebcdic".toList] }] },
      { name := .positional .rest, actions := [{ metavar := "FILE".toList }] }] []

theorem convertGrammar_compiled : convertGrammar.Compiled := by
  have h : compileGrammar {} "dd".toList
      [.option "conv=\x7bascii,ebcdic\x7d".toList, .positional "* FILE".toList]
        = .ok convertGrammar := rfl
  exact Grammar.compiled_of_compileGrammar h

theorem convertGrammar_plain : Plain convertGrammar.members := by
  unfold Plain
  decide

/-- The option with its value, and two operands. -/
def convertLine : Line :=
  { tokens := ["conv=ascii".toList, "a".toList, "b".toList], available := convertGrammar.members }

def convertMoment : Moment :=
  Moment.next listLookup ⟨convertLine, false, []⟩ "conv=ascii".toList ["a".toList, "b".toList]

/-- The word that fits the option is one, and the first operand takes the second along. -/
theorem fitting_words_convert :
    endOfOptions ∉ convertLine.tokens ∧ Reaches listLookup convertLine convertMoment ∧
      (∀ r ∈ Moment.written ⟨convertLine, false, []⟩ "conv=ascii".toList ["a".toList, "b".toList],
        r.context = .option) ∧
      (convertMoment.written "a".toList ["b".toList]).map Record.stub
        = ["a".toList, "b".toList] := by
  have hmarker : endOfOptions ∉ convertLine.tokens := by decide
  have hstart : Reaches listLookup convertLine ⟨convertLine, false, []⟩ := .start
  have hnow : Reaches listLookup convertLine convertMoment := hstart.word rfl
  have hread : convertMoment.line.tokens = "a".toList :: ["b".toList] := by decide +kernel
  obtain ⟨hoption, -⟩ :=
    fitting_words convertGrammar_compiled convertGrammar_plain hmarker hstart rfl
  obtain ⟨-, hoperand⟩ :=
    fitting_words convertGrammar_compiled convertGrammar_plain hmarker hnow hread
  refine ⟨hmarker, hnow, (hoption (by decide) (by decide)).2, ?_⟩
  obtain ⟨r, hr, hcontext, htaken⟩ : ∃ r ∈ convertMoment.written "a".toList ["b".toList],
      r.context = .positional ∧ ∀ m ∈ r.member, takenAlong m.spec ["b".toList] = ["b".toList] := by
    decide +kernel
  obtain ⟨m, hm, hstubs, -⟩ := hoperand r hr hcontext
  rw [hstubs, htaken m hm]

/-- A word that fits an option still available is an operand behind another one. -/
theorem fitting_word_taken_along :
    convertGrammar.Compiled ∧ Plain convertGrammar.members ∧
      endOfOptions ∉ ["a".toList, "conv=ascii".toList] ∧
      (∃ m ∈ (parse listLookup ["a".toList, "conv=ascii".toList] convertGrammar.members).available,
        m.spec.Fits "conv=ascii".toList) ∧
      ∃ r ∈ (parse listLookup ["a".toList, "conv=ascii".toList] convertGrammar.members).history,
        r.stub = "conv=ascii".toList ∧ r.context = .positional := by
  have hrun : parse listLookup ["a".toList, "conv=ascii".toList] convertGrammar.members
      = (step { tokens := ["conv=ascii".toList], available := convertGrammar.members } false
          "a".toList).line := by
    rw [parse, run_cons listLookup _ false _ _ rfl, run_settled_of_done rfl rfl]
  rw [hrun]
  exact ⟨convertGrammar_compiled, convertGrammar_plain, by decide, by decide, by decide⟩

end Line

end CommandGrammar
