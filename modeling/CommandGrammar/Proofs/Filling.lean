import CommandGrammar.Proofs.Slots

/-!
# Operands fill the slots in order

What a line holds besides operands does not matter to them: options and their values, unknown words
and the end of the options leave the slots alone. So the operands of a line fill its slots one after
the other, wherever they stand. The slot of the rest takes several words at a time, but these are
the operands that come next in any case.

* `Outcome.fills`: one word fills the first slots and leaves the ones after them;
* `run_fills`: so does a whole line;
* `run_noFlags`: a line without words that look like options is one of operands alone;
* `operands_in_order`: the operands of a line fill the slots in order.
-/

namespace CommandGrammar

namespace Line

/-! ### The operands of a trace -/

/-- The records of operands, known or not, in their order. -/
def operandsOf (records : List Record) : List Record :=
  records.filter fun r => r.context == .positional || r.context == .unknownPositional

/-- Whether an operand is recorded as a match of a slot, or as unknown where there is no slot. -/
def Matches (r : Record) : Option Member → Prop
  | some m => r.context = .positional ∧ r.member = some m
  | none => r.context = .unknownPositional ∧ r.member = none

/-- Whether the operands among some records fill some slots, one after the other. -/
def Fill (slots : Nat → Option Member) (records : List Record) : Prop :=
  ∀ i r, (operandsOf records)[i]? = some r → Matches r (slots i)

theorem operandsOf_append (records records' : List Record) :
    operandsOf (records ++ records') = operandsOf records ++ operandsOf records' :=
  List.filter_append _ _

theorem operandsOf_eq_nil {records : List Record}
    (h : ∀ r ∈ records, r.context = .option ∨ r.context = .unknownOption) :
    operandsOf records = [] := by
  refine List.filter_eq_nil_iff.2 fun r hr => ?_
  rcases h r hr with hcontext | hcontext <;> simp [hcontext]

theorem operandsOf_eq_self {records : List Record}
    (h : ∀ r ∈ records, r.context = .positional) : operandsOf records = records :=
  List.filter_eq_self.2 fun r hr => by simp [h r hr]

/-- Records without operands fill no slot. -/
theorem fill_of_no_operands {slots : Nat → Option Member} {records : List Record}
    (h : operandsOf records = []) : Fill slots records := by
  intro i r hr
  simp [h] at hr

/-- What comes after some records fills the slots after those filled by these. -/
theorem Fill.append {slots : Nat → Option Member} {records later : List Record}
    (h : Fill slots records)
    (hlater : Fill (fun i => slots (i + (operandsOf records).length)) later) :
    Fill slots (records ++ later) := by
  intro i r hr
  rw [operandsOf_append] at hr
  by_cases hi : i < (operandsOf records).length
  · rw [List.getElem?_append_left hi] at hr
    exact h i r hr
  · rw [List.getElem?_append_right (Nat.not_lt.1 hi)] at hr
    have hmatches : Matches r (slots _) := hlater _ r hr
    rwa [Nat.sub_add_cancel (Nat.not_lt.1 hi)] at hmatches

/-! ### One word -/

theorem OneByOne.operandSlot_of_option {members : List Member} (h : OneByOne members) {m : Member}
    (hm : m ∈ members) (hoption : m.spec.isOption = true) (i : Nat) :
    operandSlot (remaining members m.spec) i = operandSlot members i := by
  refine operandSlot_remaining (fun slot hslot hpositional => ?_) i
  refine (h.staysAfter_iff hm hslot hpositional).2 (Or.inr fun hname => ?_)
  rw [Spec.isPositional, Spec.index?, hname] at hpositional
  rw [Spec.isOption_eq_not_isPositional, Spec.isPositional, Spec.index?, hpositional] at hoption
  exact absurd hoption Bool.false_ne_true

/-- A word that fills a slot, and the words it takes with it, fill the first slots, and leave the
ones after them. -/
theorem fill_restRecords {members : List Member} (h : OneByOne members) {m : Member}
    (hfirst : firstPositional? members = some m) (number : Nat) (token : Text) {words : List Text}
    (hwords : words ≠ [] → m.spec.isUnbounded = true) :
    Fill (operandSlot members) (restRecords m number [] (token :: words)) ∧
      ∀ i, operandSlot (remaining members m.spec) i
        = operandSlot members
            (i + (operandsOf (restRecords m number [] (token :: words))).length) := by
  have hm := (firstPositional?_eq_some hfirst).1
  have hcontext : ∀ r ∈ restRecords m number [] (token :: words), r.context = .positional :=
    fun r hr => (mem_restRecords hr).1
  have hlength : (restRecords m number [] (token :: words)).length = words.length + 1 := by
    have := congrArg List.length (stubs_restRecords m number (token :: words) [])
    rwa [List.length_map] at this
  have hzero : operandSlot members 0 = some m := by
    rw [← firstPositional?_eq_operandSlot, hfirst]
  have hmatches : ∀ r ∈ restRecords m number [] (token :: words), Matches r (some m) :=
    fun r hr => ⟨hcontext r hr, (mem_restRecords hr).2.2.1⟩
  obtain ⟨index, hleast⟩ := isLeast_of_firstPositional? hfirst
  unfold Fill
  rw [operandsOf_eq_self hcontext, hlength]
  cases index with
  | rest =>
    -- The slot of the rest takes this operand and all to come.
    have hunbounded : m.spec.isUnbounded = true := Spec.isUnbounded_iff.2 hleast.index
    have hall : ∀ i, operandSlot members i = some m := by
      have hnumbers := slotNumbers_of_isLeast_rest hleast
      intro i
      rw [← hzero, operandSlot_after (by simp [hnumbers]), operandSlot_after (by simp [hnumbers])]
    refine ⟨fun i r hr => hall i ▸ hmatches r (List.mem_of_getElem? hr), fun i => ?_⟩
    rw [hall, operandSlot_remaining, hall]
    exact fun slot hslot hpositional =>
      (h.staysAfter_iff hm hslot hpositional).2 (Or.inl hunbounded)
  | «at» n =>
    have hbounded : m.spec.isUnbounded = false := by simp [Spec.isUnbounded, hleast.index]
    obtain rfl : words = [] := by
      by_contra hne
      exact absurd ((hwords hne).symm.trans hbounded) (by simp)
    obtain ⟨numbers, hnumbers⟩ := slotNumbers_of_isLeast_at hleast
    refine ⟨fun i r hr => ?_, fun i => ?_⟩
    · have hi : i = 0 := by
        have := (List.getElem?_eq_some_iff.1 hr).1
        rw [hlength, List.length_nil] at this
        omega
      rw [hi, hzero]
      exact hmatches r (List.mem_of_getElem? hr)
    · exact operandSlot_remaining_at h hm (Spec.number?_eq_some_iff.2 hleast.index) hnumbers i

/-- **One word** and the words it takes with it fill the first slots, as many as there are operands
among them, and leave the ones after them. -/
theorem Outcome.fills {l : Line} {ended : Bool} {token : Text} {s : Step}
    (h : Outcome l ended token s) (hone : OneByOne l.available) :
    ∃ records, s.line.history = l.history ++ records ∧ Fill (operandSlot l.available) records ∧
      ∀ i, operandSlot s.line.available i
        = operandSlot l.available (i + (operandsOf records).length) := by
  have hnone : ∀ {m : Member} {records : List Record}, m ∈ l.available →
      m.spec.isOption = true → (∀ r ∈ records, r.context = .option) →
      Fill (operandSlot l.available) records ∧
        ∀ i, operandSlot (remaining l.available m.spec) i
          = operandSlot l.available (i + (operandsOf records).length) := by
    intro m records hm hoption hcontext
    have hempty := operandsOf_eq_nil fun r hr => Or.inl (hcontext r hr)
    exact ⟨fill_of_no_operands hempty, fun i => by
      rw [hone.operandSlot_of_option hm hoption, hempty]; rfl⟩
  cases h with
  | marker => exact ⟨_, rfl, fill_of_no_operands rfl, fun i => rfl⟩
  | unknownOption => exact ⟨_, rfl, fill_of_no_operands rfl, fun i => rfl⟩
  | named m words left _ hhit _ =>
    obtain ⟨hm, hoption⟩ := findOption_named hhit
    refine ⟨_, rfl, hnone hm hoption fun r hr => ?_⟩
    rcases List.mem_cons.1 hr with rfl | hr
    · rfl
    · exact (mem_valueRecords hr).1
  | inline m value words left _ _ hm hoption _ _ _ =>
    exact ⟨_, rfl, hnone hm hoption fun r hr => (mem_valueRecords hr).1⟩
  | cluster m rest _ _ hcluster _ =>
    obtain ⟨c, -, -, -, hm, hflag, -⟩ := splitCluster_eq_some hcluster
    refine ⟨_, rfl, hnone hm (Spec.isOption_of_flag? hflag) fun r hr => ?_⟩
    rw [List.mem_singleton.1 hr]
    rfl
  | unknownOperand _ hfirst =>
    have hslots := operandSlot_eq_none (isPositional_eq_false_of_firstPositional? hfirst)
    refine ⟨_, rfl, fun i r hr => ?_, fun i => (hslots i).trans (hslots _).symm⟩
    rw [hslots i]
    obtain rfl := List.mem_singleton.1 (List.mem_of_getElem? hr)
    exact ⟨rfl, rfl⟩
  | operand m words left _ hfirst htaken =>
    exact ⟨_, rfl, fill_restRecords hone hfirst _ token htaken.unbounded⟩

/-! ### Whole lines -/

/-- **A line** fills the slots with its operands, one after the other. -/
theorem run_fills (lookup : Text → Option Grammar) (l : Line) (ended : Bool) :
    OneByOne l.available → ∃ records, (run lookup l ended).history = l.history ++ records ∧
      Fill (operandSlot l.available) records := by
  induction l, ended using run_induction lookup with
  | nil l ended hread =>
    intro _
    rw [run_nil lookup l ended hread]
    exact ⟨[], by simp, fill_of_no_operands rfl⟩
  | cons l ended token rest hread _ ih =>
    intro hone
    rw [run_cons lookup l ended token rest hread]
    have houtcome := step_outcome { l with tokens := rest } ended token
    generalize step { l with tokens := rest } ended token = s at *
    rw [houtcome.settled_eq hone.plain lookup] at ih ⊢
    obtain ⟨records, hhistory, hfill, hnext⟩ := houtcome.fills hone
    obtain ⟨later, hlater, hfill'⟩ := ih (hone.mono houtcome.available_subset)
    refine ⟨records ++ later, by rw [hlater, hhistory, List.append_assoc], hfill.append ?_⟩
    intro i r hr
    have hmatches := hfill' i r hr
    rwa [hnext i] at hmatches

/-! ### Lines without options -/

/-- Whether no word looks like an option in its place. -/
def NoFlags : List Text → Prop
  | [] => True
  | word :: rest => isFlagLike word rest.isEmpty = false ∧ NoFlags rest

theorem NoFlags.of_append {words left : List Text} (h : NoFlags (words ++ left)) :
    NoFlags left := by
  induction words with
  | nil => exact h
  | cons word words ih => exact ih h.2

/-- Whether operands are never tried as options: there is a slot for all of them, and all options
begin with a dash. -/
structure Unmistakable (members : List Member) : Prop where
  rest : ∃ m ∈ members, m.spec.isUnbounded = true
  dashes : ∀ m ∈ members, ∀ flag ∈ m.spec.flag?, Text.startsWith ['-'] flag = true

theorem Unmistakable.wantsOption_eq {members : List Member} (h : Unmistakable members) :
    wantsOption members false = false := by
  obtain ⟨m, hm, hunbounded⟩ := h.rest
  have hslot : members.any (fun m => m.spec.isPositional) = true :=
    List.any_eq_true.2 ⟨m, hm, Spec.isPositional_of_isUnbounded hunbounded⟩
  have hdashes : members.any (fun m =>
      (m.spec.flag?.map (fun flag => !Text.startsWith ['-'] flag)).getD false) = false := by
    rw [List.any_eq_false]
    intro other hother
    cases hflag : other.spec.flag? with
    | none => simp
    | some flag => simp [h.dashes other hother flag hflag]
  unfold wantsOption
  rw [hslot, hdashes]
  rfl

/-- A word that does not look like an option fills a slot then. -/
theorem Outcome.operand_of_noFlag {l : Line} {ended : Bool} {token : Text} {s : Step}
    (h : Outcome l ended token s) (hslots : Unmistakable l.available)
    (hword : isFlagLike token l.tokens.isEmpty = false) :
    ∃ m words, firstPositional? l.available = some m ∧ l.tokens = words ++ s.line.tokens ∧
      s.line.available = remaining l.available m.spec ∧
      s.line.history
        = l.history ++ restRecords m (nextOccurrence l.history) [] (token :: words) := by
  have htries : triesOptions l ended token = false := by
    rw [triesOptions, hword, hslots.wantsOption_eq, Bool.and_false]
  cases h with
  | marker _ htoken => rw [htoken] at hword; exact absurd hword (by simp [isFlagLike, endOfOptions])
  | unknownOption htries' => exact absurd (htries.symm.trans htries') Bool.false_ne_true
  | named m words left htries' => exact absurd (htries.symm.trans htries') Bool.false_ne_true
  | inline m value words left htries' => exact absurd (htries.symm.trans htries') Bool.false_ne_true
  | cluster m rest htries' => exact absurd (htries.symm.trans htries') Bool.false_ne_true
  | unknownOperand _ hfirst =>
    obtain ⟨m, hm, hunbounded⟩ := hslots.rest
    have hnone := isPositional_eq_false_of_firstPositional? hfirst m hm
    exact absurd (hnone.symm.trans (Spec.isPositional_of_isUnbounded hunbounded))
      Bool.false_ne_true
  | operand m words left _ hfirst htaken => exact ⟨m, words, hfirst, htaken.split, rfl, rfl⟩

/-- The slot of the rest is never taken away. -/
theorem Unmistakable.remaining {members : List Member} (h : Unmistakable members)
    (hone : OneByOne members) {m : Member} (hm : m ∈ members) :
    Unmistakable (remaining members m.spec) := by
  obtain ⟨slot, hslot, hunbounded⟩ := h.rest
  refine ⟨⟨slot, List.mem_filter.2 ⟨hslot, ?_⟩, hunbounded⟩, fun other hother =>
    h.dashes other (List.mem_filter.1 hother).1⟩
  refine (hone.staysAfter_iff hm hslot (Spec.isPositional_of_isUnbounded hunbounded)).2 ?_
  by_cases hname : slot.spec.name = m.spec.name
  · left
    rwa [Spec.isUnbounded, Spec.index?, ← hname]
  · exact Or.inr hname

/-- A line without words that look like options is one of operands alone. -/
theorem run_noFlags (lookup : Text → Option Grammar) (l : Line) (ended : Bool) :
    OneByOne l.available → Unmistakable l.available → NoFlags l.tokens →
      ∃ records, (run lookup l ended).history = l.history ++ records ∧
        records.map Record.stub = l.tokens ∧ ∀ r ∈ records, r.context = .positional := by
  induction l, ended using run_induction lookup with
  | nil l ended hread =>
    intro _ _ _
    rw [run_nil lookup l ended hread]
    exact ⟨[], by simp, by simp [hread], by simp⟩
  | cons l ended token rest hread _ ih =>
    intro hone hslots hflags
    rw [hread] at hflags
    rw [run_cons lookup l ended token rest hread]
    have houtcome := step_outcome { l with tokens := rest } ended token
    generalize step { l with tokens := rest } ended token = s at *
    rw [houtcome.settled_eq hone.plain lookup] at ih ⊢
    obtain ⟨m, words, hfirst, hsplit, havailable, hhistory⟩ :=
      houtcome.operand_of_noFlag hslots hflags.1
    have hrest : rest = words ++ s.line.tokens := hsplit
    have hflags' : NoFlags (words ++ s.line.tokens) := hrest ▸ hflags.2
    obtain ⟨later, hlater, hstubs, hcontexts⟩ :=
      ih (hone.mono houtcome.available_subset)
        (havailable ▸ hslots.remaining hone (firstPositional?_eq_some hfirst).1)
        hflags'.of_append
    refine ⟨restRecords m (nextOccurrence l.history) [] (token :: words) ++ later, ?_, ?_, ?_⟩
    · rw [hlater, hhistory, List.append_assoc]
    · rw [List.map_append, stubs_restRecords, hstubs, hread, hrest]
      rfl
    · exact List.forall_mem_append.2 ⟨fun r hr => (mem_restRecords hr).1, hcontexts⟩

/-! ### The order of operands -/

/-- **Operands fill the slots in order.** Whatever options, values, unknown words and ends of
options stand between them, the operands of a line are matches of the numbered slots, in the order
of their numbers, and after these of the slot of the rest, or unknown if there is none. If there is
one and all options begin with a dash, then a line without words that look like options is recorded
as these words, all of them operands. -/
theorem operands_in_order (lookup : Text → Option Grammar) {members : List Member}
    (h : OneByOne members) (tokens : List Text) :
    Fill (operandSlot members) (parse lookup tokens members).history ∧
      (Unmistakable members → NoFlags tokens →
        (parse lookup tokens members).history.map Record.stub = tokens ∧
        (∀ r ∈ (parse lookup tokens members).history, r.context = .positional) ∧
        (parse lookup tokens members).history.getLast?.map Record.stub = tokens.getLast?) := by
  constructor
  · obtain ⟨records, hhistory, hfill⟩ :=
      run_fills lookup { tokens := tokens, available := members } false h
    rw [parse, hhistory]
    exact hfill
  · intro hslots hflags
    obtain ⟨records, hhistory, hstubs, hcontexts⟩ :=
      run_noFlags lookup { tokens := tokens, available := members } false h hslots hflags
    rw [List.nil_append] at hhistory
    rw [parse, hhistory, ← List.getLast?_map, hstubs]
    exact ⟨rfl, hcontexts, rfl⟩

/-- A command with an option, two numbered slots declared in the wrong order, one of them twice, and
a slot for the rest. -/
def copyGrammar : Grammar :=
  .ofSpecs "copy".toList
    [{ name := .flag "-m".toList,
       actions := [{ metavar := "MODE".toList, source := .nothing }] },
      { name := .positional (.at 2), actions := [{ source := .nothing }] },
      { name := .positional (.at 1), actions := [{ source := .nothing }] },
      { name := .positional (.at 1), actions := [{ source := .static 0 .files }] },
      { name := .positional .rest, actions := [{ source := .static 0 .files }] }] []

/-- Operands around an option with its value and after the end of the options, and a line of
operands alone. -/
theorem operands_in_order_copy :
    OneByOne copyGrammar.members ∧
      Fill (operandSlot copyGrammar.members)
        (parse listLookup ["a".toList, "-m".toList, "0".toList, "--".toList, "-b".toList,
          "c".toList] copyGrammar.members).history ∧
      Unmistakable copyGrammar.members ∧ NoFlags ["a".toList, "-".toList, "c".toList] ∧
      (parse listLookup ["a".toList, "-".toList, "c".toList] copyGrammar.members).history.map
          Record.stub = ["a".toList, "-".toList, "c".toList] := by
  have hone : OneByOne copyGrammar.members :=
    ⟨by unfold Plain; decide, by decide, by decide⟩
  have hslots : Unmistakable copyGrammar.members := ⟨by decide, by decide⟩
  have hflags : NoFlags ["a".toList, "-".toList, "c".toList] := ⟨rfl, rfl, rfl, trivial⟩
  exact ⟨hone, (operands_in_order listLookup hone _).1, hslots, hflags,
    ((operands_in_order listLookup hone _).2 hslots hflags).1⟩

example : (List.range 4).map (fun i => (operandSlot copyGrammar.members i).map (·.id.place))
    = [some 2, some 1, some 4, some 4] := by decide

end Line

end CommandGrammar
