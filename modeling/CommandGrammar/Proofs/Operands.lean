import CommandGrammar.Proofs.Trace
import CommandGrammar.Proofs.Pause
import CommandGrammar.Proofs.Compiled

/-!
# After the end of the options

Two dashes that are read before the last word, and that no slot has taken, end the options: no word
after them is tried as an option any more. On a line that hands no words over, each of these words
is an operand or unknown, whatever it looks like, and each has a record of its own.

The end of the options is known by the words left at a moment of the line. These are the last words
of the line, except that a cluster puts back what follows its first flag with a dash of its own; and
this is never two dashes.

* `Outcome.operand_of_ended`: a word read after the end of the options;
* `run_ended`: all words after the end of the options;
* `left_of_reaches`: the words left at a moment of a line;
* `operands_after_marker`: what a line records once its options have ended.
-/

namespace CommandGrammar

/-- Whether a record is of an operand, or of a word for which there was no slot. -/
def Record.IsOperand (r : Record) : Prop :=
  (r.context = .positional ∧ ∃ m, r.member = some m ∧ m.spec.isPositional = true) ∨
    (r.context = .unknownPositional ∧ r.member = none)

/-- Nothing that is recorded as an operand is matched as an option. -/
theorem Record.IsOperand.not_option {r : Record} (h : r.IsOperand) {m : Member}
    (hm : r.member = some m) : m.spec.isOption = false := by
  rcases h with ⟨-, m', hm', hslot⟩ | ⟨-, hnone⟩
  · obtain rfl : m' = m := Option.some.inj (hm'.symm.trans hm)
    simp [Spec.isOption_eq_not_isPositional, hslot]
  · simp [hnone] at hm

namespace Line

/-! ### Words after the end of the options -/

/-- **A word after the end of the options** is an operand or unknown, and so are the words it takes
with it. -/
theorem Outcome.operand_of_ended {l : Line} {token : Text} {s : Step}
    (h : Outcome l true token s) :
    s.ended = true ∧ ∃ words records, l.tokens = words ++ s.line.tokens ∧
      s.line.history = l.history ++ records ∧ records.map Record.stub = token :: words ∧
      ∀ r ∈ records, r.IsOperand := by
  cases h with
  | marker hended => exact absurd hended (by simp)
  | unknownOption htries => simp [triesOptions] at htries
  | named m words left htries => simp [triesOptions] at htries
  | inline m value words left htries => simp [triesOptions] at htries
  | cluster m rest htries => simp [triesOptions] at htries
  | unknownOperand =>
    refine ⟨rfl, [], [l.unknownRecord .unknownPositional token], rfl, rfl, rfl, ?_⟩
    intro r hr
    obtain rfl := List.mem_singleton.1 hr
    exact Or.inr ⟨rfl, rfl⟩
  | operand m words left _ hfirst htaken =>
    refine ⟨rfl, words, _, htaken.split, rfl, stubs_restRecords m _ (token :: words) [], ?_⟩
    intro r hr
    obtain ⟨hcontext, -, hmember, -⟩ := mem_restRecords hr
    exact Or.inl ⟨hcontext, m, hmember, (firstPositional?_eq_some hfirst).2⟩

/-- Where nothing is handed over, a step leads on as it is. -/
theorem Outcome.settled_eq {l : Line} {ended : Bool} {token : Text} {s : Step}
    (h : Outcome l ended token s) (hplain : Plain l.available)
    (lookup : Text → Option Grammar) : settled lookup s = s.line := by
  have hnone : s.embedded = none := by
    cases h with
    | marker => rfl
    | unknownOption => rfl
    | unknownOperand => rfl
    | named m words left _ hhit => exact hplain m (findOption_named hhit).1
    | inline m value words left _ _ hm => exact hplain m hm
    | cluster m rest _ _ hcluster =>
      obtain ⟨c, -, -, -, hm, -⟩ := splitCluster_eq_some hcluster
      exact hplain m hm
    | operand m words left _ hfirst => exact hplain m (firstPositional?_eq_some hfirst).1
  unfold settled
  rw [hnone]

/-- **All words after the end of the options** are operands or unknown, one record for each. -/
theorem run_ended (lookup : Text → Option Grammar) (l : Line) (ended : Bool) :
    ended = true → Plain l.available →
      ∃ records, (run lookup l ended).history = l.history ++ records ∧
        records.map Record.stub = l.tokens ∧ ∀ r ∈ records, r.IsOperand := by
  induction l, ended using run_induction lookup with
  | nil l ended hread =>
    intro _ _
    rw [run_nil lookup l ended hread]
    exact ⟨[], by simp, by simp [hread], by simp⟩
  | cons l ended token rest hread _ ih =>
    intro hended hplain
    subst hended
    rw [run_cons lookup l true token rest hread]
    have houtcome := step_outcome { l with tokens := rest } true token
    generalize step { l with tokens := rest } true token = s at *
    rw [houtcome.settled_eq hplain lookup] at ih ⊢
    obtain ⟨hended, words, records, hrest, hhistory, hstubs, hoperands⟩ :=
      houtcome.operand_of_ended
    obtain ⟨later, hlater, hstubs', hoperands'⟩ :=
      ih hended fun m hm => hplain m (houtcome.available_subset hm)
    refine ⟨records ++ later, ?_, ?_, ?_⟩
    · rw [hlater, hhistory, List.append_assoc]
    · have hsplit : rest = words ++ s.line.tokens := hrest
      rw [List.map_append, hstubs, hstubs', hread, hsplit]
      rfl
    · exact List.forall_mem_append.2 ⟨hoperands, hoperands'⟩

/-! ### The words left at a moment -/

/-- Whether some words are the last ones of a line, but for a first word that was put back: that one
is a dash and something else that does not begin with a dash. -/
def LastWords (tokens left : List Text) : Prop :=
  left <:+ tokens ∨ ∃ tail after, left = ('-' :: tail) :: after ∧ tail ≠ [] ∧
    tail.head? ≠ some '-' ∧ after <:+ tokens

/-- Only the first word can be one that was put back. -/
theorem LastWords.tail {tokens rest : List Text} {token : Text}
    (h : LastWords tokens (token :: rest)) : rest <:+ tokens := by
  rcases h with hsuffix | ⟨tail, after, hleft, -, -, hsuffix⟩
  · exact (List.suffix_cons token rest).trans hsuffix
  · rwa [(List.cons.inj hleft).2]

/-- Two dashes are never put back. -/
theorem LastWords.marker {tokens rest : List Text} (h : LastWords tokens (endOfOptions :: rest)) :
    endOfOptions :: rest <:+ tokens := by
  rcases h with hsuffix | ⟨tail, after, hleft, -, hhead, -⟩
  · exact hsuffix
  · obtain ⟨hword, -⟩ := List.cons.inj hleft
    obtain rfl : ['-'] = tail := (List.cons.inj hword).2
    exact absurd rfl hhead

/-- A word that is read leaves the last words, of which it may put back a part of itself. -/
theorem Outcome.lastWords {l : Line} {ended : Bool} {token : Text} {s : Step}
    (h : Outcome l ended token s) : LastWords l.tokens s.line.tokens := by
  cases h with
  | marker => exact Or.inl (List.suffix_refl _)
  | unknownOption => exact Or.inl (List.suffix_refl _)
  | unknownOperand => exact Or.inl (List.suffix_refl _)
  | named m words left _ _ htaken => exact Or.inl ⟨words, htaken.split.symm⟩
  | inline m value words left _ _ _ _ _ _ htaken => exact Or.inl ⟨words, htaken.split.symm⟩
  | cluster m rest _ _ hcluster htakes =>
    obtain ⟨c, -, -, hne, -, -, hhead⟩ := splitCluster_eq_some hcluster
    exact Or.inr ⟨rest, l.tokens, rfl, hne, hhead htakes, List.suffix_refl _⟩
  | operand m words left _ _ htaken => exact Or.inl ⟨words, htaken.split.symm⟩

/-- A level that hands no words over never does. -/
theorem plain_of_reaches {lookup : Text → Option Grammar} {start : Line} {now : Moment}
    (hplain : Plain start.available) (h : Reaches lookup start now) :
    Plain now.line.available := by
  rw [available_of_reaches h]
  exact fun m hm => hplain m (List.mem_filter.1 hm).1

/-- At all moments of a level that hands no words over, its last words are left. -/
theorem left_of_reaches {lookup : Text → Option Grammar} {start : Line} {now : Moment}
    (hplain : Plain start.available) (h : Reaches lookup start now) :
    LastWords start.tokens now.line.tokens := by
  induction h with
  | start => exact Or.inl (List.suffix_refl _)
  | @word now token rest hnow hread ih =>
    rw [hread] at ih
    have hleft := (now.outcome token rest).lastWords
    rw [Moment.next, (now.outcome token rest).settled_eq (plain_of_reaches hplain hnow) lookup]
    rcases hleft with hsuffix | ⟨tail, after, heq, hne, hhead, hsuffix⟩
    · exact Or.inl (hsuffix.trans ih.tail)
    · exact Or.inr ⟨tail, after, heq, hne, hhead, hsuffix.trans ih.tail⟩

/-! ### Lines whose options end -/

/-- **After the end of the options everything is an operand.** If two dashes end the options at a
moment of a line, they are a word of it, and what the line records after them is one record for each
of the words that follow them, in their order: it holds the whole word, and is of an operand or of a
word without a slot. -/
theorem operands_after_marker {lookup : Text → Option Grammar} {start : Line} {now : Moment}
    {rest : List Text} (hplain : Plain start.available) (hnow : Reaches lookup start now)
    (hopen : now.ended = false) (hread : now.line.tokens = endOfOptions :: rest)
    (hrest : rest ≠ []) :
    (∃ before, start.tokens = before ++ endOfOptions :: rest) ∧
      ∃ later, (run lookup start false).history
          = now.line.history ++ now.line.markerRecord endOfOptions :: later ∧
        later.map Record.stub = rest ∧
        ∀ r ∈ later, r.IsOperand ∧ ∀ m, r.member = some m → m.spec.isOption = false := by
  constructor
  · have hleft := left_of_reaches hplain hnow
    rw [hread] at hleft
    obtain ⟨before, hbefore⟩ := hleft.marker
    exact ⟨before, hbefore.symm⟩
  · have hplain' : Plain now.line.available := by
      rw [available_of_reaches hnow]
      exact fun m hm => hplain m (List.mem_filter.1 hm).1
    have hstep : step { now.line with tokens := rest } false endOfOptions
        = ⟨{ now.line with tokens := rest }.push (now.line.markerRecord endOfOptions), true,
          none⟩ := by
      have hne : rest.isEmpty = false := List.isEmpty_eq_false_iff.2 hrest
      unfold step
      simp [hne]
      rfl
    obtain ⟨later, hlater, hstubs, hoperands⟩ := run_ended lookup
      ({ now.line with tokens := rest }.push (now.line.markerRecord endOfOptions)) true rfl hplain'
    refine ⟨later, ?_, hstubs, fun r hr => ⟨hoperands r hr, fun m hm => ?_⟩⟩
    · rw [← run_of_reaches hnow, hopen, run_cons lookup now.line false _ rest hread, hstep]
      show (run lookup ({ now.line with tokens := rest }.push _) true).history = _
      rw [hlater]
      simp [push]
    · exact (hoperands r hr).not_option hm

/-- The line of a command with one option and a slot for the rest: an operand, the end of the
options, and then two words that look like options. -/
def markedLine : Line :=
  { tokens := ["src".toList, "--".toList, "--".toList, "-a".toList],
    available := listGrammar.members }

/-- Everything after the two dashes is an operand. -/
theorem operands_after_marker_list :
    Plain markedLine.available ∧
      ∃ now, Reaches listLookup markedLine now ∧ now.ended = false ∧
        now.line.tokens = endOfOptions :: ["--".toList, "-a".toList] ∧
        ∃ later, (run listLookup markedLine false).history
            = now.line.history ++ now.line.markerRecord endOfOptions :: later ∧
          later.map Record.stub = ["--".toList, "-a".toList] ∧ ∀ r ∈ later, r.IsOperand := by
  have hplain : Plain markedLine.available := by unfold Plain; decide
  have hnow : Reaches listLookup markedLine (Moment.next listLookup ⟨markedLine, false, []⟩
      "src".toList ["--".toList, "--".toList, "-a".toList]) := Reaches.start.word rfl
  have hread : (Moment.next listLookup ⟨markedLine, false, []⟩ "src".toList
      ["--".toList, "--".toList, "-a".toList]).line.tokens
        = endOfOptions :: ["--".toList, "-a".toList] := by decide +kernel
  obtain ⟨-, later, hhistory, hstubs, hoperands⟩ :=
    operands_after_marker hplain hnow rfl hread (List.cons_ne_nil _ _)
  exact ⟨hplain, _, hnow, rfl, hread, later, hhistory, hstubs, fun r hr => (hoperands r hr).1⟩

end Line

end CommandGrammar
