import Mathlib.Algebra.Ring.Nat
import CommandGrammar.Proofs.Reading

/-!
# What reading a line costs

Reading a line comes to an end, also where the commands on it embed each other in a circle: what an
embedded line is read against is chosen by its words, but there are fewer of them.

`Finishes` are the rules by which a line is read, one for each thing that can happen to its next
word, with no other recourse to the reading of lines than to that of the embedded line and of the
words left. A derivation is a reading that has come to its end, and it is counted: one step for a
word, one for every word that its match takes along, and one for an embedded line; and one level
for every line inside another one.

* `Outcome.weight_taken`, `Outcome.length_tokens_le`: what one word costs, and what it leaves;
* `Finishes.unique`: the rules leave no choice;
* `exists_finishes`: every line is read to its end, in at most two steps for every character and
  every word, and on at most one level more than there are words;
* `parse_finishes`: the same of a whole line, where the rules arrive at what `parse` answers.
-/

namespace CommandGrammar

namespace Line

/-! ### What one word costs -/

theorem weight_append (words left : List Text) :
    weight (words ++ left) = weight words + weight left := by
  induction words with
  | nil => rw [List.nil_append, weight_nil, Nat.zero_add]
  | cons word words ih =>
    rw [List.cons_append, weight_cons, weight_cons, ih, Nat.add_assoc, Nat.add_assoc, Nat.add_assoc]

theorem weight_eq_sum (words : List Text) :
    weight words = (words.map fun word => word.length + 1).sum := by
  induction words with
  | nil => rfl
  | cons word words ih => rw [weight_cons, ih, List.map_cons, List.sum_cons]

theorem length_le_weight (words : List Text) : words.length ≤ weight words := by
  induction words with
  | nil => exact Nat.le_refl 0
  | cons word words ih =>
    rw [List.length_cons, weight_cons]
    omega

/-- How many of the words after a word its match takes along. A cluster takes none and puts one
back. -/
def taken (rest : List Text) (s : Step) : Nat := rest.length - s.line.tokens.length

/-- The words that a match takes along are told by those it leaves. -/
theorem taken_of_split {rest words left : List Text} {s : Step} (hrest : rest = words ++ left)
    (hleft : s.line.tokens = left) : taken rest s = words.length := by
  rw [taken, hleft, hrest, List.length_append, Nat.add_sub_cancel]

/-- A match that takes words along leaves a line lighter by them and by the word read. -/
theorem weight_taken_of_split {token : Text} {rest words left : List Text} {s : Step}
    (hrest : rest = words ++ left) (hleft : s.line.tokens = left) :
    weight s.line.tokens + taken rest s + 1 ≤ weight (token :: rest) := by
  rw [taken_of_split hrest hleft, hleft, weight_cons, hrest, weight_append]
  have hwords := length_le_weight words
  omega

/-- **Every word pays for its step and for the words taken along.** -/
theorem Outcome.weight_taken {l : Line} {ended : Bool} {token : Text} {s : Step}
    (h : Outcome l ended token s) :
    weight s.line.tokens + taken l.tokens s + 1 ≤ weight (token :: l.tokens) := by
  cases h with
  | marker => exact weight_taken_of_split (List.nil_append l.tokens).symm rfl
  | unknownOption => exact weight_taken_of_split (List.nil_append l.tokens).symm rfl
  | unknownOperand => exact weight_taken_of_split (List.nil_append l.tokens).symm rfl
  | named m words left _ _ htaken => exact weight_taken_of_split htaken.split rfl
  | inline m value words left _ _ _ _ _ _ htaken => exact weight_taken_of_split htaken.split rfl
  | operand m words left _ _ htaken => exact weight_taken_of_split htaken.split rfl
  | cluster m rest _ _ hcluster _ =>
    -- The word put back is as long as the cluster without one letter.
    have hlength := length_splitCluster hcluster
    show weight (('-' :: rest) :: l.tokens)
      + (l.tokens.length - (('-' :: rest) :: l.tokens).length) + 1 ≤ _
    rw [weight_cons, weight_cons, List.length_cons, List.length_cons]
    omega

/-- A word leaves no more words than there were. -/
theorem Outcome.length_tokens_le {l : Line} {ended : Bool} {token : Text} {s : Step}
    (h : Outcome l ended token s) : s.line.tokens.length ≤ l.tokens.length + 1 := by
  have hsplit : ∀ {words left : List Text}, l.tokens = words ++ left →
      left.length ≤ l.tokens.length + 1 := by
    intro words left hwords
    rw [hwords, List.length_append]
    omega
  cases h with
  | marker => exact Nat.le_succ _
  | unknownOption => exact Nat.le_succ _
  | unknownOperand => exact Nat.le_succ _
  | named m words left _ _ htaken => exact hsplit htaken.split
  | inline m value words left _ _ _ _ _ _ htaken => exact hsplit htaken.split
  | operand m words left _ _ htaken => exact hsplit htaken.split
  | cluster m rest _ _ _ _ => exact Nat.le_refl _

theorem length_cutEmbedded_le (terminators tokens : List Text) :
    (cutEmbedded terminators tokens).inner.length + (cutEmbedded terminators tokens).after.length
      ≤ tokens.length := by
  have hsplit := congrArg List.length (cutEmbedded_split terminators tokens)
  rw [List.length_append, List.length_append] at hsplit
  omega

/-! ### Readings that come to an end -/

/-- What a reading costs. -/
structure Cost where
  /-- One for every word, for every word taken along, and for every embedded line. -/
  steps : Nat
  /-- How many lines are read inside one another, the outermost one included. -/
  levels : Nat

/-- A line is read to its end, at some cost and with some line at the end. -/
inductive Finishes (lookup : Text → Option Grammar) : Line → Bool → Cost → Line → Prop
  /-- There are no words left. -/
  | done {l : Line} {ended : Bool} : l.tokens = [] → Finishes lookup l ended ⟨0, 1⟩ l
  /-- A word is read with the words it takes along. -/
  | word {l : Line} {ended : Bool} {token : Text} {rest : List Text} {s : Step} {cost : Cost}
      {final : Line} : l.tokens = token :: rest → step { l with tokens := rest } ended token = s →
      s.embedded = none → Finishes lookup s.line s.ended cost final →
      Finishes lookup l ended ⟨1 + taken rest s + cost.steps, cost.levels⟩ final
  /-- A word opens an embedded line on which nothing stands. -/
  | blank {l : Line} {ended : Bool} {token : Text} {rest : List Text} {s : Step} {e : Embedding}
      {cut : Cut} {cost : Cost} {final : Line} : l.tokens = token :: rest →
      step { l with tokens := rest } ended token = s → s.embedded = some e →
      cutEmbedded e.terminators s.line.tokens = cut → cut.inner = [] →
      Finishes lookup (s.line.resume cut) s.ended cost final →
      Finishes lookup l ended ⟨1 + taken rest s + 1 + cost.steps, cost.levels⟩ final
  /-- A word opens an embedded line on which only the command stands. -/
  | command {l : Line} {ended : Bool} {token command : Text} {rest : List Text} {s : Step}
      {e : Embedding} {cut : Cut} {cost : Cost} {final : Line} : l.tokens = token :: rest →
      step { l with tokens := rest } ended token = s → s.embedded = some e →
      cutEmbedded e.terminators s.line.tokens = cut → cut.inner = [command] →
      Finishes lookup ((s.line.pushCommand command).resume cut) s.ended cost final →
      Finishes lookup l ended ⟨1 + taken rest s + 1 + cost.steps, cost.levels⟩ final
  /-- A word opens an embedded line, whose arguments are read at a level of their own. -/
  | arguments {l : Line} {ended : Bool} {token command argument : Text}
      {rest others : List Text} {s : Step} {e : Embedding} {cut : Cut} {cost costInside : Cost}
      {inside final : Line} : l.tokens = token :: rest →
      step { l with tokens := rest } ended token = s → s.embedded = some e →
      cutEmbedded e.terminators s.line.tokens = cut →
      cut.inner = command :: argument :: others →
      Finishes lookup (nested lookup (s.line.pushCommand command) command (argument :: others))
        false costInside inside →
      Finishes lookup (((s.line.pushCommand command).absorb inside).resume cut) s.ended cost
        final →
      Finishes lookup l ended
        ⟨1 + taken rest s + 1 + costInside.steps + cost.steps,
          max (costInside.levels + 1) cost.levels⟩ final

/-- **The rules leave no choice**: a line has one end and one cost. -/
theorem Finishes.unique {lookup : Text → Option Grammar} {l final : Line} {ended : Bool}
    {cost : Cost} (h : Finishes lookup l ended cost final) :
    ∀ {cost' : Cost} {final' : Line}, Finishes lookup l ended cost' final' →
      cost' = cost ∧ final' = final := by
  -- The next word, the step, the embedding and the cut are functions of the line: of the rules
  -- for the second reading only that of the first one applies.
  induction h with
  | done hread =>
    intro cost' final' h'
    cases h' <;> grind
  | word hread hstep hembedded _ ih =>
    intro cost' final' h'
    cases h' with
    | word hread' hstep' _ hrest' =>
      obtain ⟨rfl, rfl⟩ := List.cons.inj (hread'.symm.trans hread)
      obtain rfl := hstep'.symm.trans hstep
      obtain ⟨rfl, rfl⟩ := ih hrest'
      exact ⟨rfl, rfl⟩
    | _ => grind
  | blank hread hstep hembedded hcut hinner _ ih =>
    intro cost' final' h'
    cases h' with
    | blank hread' hstep' hembedded' hcut' _ hrest' =>
      obtain ⟨rfl, rfl⟩ := List.cons.inj (hread'.symm.trans hread)
      obtain rfl := hstep'.symm.trans hstep
      obtain rfl := Option.some.inj (hembedded'.symm.trans hembedded)
      obtain rfl := hcut'.symm.trans hcut
      obtain ⟨rfl, rfl⟩ := ih hrest'
      exact ⟨rfl, rfl⟩
    | _ => grind
  | command hread hstep hembedded hcut hinner _ ih =>
    intro cost' final' h'
    cases h' with
    | command hread' hstep' hembedded' hcut' hinner' hrest' =>
      obtain ⟨rfl, rfl⟩ := List.cons.inj (hread'.symm.trans hread)
      obtain rfl := hstep'.symm.trans hstep
      obtain rfl := Option.some.inj (hembedded'.symm.trans hembedded)
      obtain rfl := hcut'.symm.trans hcut
      obtain ⟨rfl, -⟩ := List.cons.inj (hinner'.symm.trans hinner)
      obtain ⟨rfl, rfl⟩ := ih hrest'
      exact ⟨rfl, rfl⟩
    | _ => grind
  | arguments hread hstep hembedded hcut hinner _ _ ihInside ih =>
    intro cost' final' h'
    cases h' with
    | arguments hread' hstep' hembedded' hcut' hinner' hinside' hrest' =>
      obtain ⟨rfl, rfl⟩ := List.cons.inj (hread'.symm.trans hread)
      obtain rfl := hstep'.symm.trans hstep
      obtain rfl := Option.some.inj (hembedded'.symm.trans hembedded)
      obtain rfl := hcut'.symm.trans hcut
      obtain ⟨rfl, hothers⟩ := List.cons.inj (hinner'.symm.trans hinner)
      obtain ⟨rfl, rfl⟩ := List.cons.inj hothers
      obtain ⟨rfl, rfl⟩ := ihInside hinside'
      obtain ⟨rfl, rfl⟩ := ih hrest'
      exact ⟨rfl, rfl⟩
    | _ => grind

/-! ### Every line is read to its end -/

/-- A cost within the bounds that some words set. -/
def Cost.Within (cost : Cost) (tokens : List Text) : Prop :=
  cost.steps ≤ 2 * weight tokens ∧ cost.levels ≤ tokens.length + 1

section Word

variable {lookup : Text → Option Grammar} {l final : Line} {ended : Bool} {token : Text}
  {rest : List Text} {s : Step} {cost : Cost}
  (hread : l.tokens = token :: rest) (hstep : step { l with tokens := rest } ended token = s)
  (hrest : Finishes lookup (settled lookup s) s.ended cost final)
  (hwithin : cost.Within (settled lookup s).tokens)

include hread hstep hrest hwithin

/-- A word that hands nothing over is paid for by its own weight. -/
theorem exists_finishes_word (hembedded : s.embedded = none) :
    ∃ cost', Finishes lookup l ended cost' final ∧ cost'.Within l.tokens := by
  have houtcome := hstep ▸ step_outcome { l with tokens := rest } ended token
  have hpaid := houtcome.weight_taken
  have hcount := houtcome.length_tokens_le
  obtain ⟨hsteps, hlevels⟩ := hwithin
  unfold settled at hrest hsteps hlevels
  rw [hembedded] at hrest hsteps hlevels
  refine ⟨_, .word hread hstep hembedded hrest, ?_⟩
  rw [hread]
  dsimp only at hpaid hcount hsteps hlevels
  constructor
  · show 1 + taken rest s + cost.steps ≤ _
    omega
  · show cost.levels ≤ rest.length + 1 + 1
    omega

/-- A word that opens an embedded line is paid for as well: the weight of the words handed over
pays for what they cost. -/
theorem exists_finishes_embedded {e : Embedding} (hembedded : s.embedded = some e)
    (hinside : ∀ command arguments,
      (cutEmbedded e.terminators s.line.tokens).inner = command :: arguments →
      ∃ costInside,
        Finishes lookup (nested lookup (s.line.pushCommand command) command arguments) false
          costInside (run lookup (nested lookup (s.line.pushCommand command) command arguments)
            false) ∧
        costInside.Within arguments) :
    ∃ cost', Finishes lookup l ended cost' final ∧ cost'.Within l.tokens := by
  have houtcome := hstep ▸ step_outcome { l with tokens := rest } ended token
  have hpaid := houtcome.weight_taken
  have hcount := houtcome.length_tokens_le
  have hcutWeight := weight_cutEmbedded e.terminators s.line.tokens
  have hcutLength := length_cutEmbedded_le e.terminators s.line.tokens
  obtain ⟨hsteps, hlevels⟩ := hwithin
  unfold settled at hrest hsteps hlevels
  rw [hembedded] at hrest hsteps hlevels
  dsimp only at hpaid hcount hrest hsteps hlevels
  rw [tokens_readEmbedded] at hsteps hlevels
  unfold readEmbedded at hrest
  dsimp only at hrest
  generalize hcut : cutEmbedded e.terminators s.line.tokens = cut at *
  rw [hread]
  cases hinner : cut.inner with
  | nil =>
    rw [hinner] at hrest
    refine ⟨_, .blank hread hstep hembedded hcut hinner hrest, ?_, ?_⟩
    · show 1 + taken rest s + 1 + cost.steps ≤ _
      omega
    · show cost.levels ≤ rest.length + 1 + 1
      omega
  | cons command arguments =>
    rw [hinner] at hrest hcutWeight hcutLength
    rw [weight_cons] at hcutWeight
    rw [List.length_cons] at hcutLength
    cases arguments with
    | nil =>
      refine ⟨_, .command hread hstep hembedded hcut hinner hrest, ?_, ?_⟩
      · show 1 + taken rest s + 1 + cost.steps ≤ _
        omega
      · show cost.levels ≤ rest.length + 1 + 1
        omega
    | cons argument others =>
      obtain ⟨costInside, hreadInside, hstepsInside, hlevelsInside⟩ :=
        hinside command (argument :: others) hinner
      refine ⟨_, .arguments hread hstep hembedded hcut hinner hreadInside hrest, ?_, ?_⟩
      · show 1 + taken rest s + 1 + costInside.steps + cost.steps ≤ _
        omega
      · show max (costInside.levels + 1) cost.levels ≤ rest.length + 1 + 1
        omega

end Word

/-- **Every line is read to its end**, and at a cost that its words bound. -/
theorem exists_finishes (lookup : Text → Option Grammar) (l : Line) (ended : Bool) :
    ∃ cost, Finishes lookup l ended cost (run lookup l ended) ∧ cost.Within l.tokens := by
  induction l, ended using run_induction lookup with
  | nil l ended hread =>
    rw [run_nil lookup l ended hread]
    exact ⟨⟨0, 1⟩, .done hread, Nat.zero_le _, Nat.le_add_left 1 _⟩
  | cons l ended token rest hread hinside ih =>
    rw [run_cons lookup l ended token rest hread]
    obtain ⟨cost, hrest, hwithin⟩ := ih
    generalize hstep : step { l with tokens := rest } ended token = s at *
    cases hembedded : s.embedded with
    | none => exact exists_finishes_word hread hstep hrest hwithin hembedded
    | some e =>
      exact exists_finishes_embedded hread hstep hrest hwithin hembedded
        fun command arguments hcut => hinside e command arguments hembedded hcut

/-- **Reading ends**, whatever the commands on the line embed and whatever their grammars are. By
the rules of `Finishes` the line is read to its end in at most two steps for every character and
every word, and on at most one level more than it has words. The rules allow of no other reading. -/
theorem parse_finishes (lookup : Text → Option Grammar) (tokens : List Text)
    (available : List Member) :
    ∃ cost : Cost,
      Finishes lookup { tokens := tokens, available := available } false cost
        (parse lookup tokens available) ∧
      cost.steps ≤ 2 * (tokens.map fun token => token.length + 1).sum ∧
      cost.levels ≤ tokens.length + 1 ∧
      ∀ cost' final,
        Finishes lookup { tokens := tokens, available := available } false cost' final →
          cost' = cost ∧ final = parse lookup tokens available := by
  obtain ⟨cost, hfinishes, hsteps, hlevels⟩ :=
    exists_finishes lookup { tokens := tokens, available := available } false
  rw [weight_eq_sum] at hsteps
  exact ⟨cost, hfinishes, hsteps, hlevels, fun _ _ h => hfinishes.unique h⟩

end Line

end CommandGrammar
