import CommandGrammar.Proofs.Level
import CommandGrammar.Proofs.Availability

/-!
# Traces are made of matches

A trace grows by whole matches. `IsMatch` are the records that one match can leave behind, all of
them under one number: the name of an option with values after it, values that begin with an
inline one, the operands of a slot, or the lone record of a word that belongs to no specification.
A trace is `Traced` if it was put together from matches each of which had, when it was appended,
the number that was next.

* `Traced.isMatch_group`: the records of one number are one match;
* `Traced.flatten_groups`: the matches of a trace, in the order of their numbers, are the trace;
* `run_traced`: reading a line appends whole matches, at every level of it.

All of this is relative to a property `P` of specifications: if it holds of whatever is available
and of the members of all grammars that are looked up, it holds of whatever is matched.
-/

namespace CommandGrammar

open Line

/-! ### Matches -/

/-- The records of one match of a specification with some property, all under one number; a word
that belongs to no specification counts as one. -/
inductive IsMatch (P : Spec → Prop) (number : Nat) : List Record → Prop
  | plain (r : Record) : r.member = none → r.occurrence = number → IsMatch P number [r]
  | named (r : Record) (m : Member) (words : List Text) : P m.spec → m.spec.isOption = true →
      r.context = .option → r.name = m.spec.flag?.getD [] → r.member = some m → r.slot = none →
      r.occurrence = number → words.length ≤ m.spec.actions.length →
      IsMatch P number (r :: valueRecords m number 0 [] m.spec.actions words)
  | inline (m : Member) (words : List Text) : P m.spec → m.spec.isOption = true → words ≠ [] →
      words.length ≤ m.spec.actions.length →
      IsMatch P number (valueRecords m number 0 [] m.spec.actions words)
  | operands (m : Member) (words : List Text) : P m.spec → m.spec.isPositional = true →
      words ≠ [] → (m.spec.isUnbounded = false → words.length = 1) →
      IsMatch P number (restRecords m number [] words)

namespace IsMatch

variable {P : Spec → Prop} {number : Nat} {block : List Record}

theorem ne_nil (h : IsMatch P number block) : block ≠ [] := by
  cases h with
  | plain => exact List.cons_ne_nil _ _
  | named => exact List.cons_ne_nil _ _
  | inline m words _ _ hne hfits =>
    intro hnil
    have hstubs := stubs_valueRecords m number m.spec.actions 0 [] words hfits
    rw [hnil] at hstubs
    exact hne hstubs.symm
  | operands m words _ _ hne _ =>
    intro hnil
    have hstubs := stubs_restRecords m number words []
    rw [hnil] at hstubs
    exact hne hstubs.symm

/-- The records of a match share name, specification, context and number, and the name is the label
of the specification. -/
theorem exists_shared (h : IsMatch P number block) :
    ∃ (context : MatchContext) (name : Text) (member : Option Member),
      (∀ m ∈ member, name = m.spec.label) ∧ ∀ r ∈ block, r.context = context ∧ r.name = name ∧
        r.member = member ∧ r.occurrence = number := by
  cases h with
  | plain r hnone hnumber =>
    refine ⟨r.context, r.name, none, fun m hm => absurd hm (by simp), fun r' hr => ?_⟩
    rw [List.mem_singleton] at hr
    subst hr
    exact ⟨rfl, rfl, hnone, hnumber⟩
  | named r m words _ hoption hcontext hname hmember _ hnumber _ =>
    refine ⟨.option, m.spec.flag?.getD [], some m, ?_, fun r' hr => ?_⟩
    · rintro _ ⟨⟩
      exact (Spec.label_of_isOption hoption).symm
    · rcases List.mem_cons.1 hr with rfl | hr
      · exact ⟨hcontext, hname, hmember, hnumber⟩
      · exact mem_valueRecords hr
  | inline m words _ hoption _ _ =>
    refine ⟨.option, m.spec.flag?.getD [], some m, ?_, fun r hr => mem_valueRecords hr⟩
    rintro _ ⟨⟩
    exact (Spec.label_of_isOption hoption).symm
  | operands m words _ _ _ _ =>
    refine ⟨.positional, m.spec.label, some m, ?_, fun r hr => mem_restRecords hr⟩
    rintro _ ⟨⟩
    rfl

theorem occurrence_eq (h : IsMatch P number block) : ∀ r ∈ block, r.occurrence = number := by
  obtain ⟨_, _, _, -, hshared⟩ := h.exists_shared
  exact fun r hr => (hshared r hr).2.2.2

end IsMatch

/-! ### The numbers of a trace -/

theorem foldl_occurrence_of_forall {number : Nat} {block : List Record}
    (h : ∀ r ∈ block, r.occurrence = number) :
    block.foldl (fun bound r => max bound (r.occurrence + 1)) (number + 1) = number + 1 := by
  induction block with
  | nil => rfl
  | cons r block ih =>
    rw [List.foldl_cons, h r List.mem_cons_self, Nat.max_self]
    exact ih fun r' hr => h r' (List.mem_cons_of_mem _ hr)

/-- A match under the next number makes the number after it the next one. -/
theorem nextOccurrence_append {history block : List Record} (hne : block ≠ [])
    (h : ∀ r ∈ block, r.occurrence = nextOccurrence history) :
    nextOccurrence (history ++ block) = nextOccurrence history + 1 := by
  cases block with
  | nil => exact absurd rfl hne
  | cons r block =>
    have hfold : nextOccurrence (history ++ r :: block)
        = block.foldl (fun bound r => max bound (r.occurrence + 1))
            (max (nextOccurrence history) (r.occurrence + 1)) := by
      rw [nextOccurrence, List.foldl_append, List.foldl_cons]
      rfl
    rw [hfold, h r List.mem_cons_self, Nat.max_eq_right (Nat.le_succ _)]
    exact foldl_occurrence_of_forall fun r' hr => h r' (List.mem_cons_of_mem _ hr)

def occurrenceGroup (history : List Record) (number : Nat) : List Record :=
  history.filter fun r => r.occurrence == number

/-- The records of every number given, in the order of the numbers. -/
def occurrenceGroups (history : List Record) : List (List Record) :=
  (List.range (nextOccurrence history)).map (occurrenceGroup history)

theorem occurrenceGroup_append (history history' : List Record) (number : Nat) :
    occurrenceGroup (history ++ history') number
      = occurrenceGroup history number ++ occurrenceGroup history' number :=
  List.filter_append _ _

theorem occurrenceGroup_eq_self {block : List Record} {number : Nat}
    (h : ∀ r ∈ block, r.occurrence = number) : occurrenceGroup block number = block :=
  List.filter_eq_self.2 fun r hr => beq_iff_eq.2 (h r hr)

theorem occurrenceGroup_eq_nil {block : List Record} {number : Nat}
    (h : ∀ r ∈ block, r.occurrence ≠ number) : occurrenceGroup block number = [] :=
  List.filter_eq_nil_iff.2 fun r hr => by simpa using h r hr

theorem mem_occurrenceGroup {history : List Record} {number : Nat} {r : Record} :
    r ∈ occurrenceGroup history number ↔ r ∈ history ∧ r.occurrence = number := by
  rw [occurrenceGroup, List.mem_filter, beq_iff_eq]

/-! ### Traces -/

/-- A trace put together from matches, each under the number that was next. -/
inductive Traced (P : Spec → Prop) : List Record → Prop
  | nil : Traced P []
  | append {history block : List Record} : Traced P history →
      IsMatch P (nextOccurrence history) block → Traced P (history ++ block)

namespace Traced

variable {P : Spec → Prop} {history block : List Record}

theorem nextOccurrence_append (hblock : IsMatch P (nextOccurrence history) block) :
    nextOccurrence (history ++ block) = nextOccurrence history + 1 :=
  CommandGrammar.nextOccurrence_append hblock.ne_nil hblock.occurrence_eq

/-- The records of the numbers given before are the same after a match. -/
theorem group_append_of_lt (hblock : IsMatch P (nextOccurrence history) block) {number : Nat}
    (hnumber : number < nextOccurrence history) :
    occurrenceGroup (history ++ block) number = occurrenceGroup history number := by
  have hnone : occurrenceGroup block number = [] := occurrenceGroup_eq_nil fun r hr heq => by
    rw [hblock.occurrence_eq r hr] at heq
    omega
  rw [occurrenceGroup_append, hnone, List.append_nil]

/-- The records of the next number are those of the next match. -/
theorem group_append_self (hblock : IsMatch P (nextOccurrence history) block) :
    occurrenceGroup (history ++ block) (nextOccurrence history) = block := by
  have hnone : occurrenceGroup history (nextOccurrence history) = [] :=
    occurrenceGroup_eq_nil fun r hr heq => by
      have hlt := occurrence_lt_nextOccurrence hr
      omega
  rw [occurrenceGroup_append, hnone, occurrenceGroup_eq_self hblock.occurrence_eq, List.nil_append]

/-- **The records of one number are one match.** -/
theorem isMatch_group (h : Traced P history) :
    ∀ number < nextOccurrence history, IsMatch P number (occurrenceGroup history number) := by
  induction h with
  | nil =>
    intro number hnumber
    exact absurd hnumber (Nat.not_lt_zero _)
  | @append history block _ hblock ih =>
    intro number hnumber
    rw [nextOccurrence_append hblock] at hnumber
    rcases Nat.lt_succ_iff_lt_or_eq.1 hnumber with hlt | rfl
    · rw [group_append_of_lt hblock hlt]
      exact ih number hlt
    · rw [group_append_self hblock]
      exact hblock

/-- A match becomes the last group of a trace. -/
theorem groups_append (hblock : IsMatch P (nextOccurrence history) block) :
    occurrenceGroups (history ++ block) = occurrenceGroups history ++ [block] := by
  rw [occurrenceGroups, nextOccurrence_append hblock, List.range_succ, List.map_append,
    List.map_singleton, group_append_self hblock]
  congr 1
  apply List.map_congr_left
  intro number hnumber
  exact group_append_of_lt hblock (List.mem_range.1 hnumber)

/-- **A trace is its matches in the order of their numbers.** -/
theorem flatten_groups (h : Traced P history) : (occurrenceGroups history).flatten = history := by
  induction h with
  | nil => rfl
  | @append history block _ hblock ih =>
    rw [groups_append hblock, List.flatten_append, ih, List.flatten_singleton]

end Traced

/-! ### Reading a line appends matches -/

namespace Line

variable {P : Spec → Prop} {lookup : Text → Option Grammar}

/-- A word appends one match, of a specification that was available. -/
theorem Outcome.isMatch {l : Line} {ended : Bool} {token : Text} {s : Step}
    (h : Outcome l ended token s) (havailable : ∀ m ∈ l.available, P m.spec) :
    ∃ block, s.line.history = l.history ++ block ∧
      IsMatch P (nextOccurrence l.history) block := by
  cases h with
  | marker => exact ⟨[l.markerRecord token], rfl, .plain _ rfl rfl⟩
  | unknownOption => exact ⟨[l.unknownRecord .unknownOption token], rfl, .plain _ rfl rfl⟩
  | unknownOperand => exact ⟨[l.unknownRecord .unknownPositional token], rfl, .plain _ rfl rfl⟩
  | named m words left _ hhit htaken =>
    obtain ⟨hm, hoption⟩ := findOption_named hhit
    exact ⟨_, rfl, .named _ m words (havailable m hm) hoption rfl rfl rfl rfl rfl htaken.fits⟩
  | inline m value words left _ _ hm hoption htakes _ htaken =>
    have hslots := List.length_pos_iff.2 (Spec.takesValue_iff.1 htakes)
    have hfits : (value :: words).length ≤ m.spec.actions.length := by
      have := htaken.fits
      rw [List.length_cons]
      omega
    exact ⟨_, rfl, .inline m _ (havailable m hm) hoption (List.cons_ne_nil _ _) hfits⟩
  | cluster m rest _ _ hcluster _ =>
    obtain ⟨c, -, -, -, hm, hflag, -⟩ := splitCluster_eq_some hcluster
    have hmatch : IsMatch P (nextOccurrence l.history)
        (nameRecord l m (m.spec.flag?.getD [])
          :: valueRecords m (nextOccurrence l.history) 0 [] m.spec.actions []) :=
      .named _ m [] (havailable m hm) (Spec.isOption_of_flag? hflag) rfl rfl rfl rfl rfl
        (Nat.zero_le _)
    rw [valueRecords_nil_right] at hmatch
    exact ⟨_, rfl, hmatch⟩
  | operand m words left _ hfirst htaken =>
    obtain ⟨hm, hpositional⟩ := firstPositional?_eq_some hfirst
    refine ⟨_, rfl, .operands m _ (havailable m hm) hpositional (List.cons_ne_nil _ _) ?_⟩
    intro hbounded
    by_cases hwords : words = []
    · rw [hwords]
      rfl
    · rw [htaken.unbounded hwords] at hbounded
      exact absurd hbounded (by simp)

/-- A word makes nothing available. -/
theorem Outcome.available_subset {l : Line} {ended : Bool} {token : Text} {s : Step}
    (h : Outcome l ended token s) : s.line.available ⊆ l.available := by
  obtain ⟨_, -, ⟨havailable, -, -⟩ | ⟨m, -, havailable, -, -, -⟩⟩ := h.takes
  · rw [havailable]
    exact List.Subset.refl _
  · rw [havailable]
    exact fun m hm => (List.mem_filter.1 hm).1

theorem traced_push {l : Line} {r : Record} (h : Traced P l.history) (hmember : r.member = none)
    (hnumber : r.occurrence = nextOccurrence l.history) : Traced P (l.push r).history :=
  .append h (.plain r hmember hnumber)

theorem traced_resume {l : Line} (h : Traced P l.history) (cut : Cut) :
    Traced P (l.resume cut).history := by
  unfold resume
  dsimp only
  split
  · exact traced_push (l := { l with tokens := cut.after }) h rfl rfl
  · exact h

/-- An embedded line appends matches if its arguments do. -/
theorem traced_readEmbedded {e : Embedding} {l : Line} (h : Traced P l.history)
    (hinner : ∀ command arguments,
      (cutEmbedded e.terminators l.tokens).inner = command :: arguments →
      Traced P (l.pushCommand command).history →
      Traced P
        (run lookup (nested lookup (l.pushCommand command) command arguments) false).history) :
    Traced P (l.readEmbedded lookup e).history := by
  have hcommand : ∀ command, Traced P (l.pushCommand command).history := fun command =>
    traced_push h rfl rfl
  unfold readEmbedded
  dsimp only
  split
  · exact traced_resume h _
  · rename_i command _
    exact traced_resume (hcommand command) _
  · rename_i command argument arguments hcut
    exact traced_resume
      (l := (l.pushCommand command).absorb _) (hinner command _ hcut (hcommand command)) _

/-- The members of a grammar that is looked up. -/
theorem available_nested (hlookup : ∀ program g, lookup program = some g → ∀ m ∈ g.members, P m.spec)
    (l : Line) (command : Text) (arguments : List Text) :
    ∀ m ∈ (nested lookup l command arguments).available, P m.spec := by
  intro m hm
  unfold nested at hm
  cases hfound : lookup (programName command) with
  | none =>
    rw [hfound] at hm
    exact absurd hm List.not_mem_nil
  | some g =>
    rw [hfound] at hm
    exact hlookup _ g hfound m hm

/-- **Reading a line appends matches**, of specifications that were available or are members of a
grammar that was looked up. -/
theorem run_traced (hlookup : ∀ program g, lookup program = some g → ∀ m ∈ g.members, P m.spec)
    (l : Line) (ended : Bool) (havailable : ∀ m ∈ l.available, P m.spec)
    (h : Traced P l.history) : Traced P (run lookup l ended).history := by
  induction l, ended using run_induction lookup with
  | nil l ended hread =>
    rw [run_nil lookup l ended hread]
    exact h
  | cons l ended token rest hread hinner ih =>
    rw [run_cons lookup l ended token rest hread]
    have houtcome := step_outcome { l with tokens := rest } ended token
    generalize step { l with tokens := rest } ended token = s at *
    obtain ⟨block, hhistory, hmatch⟩ := houtcome.isMatch (P := P) havailable
    -- First the match of the word, then those of the embedded line, then those of the words left.
    have hstep : Traced P s.line.history := hhistory ▸ h.append hmatch
    refine ih ?_ ?_
    · rw [available_settled]
      exact fun m hm => havailable m (houtcome.available_subset hm)
    · unfold settled
      cases hembedded : s.embedded with
      | none => exact hstep
      | some e =>
        exact traced_readEmbedded hstep fun command arguments hcut hcommand =>
          hinner e command arguments hembedded hcut (available_nested hlookup _ _ _) hcommand

end Line

end CommandGrammar
