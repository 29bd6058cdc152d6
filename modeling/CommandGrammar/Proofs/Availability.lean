import CommandGrammar.Completion.Resolve
import CommandGrammar.Proofs.Level

/-!
# What is available on a line

A match takes specifications away: the matched one and its other spellings, unless it may be used
again, and everything it excludes. `Removes` says which, without a word about lists, and `Removed`
says the same of all matches among some records.

At every moment of a level, what is available is what was available at its beginning without the
specifications removed so far. Whatever is matched next is taken from there, and a word that nobody
knows is completed with exactly the options left. An exclusion of all options therefore is final.
-/

namespace CommandGrammar

/-! ### What matches remove -/

/-- Whether a match of one specification removes another: it may not be used again and they are
spellings of the same option or one slot, or it excludes the other one. -/
def Spec.Removes (matched s : Spec) : Prop :=
  (matched.repeatable = false ∧ matched.isUnbounded = false ∧
      (s.name = matched.name ∨ ∃ flag ∈ matched.aliases, s.flag? = some flag)) ∨
    ∃ e ∈ matched.excludes, e.covers s = true

/-- Whether the matches among some records have removed a specification. -/
def Removed (records : List Record) (s : Spec) : Prop :=
  ∃ r ∈ records, ∃ m ∈ r.member, m.spec.Removes s

instance (matched s : Spec) : Decidable (matched.Removes s) :=
  inferInstanceAs (Decidable ((_ ∧ _ ∧ (_ ∨ ∃ flag ∈ matched.aliases, s.flag? = some flag)) ∨
    ∃ e ∈ matched.excludes, e.covers s = true))

instance (records : List Record) (s : Spec) : Decidable (Removed records s) :=
  inferInstanceAs (Decidable (∃ r ∈ records, ∃ m ∈ r.member, m.spec.Removes s))

theorem removed_append {records records' : List Record} {s : Spec} :
    Removed (records ++ records') s ↔ Removed records s ∨ Removed records' s := by
  constructor
  · rintro ⟨r, hr, hremoves⟩
    rcases List.mem_append.1 hr with hr | hr
    · exact Or.inl ⟨r, hr, hremoves⟩
    · exact Or.inr ⟨r, hr, hremoves⟩
  · rintro (⟨r, hr, hremoves⟩ | ⟨r, hr, hremoves⟩)
    · exact ⟨r, List.mem_append_left _ hr, hremoves⟩
    · exact ⟨r, List.mem_append_right _ hr, hremoves⟩

/-- Records without a specification remove nothing. -/
theorem not_removed_of_member_none {records : List Record} {s : Spec}
    (h : ∀ r ∈ records, r.member = none) : ¬ Removed records s := by
  rintro ⟨r, hr, m, hm, -⟩
  rw [h r hr] at hm
  exact absurd hm (by simp)

/-- The records of one match remove what the matched specification removes. -/
theorem removed_iff_of_member {records : List Record} {m : Member} {s : Spec}
    (hne : records ≠ []) (h : ∀ r ∈ records, r.member = some m) :
    Removed records s ↔ m.spec.Removes s := by
  constructor
  · rintro ⟨r, hr, m', hm', hremoves⟩
    rw [h r hr, Option.mem_some] at hm'
    rwa [hm']
  · intro hremoves
    obtain ⟨r, hr⟩ := List.exists_mem_of_ne_nil records hne
    exact ⟨r, hr, m, h r hr, hremoves⟩

/-- The values that a slot offers for the beginning of a word. -/
def Action.offers (host : Host) (stub : Text) (a : Action) : List Text :=
  ((Completion.providerOf a.source).complete host stub).map Candidate.value

/-- The spellings of the options among some members. -/
def flagsOf (members : List Member) : List Text := members.filterMap fun m => m.spec.flag?

namespace Line

theorem isSpellingOf_iff {matched s : Spec} :
    isSpellingOf matched s = true ↔
      s.name = matched.name ∨ ∃ flag ∈ matched.aliases, s.flag? = some flag := by
  unfold isSpellingOf
  cases s.flag? <;> simp

theorem staysAfter_iff {matched s : Spec} :
    staysAfter matched s = true ↔ ¬ matched.Removes s := by
  unfold staysAfter Spec.Removes
  rw [← isSpellingOf_iff]
  simp only [Bool.and_eq_true, Bool.or_eq_true, Bool.not_eq_true', List.any_eq_false]
  constructor
  · rintro ⟨hkeeps, hexcludes⟩ (⟨hrepeat, hunbounded, hspelling⟩ | ⟨e, he, hcovers⟩)
    · simp [hrepeat, hunbounded, hspelling] at hkeeps
    · exact hexcludes e he hcovers
  · intro h
    refine ⟨?_, fun e he hcovers => h (Or.inr ⟨e, he, hcovers⟩)⟩
    cases hunbounded : matched.isUnbounded
    · cases hrepeat : matched.repeatable
      · cases hspelling : isSpellingOf matched s
        · exact Or.inr rfl
        · exact absurd (Or.inl ⟨hrepeat, hunbounded, hspelling⟩) h
      · exact Or.inl (Or.inr rfl)
    · exact Or.inl (Or.inl rfl)

/-- The completions of a word that nobody knows are the options available. -/
theorem offers_catchAll (host : Host) (stub : Text) (members : List Member) :
    (catchAll members).offers host stub
      = (flagsOf members).filter (Text.startsWith stub) := by
  unfold Action.offers catchAll flagsOf
  dsimp only [Completion.providerOf, Provider.complete]
  induction members with
  | nil => rfl
  | cons m members ih =>
    cases hflag : m.spec.flag? with
    | none => simpa [hflag] using ih
    | some flag =>
      cases hstub : Text.startsWith stub flag <;> simpa [hflag, hstub, Candidate.withNote] using ih

/-! ### One word -/

/-- **What a word takes.** Either it matches nothing: then nothing becomes unavailable, its record
bears the word itself for a name, and what is unknown offers what is available. Or it matches one of the available specifications: then all its
records are of this specification. -/
theorem Outcome.takes {l : Line} {ended : Bool} {token : Text} {s : Step}
    (h : Outcome l ended token s) :
    ∃ records, s.line.history = l.history ++ records ∧
      ((s.line.available = l.available ∧ (∀ r ∈ records, r.member = none) ∧
          (∀ r ∈ records, r.name = r.stub) ∧
          ∀ r ∈ records, r.context.isUnknown = true → r.action = catchAll l.available) ∨
        ∃ m ∈ l.available, s.line.available = remaining l.available m.spec ∧ records ≠ [] ∧
          (∀ r ∈ records, r.member = some m) ∧ ∀ r ∈ records, r.context.isUnknown = false) := by
  cases h with
  | marker =>
    refine ⟨[l.markerRecord token], rfl, Or.inl ⟨rfl, ?_, ?_, ?_⟩⟩
    · simp [markerRecord]
    · simp [markerRecord]
    · simp [markerRecord, MatchContext.isUnknown]
  | unknownOption =>
    refine ⟨[l.unknownRecord .unknownOption token], rfl, Or.inl ⟨rfl, ?_, ?_, ?_⟩⟩
    · simp [unknownRecord]
    · simp [unknownRecord]
    · simp [unknownRecord]
  | unknownOperand =>
    refine ⟨[l.unknownRecord .unknownPositional token], rfl, Or.inl ⟨rfl, ?_, ?_, ?_⟩⟩
    · simp [unknownRecord]
    · simp [unknownRecord]
    · simp [unknownRecord]
  | named m words left _ hhit _ =>
    refine ⟨_, rfl, Or.inr ⟨m, (findOption_named hhit).1, rfl, List.cons_ne_nil _ _, ?_, ?_⟩⟩
    · intro r hr
      rcases List.mem_cons.1 hr with rfl | hr
      · rfl
      · exact (mem_valueRecords hr).2.2.1
    · intro r hr
      rcases List.mem_cons.1 hr with rfl | hr
      · rfl
      · rw [(mem_valueRecords hr).1]
        rfl
  | inline m value words left _ _ hm _ htakes _ _ =>
    obtain ⟨action, actions, hactions⟩ := List.exists_cons_of_ne_nil (Spec.takesValue_iff.1 htakes)
    refine ⟨_, rfl, Or.inr ⟨m, hm, rfl, ?_, ?_, ?_⟩⟩
    · rw [hactions]
      exact List.cons_ne_nil _ _
    · exact fun r hr => (mem_valueRecords hr).2.2.1
    · intro r hr
      rw [(mem_valueRecords hr).1]
      rfl
  | cluster m rest _ _ hcluster _ =>
    obtain ⟨c, -, -, -, hm, -, -⟩ := splitCluster_eq_some hcluster
    refine ⟨_, rfl, Or.inr ⟨m, hm, rfl, List.cons_ne_nil _ _, ?_, ?_⟩⟩
    · simp [nameRecord]
    · simp [nameRecord, MatchContext.isUnknown]
  | operand m words left _ hfirst _ =>
    refine ⟨_, rfl, Or.inr ⟨m, (firstPositional?_eq_some hfirst).1, rfl,
      List.cons_ne_nil _ _, ?_, ?_⟩⟩
    · exact fun r hr => (mem_restRecords hr).2.2.1
    · intro r hr
      rw [(mem_restRecords hr).1]
      rfl

theorem Moment.written_takes (now : Moment) (token : Text) (rest : List Text) :
    ((now.reading token rest).line.available = now.line.available ∧
        (∀ r ∈ now.written token rest, r.member = none) ∧
        ∀ r ∈ now.written token rest, r.context.isUnknown = true →
          r.action = catchAll now.line.available) ∨
      ∃ m ∈ now.line.available,
        (now.reading token rest).line.available = remaining now.line.available m.spec ∧
          now.written token rest ≠ [] ∧ (∀ r ∈ now.written token rest, r.member = some m) ∧
          ∀ r ∈ now.written token rest, r.context.isUnknown = false := by
  obtain ⟨records, hhistory, htakes⟩ := (now.outcome token rest).takes
  rw [Moment.written_eq hhistory]
  exact htakes.imp_left fun ⟨havailable, hnone, _, haction⟩ => ⟨havailable, hnone, haction⟩

/-! ### One level -/

/-- **What is available at a moment of a level.** -/
theorem available_of_reaches {lookup : Text → Option Grammar} {start : Line} {now : Moment}
    (h : Reaches lookup start now) :
    now.line.available
      = start.available.filter fun m => decide (¬ Removed now.own m.spec) := by
  induction h with
  | start =>
    refine (List.filter_eq_self.2 fun m _ => ?_).symm
    simp [Removed]
  | @word now token rest _ _ ih =>
    -- The embedded line that the word may open takes nothing from this level.
    rw [Moment.next, available_settled]
    rcases now.written_takes token rest with ⟨havailable, hnone, -⟩ |
      ⟨m, -, havailable, hne, hmember, -⟩
    · rw [havailable, ih]
      refine List.filter_congr fun s _ => ?_
      simp only [removed_append, not_removed_of_member_none hnone, or_false]
    · rw [havailable, ih, remaining, List.filter_filter]
      refine List.filter_congr fun s _ => ?_
      rw [Bool.eq_iff_iff, Bool.and_eq_true, staysAfter_iff, decide_eq_true_iff,
        decide_eq_true_iff, removed_append, removed_iff_of_member hne hmember, not_or, and_comm]

/-- Once all options are excluded, none is available. -/
theorem isOption_eq_false_of_excluded {lookup : Text → Option Grammar} {start : Line} {now : Moment}
    (h : Reaches lookup start now)
    (hexcluded : ∃ r ∈ now.own, ∃ m ∈ r.member, .allOptions ∈ m.spec.excludes) :
    ∀ m ∈ now.line.available, m.spec.isOption = false := by
  obtain ⟨r, hr, matched, hmatched, hexcludes⟩ := hexcluded
  intro m hm
  rw [available_of_reaches h, List.mem_filter, decide_eq_true_iff] at hm
  rw [Bool.eq_false_iff]
  intro hoption
  exact hm.2 ⟨r, hr, matched, hmatched, Or.inr ⟨.allOptions, hexcludes, hoption⟩⟩

/-- **Availability on one level.** At every moment of a level, what is available is what was
available at its beginning, in the same order, without what the matches of this level have removed.
A record that the next word writes is of an available specification if it is of any, and offers
exactly the available options if the word is unknown. Once a match has excluded all options, no
record is of an option and none offers one. -/
theorem level_availability {lookup : Text → Option Grammar} {start : Line} {now : Moment}
    (h : Reaches lookup start now) :
    now.line.available
        = start.available.filter (fun m => decide (¬ Removed now.own m.spec)) ∧
      ∀ token rest, now.line.tokens = token :: rest → ∀ r ∈ now.written token rest,
        (∀ m ∈ r.member, m ∈ now.line.available) ∧
        (r.context.isUnknown = true → ∀ host stub,
          r.action.offers host stub
            = (flagsOf now.line.available).filter (Text.startsWith stub)) ∧
        ((∃ earlier ∈ now.own, ∃ m ∈ earlier.member, .allOptions ∈ m.spec.excludes) →
          (∀ m ∈ r.member, m.spec.isOption = false) ∧
          (r.context.isUnknown = true → ∀ host stub, r.action.offers host stub = [])) := by
  refine ⟨available_of_reaches h, ?_⟩
  intro token rest _ r hr
  have hmember : ∀ m ∈ r.member, m ∈ now.line.available := by
    intro m hm
    rcases now.written_takes token rest with ⟨-, hnone, -⟩ | ⟨m', hm', -, -, hmember, -⟩
    · rw [hnone r hr] at hm
      exact absurd hm (by simp)
    · rw [hmember r hr, Option.mem_some] at hm
      rwa [← hm]
  have hoffers : r.context.isUnknown = true → ∀ host stub,
      r.action.offers host stub = (flagsOf now.line.available).filter (Text.startsWith stub) := by
    intro hunknown host stub
    rcases now.written_takes token rest with ⟨-, -, haction⟩ | ⟨m', -, -, -, -, hknown⟩
    · rw [haction r hr hunknown, offers_catchAll]
    · rw [hknown r hr] at hunknown
      exact absurd hunknown (by simp)
  refine ⟨hmember, hoffers, fun hexcluded => ?_⟩
  have hnone := isOption_eq_false_of_excluded h hexcluded
  refine ⟨fun m hm => hnone m (hmember m hm), fun hunknown host stub => ?_⟩
  have hflags : flagsOf now.line.available = [] := by
    refine List.filterMap_eq_nil_iff.2 fun m hm => ?_
    have := hnone m hm
    rwa [Spec.isOption, Option.isSome_eq_false_iff, Option.isNone_iff_eq_none] at this
  rw [hoffers hunknown, hflags]
  rfl

/-- A line whose first option excludes all others, before a word that looks like an option. -/
def exclusiveLine : Line where
  tokens := ["--version".toList, "-x".toList]
  available :=
    [⟨⟨"tool".toList, 0, 0⟩, { name := .flag "--version".toList, excludes := [.allOptions] }⟩,
      ⟨⟨"tool".toList, 0, 1⟩, { name := .flag "-x".toList }⟩,
      ⟨⟨"tool".toList, 0, 2⟩, { name := .positional .rest, actions := [{}] }⟩]

/-- The moment after its first option. -/
def exclusiveMoment : Moment :=
  Moment.next (fun _ => none) ⟨exclusiveLine, false, []⟩ "--version".toList ["-x".toList]

theorem level_availability_exclusive :
    Reaches (fun _ => none) exclusiveLine exclusiveMoment ∧
      exclusiveMoment.line.available = exclusiveLine.available.drop 2 ∧
      ∀ r ∈ exclusiveMoment.written "-x".toList [],
        r.context = .unknownOption ∧ ∀ host stub, r.action.offers host stub = [] := by
  have h : Reaches (fun _ => none) exclusiveLine exclusiveMoment := .word .start rfl
  obtain ⟨havailable, hword⟩ := level_availability h
  have hexcluded :
      ∃ earlier ∈ exclusiveMoment.own, ∃ m ∈ earlier.member, .allOptions ∈ m.spec.excludes := by
    decide
  refine ⟨h, havailable.trans (by decide), fun r hr => ?_⟩
  have hunknown : ∀ r ∈ exclusiveMoment.written "-x".toList [], r.context = .unknownOption := by
    decide
  have hoffers := ((hword _ _ rfl r hr).2.2 hexcluded).2
  rw [hunknown r hr] at hoffers
  exact ⟨hunknown r hr, hoffers rfl⟩

end Line

end CommandGrammar
