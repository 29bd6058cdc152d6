import CommandGrammar.Proofs.Availability
import CommandGrammar.Proofs.Joining

/-!
# Words that are spelled like an option

A word that is an option's spelling is read as that option as long as it is available. What a match
has removed is looked up no more: then the same word may carry a value for a shorter option, begin
with one as a cluster, or abbreviate a longer one. An available option can stand in for a removed
one in these three ways, and in no other.

* `Outcome.finds`: a word is recorded as the option that the lookups find;
* `flag?_or_standsIn_of_finds`: they find the option spelled so, or one that stands in for it;
* `spelling_of_written`: the latter happens only if the option spelled so was removed before;
* `removed_spelling_read_as_cluster`: then it does happen.
-/

namespace CommandGrammar

/-- Whether an option can stand in for a word that is not its spelling: the word carries a value for
it, begins with it as a cluster does, or abbreviates it. -/
def Spec.StandsIn (s : Spec) (word : Text) : Prop :=
  ∃ flag, s.flag? = some flag ∧
    ((s.takesValue = true ∧ s.style.acceptsInline = true ∧ flag ++ s.delimiter <+: word) ∨
      (∃ c, c ≠ '-' ∧ flag = ['-', c] ∧ flag <+: word) ∨
      (['-', '-'] <+: flag ∧ word <+: flag))

namespace Line

/-! ### What a word finds -/

/-- Whether the lookups find an option for a word. -/
def finds (l : Line) (token : Text) (m : Member) : Prop :=
  findOption l.available token l.tokens.isEmpty = .named m ∨
    (∃ value, carriesValue l token m value) ∨
    (findOption l.available token l.tokens.isEmpty = .miss ∧
      ∃ tail, splitCluster l.available token l.tokens.isEmpty = some (m, tail))

/-- If a word is recorded as an option, the lookups find this option. -/
theorem Outcome.finds {l : Line} {ended : Bool} {token : Text} {s : Step}
    (h : Outcome l ended token s) :
    ∃ records, s.line.history = l.history ++ records ∧
      ∀ r ∈ records, ∀ matched, r.member = some matched → matched.spec.isOption = true →
        l.finds token matched := by
  cases h with
  | marker => exact ⟨[l.markerRecord token], rfl, by simp [markerRecord]⟩
  | unknownOption => exact ⟨[l.unknownRecord .unknownOption token], rfl, by simp [unknownRecord]⟩
  | unknownOperand =>
    exact ⟨[l.unknownRecord .unknownPositional token], rfl, by simp [unknownRecord]⟩
  | named m words left _ hhit _ =>
    refine ⟨_, rfl, fun r hr matched hmatched _ => Or.inl ?_⟩
    have hmember : r.member = some m := by
      rcases List.mem_cons.1 hr with rfl | hr
      · rfl
      · exact (mem_valueRecords hr).2.2.1
    rw [hhit, Option.some.inj (hmember.symm.trans hmatched)]
  | inline m value words left _ hcarries _ _ _ _ _ =>
    refine ⟨_, rfl, fun r hr matched hmatched _ => Or.inr (Or.inl ⟨value, ?_⟩)⟩
    have hmember : r.member = some m := (mem_valueRecords hr).2.2.1
    rwa [← Option.some.inj (hmember.symm.trans hmatched)]
  | cluster m tail _ hmiss hcluster _ =>
    refine ⟨_, rfl, fun r hr matched hmatched _ => Or.inr (Or.inr ⟨hmiss, tail, ?_⟩)⟩
    rw [List.mem_singleton.1 hr] at hmatched
    rw [hcluster, Option.some.inj hmatched]
  | operand m words left _ hfirst _ =>
    refine ⟨_, rfl, fun r hr matched hmatched hoption => ?_⟩
    have hmember : r.member = some m := (mem_restRecords hr).2.2.1
    rw [← Option.some.inj (hmember.symm.trans hmatched), Spec.isOption_eq_not_isPositional,
      (firstPositional?_eq_some hfirst).2] at hoption
    exact absurd hoption Bool.false_ne_true

/-! ### What the lookups find for a spelling -/

/-- A flag that begins with a dash has no equals sign. -/
theorem cutAt?_eq_none_of_endsBefore {tail : Text} (h : Descriptor.EndsBefore ('-' :: tail)) :
    Text.cutAt? (· == '=') ('-' :: tail) = none := by
  have hall : ∀ c ∈ '-' :: tail, (!(c == '=')) = true := by
    refine List.forall_mem_cons.2 ⟨rfl, fun c hc => ?_⟩
    rw [Bool.not_eq_true', beq_eq_false_iff_ne]
    rintro rfl
    exact absurd (h '=' hc) (by decide)
  unfold Text.cutAt?
  rw [(Text.dropWhile_eq_nil_iff_all _ _).2 (List.all_eq_true.2 hall)]

section Lookups

variable {members : List Member} {token : Text} {isLast : Bool} {m : Member}

theorem exactly?_of_findOption_eq_miss (h : findOption members token isLast = .miss) :
    exactly? members token = none := by
  unfold findOption at h
  split at h
  · exact absurd h (by simp)
  · assumption

theorem flag?_or_standsIn_of_named (h : findOption members token isLast = .named m) :
    m.spec.flag? = some token ∨ (exactly? members token = none ∧ m.spec.StandsIn token) := by
  unfold findOption at h
  split at h
  · rename_i m' hexact
    rw [OptionHit.named.injEq] at h
    exact Or.inl (h ▸ (exactly?_eq_some hexact).2)
  · rename_i hexact
    refine Or.inr ⟨hexact, ?_⟩
    split at h
    · obtain ⟨-, flag, hflag, hlong⟩ := mem_abbreviated (abbreviation_named h)
      exact ⟨flag, hflag, Or.inr (Or.inr hlong)⟩
    · exact absurd h (by simp)
    · exact absurd h (by simp)

/-- A spelling has no equals sign that could end an abbreviation, so the option whose value it
carries stands at its beginning. -/
theorem standsIn_of_inline (hends : Descriptor.EndsBefore token) {value : Text}
    (h : findOption members token isLast = .inline m value) :
    exactly? members token = none ∧ m.spec.StandsIn token := by
  obtain ⟨hexact, ⟨-, hvalue⟩ | habbreviates⟩ := findOption_inline_cases h
  · obtain ⟨flag, hflag, htakes, hstyle, hword⟩ := inlineValue?_eq_some hvalue
    exact ⟨hexact, flag, hflag, Or.inl ⟨htakes, hstyle, value, hword.symm⟩⟩
  · obtain ⟨tail, rfl⟩ :=
      dashes_of_abbreviation (by rw [habbreviates]; exact fun hmiss => nomatch hmiss)
    obtain ⟨name, hcut, -⟩ := abbreviation_inline habbreviates
    have hnone := cutAt?_eq_none_of_endsBefore hends
    exact absurd (hcut.symm.trans hnone) (Option.some_ne_none _)

theorem standsIn_of_cluster {tail : Text}
    (h : splitCluster members token isLast = some (m, tail)) : m.spec.StandsIn token := by
  obtain ⟨c, hword, hdash, -, -, hflag, -⟩ := splitCluster_eq_some h
  exact ⟨['-', c], hflag, Or.inr (Or.inl ⟨c, hdash, rfl, tail, hword.symm⟩)⟩

end Lookups

/-- **What a spelling finds**: the option spelled so, or else, if none of that spelling is
available, one that stands in for it. -/
theorem flag?_or_standsIn_of_finds {l : Line} {token : Text} (hends : Descriptor.EndsBefore token)
    {m : Member} (h : l.finds token m) :
    m.spec.flag? = some token ∨
      (exactly? l.available token = none ∧ m.spec.StandsIn token) := by
  rcases h with hnamed | ⟨value, hinline | ⟨hmiss, hcluster⟩⟩ | ⟨hmiss, tail, hcluster⟩
  · exact flag?_or_standsIn_of_named hnamed
  · exact Or.inr (standsIn_of_inline hends hinline)
  · exact Or.inr ⟨exactly?_of_findOption_eq_miss hmiss, standsIn_of_cluster hcluster⟩
  · exact Or.inr ⟨exactly?_of_findOption_eq_miss hmiss, standsIn_of_cluster hcluster⟩

/-! ### On one level of a line -/

/-- **A word that is spelled like an option of a compiled grammar is read as that option.** A record
written for it is of no other option, unless a match before has removed the option spelled so; then
it may be of an option still available that stands in for it. Every word is read at some moment of
its level, but for those that a match takes with it, as values of its option or as operands. -/
theorem spelling_of_written {g : Grammar} (h : g.Compiled) {lookup : Text → Option Grammar}
    {tokens : List Text} {now : Moment}
    (hnow : Reaches lookup { tokens := tokens, available := g.members } now) {m : Member}
    (hm : m ∈ g.members) {token : Text} (hflag : m.spec.flag? = some token) :
    ∀ rest, now.line.tokens = token :: rest → ∀ r ∈ now.written token rest,
      ∀ matched, r.member = some matched → matched.spec.isOption = true →
        matched.spec.flag? = some token ∨
          (Removed now.own m.spec ∧ ¬ Removed now.own matched.spec ∧
            matched.spec.StandsIn token) := by
  intro rest _ r hr matched hmatched hoption
  have havailable : ∀ {s : Member}, s ∈ now.line.available ↔
      s ∈ g.members ∧ ¬ Removed now.own s.spec := by
    intro s
    rw [available_of_reaches hnow, List.mem_filter, decide_eq_true_iff]
  have hfound : finds { now.line with tokens := rest } token matched := by
    obtain ⟨records, hhistory, hfinds⟩ := (now.outcome token rest).finds
    exact hfinds r (Moment.written_eq hhistory ▸ hr) matched hmatched hoption
  rcases flag?_or_standsIn_of_finds ((h.joined m hm).flag token hflag) hfound with
    hspelled | ⟨hnone, hstands⟩
  · exact Or.inl hspelled
  · refine Or.inr ⟨?_, ?_, hstands⟩
    · by_contra hkept
      have hmiss := List.find?_eq_none.1 hnone m (havailable.2 ⟨hm, hkept⟩)
      exact hmiss (by simp [hflag])
    · rcases now.written_takes token rest with ⟨-, hmember, -⟩ | ⟨m', hm', -, -, hmember, -⟩
      · rw [hmember r hr] at hmatched
        exact absurd hmatched (by simp)
      · rw [hmember r hr, Option.some.injEq] at hmatched
        exact (havailable.1 (hmatched ▸ hm')).2

/-- A search tool with a short option and a longer one that begins like it. -/
def nameGrammar : Grammar :=
  .ofSpecs "find".toList
    [{ name := .flag "-n".toList },
      { name := .flag "-name".toList,
        actions := [{ metavar := "PATTERN".toList, source := .static 0 .files }] }] []

theorem nameGrammar_compiled : nameGrammar.Compiled := by
  have h : compileGrammar {} "find".toList
      [.option "-n".toList,
        { kind := .option, name := "-name".toList,
          actions := [{ metavar := "PATTERN".toList, source := .keyword .files }] }]
      = .ok nameGrammar := rfl
  exact Grammar.compiled_of_compileGrammar h

/-- The line on which the longer option is given twice. -/
def nameTwice : Line :=
  { tokens := ["-name".toList, "a".toList, "-name".toList], available := nameGrammar.members }

/-- At first the longer option is available. -/
theorem spelling_of_written_name :
    ∃ r ∈ Moment.written ⟨nameTwice, false, []⟩ "-name".toList ["a".toList, "-name".toList],
      ∃ matched, r.member = some matched ∧ matched.spec.flag? = some "-name".toList := by
  obtain ⟨m, hm, hflag⟩ : ∃ m ∈ nameGrammar.members, m.spec.flag? = some "-name".toList := by
    decide
  obtain ⟨r, hr, matched, hmatched, hoption⟩ :
      ∃ r ∈ Moment.written ⟨nameTwice, false, []⟩ "-name".toList ["a".toList, "-name".toList],
        ∃ matched ∈ r.member, matched.spec.isOption = true := by
    decide +kernel
  refine ⟨r, hr, matched, hmatched, ?_⟩
  have hstart : Reaches listLookup nameTwice ⟨nameTwice, false, []⟩ := .start
  have hread := spelling_of_written nameGrammar_compiled hstart hm hflag
    ["a".toList, "-name".toList] rfl r hr matched hmatched hoption
  exact hread.resolve_right fun hother => absurd hother.1 (by simp [Removed])

/-- Given again, it is read as a cluster that begins with the short one. -/
theorem removed_spelling_read_as_cluster :
    nameGrammar.Compiled ∧
      (∃ m ∈ nameGrammar.members, m.spec.flag? = some "-name".toList) ∧
      ∃ now, Reaches listLookup nameTwice now ∧ now.ended = false ∧
        now.line.tokens = ["-name".toList] ∧
        ∃ r ∈ now.written "-name".toList [], ∃ matched ∈ r.member,
          matched.spec.isOption = true ∧ matched.spec.flag? = some "-n".toList := by
  have hnow : Reaches listLookup nameTwice (Moment.next listLookup ⟨nameTwice, false, []⟩
      "-name".toList ["a".toList, "-name".toList]) := Reaches.start.word rfl
  refine ⟨nameGrammar_compiled, by decide, _, hnow, ?_, ?_, ?_⟩
  · rfl
  · decide +kernel
  · decide +kernel

end Line

end CommandGrammar
