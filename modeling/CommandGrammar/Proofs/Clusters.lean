import CommandGrammar.Proofs.Interchange

/-!
# A cluster is its flags, one by one

The flags of short options without values may be written in one word, with one dash in front of all
of them: `-xvf` is `-x -v -f`. A cluster loses its first letter and goes back to the words that are
still to be read, where every rule for words applies to it again. So it has to be missed by the
other rules at each of its letters, and each letter has to name an option that is still available
when its turn comes; `Clusters` says just this. Then the cluster is read as the words it stands for.

* `step_cluster`, `step_letter`: one letter of a cluster, and the same letter as a word of its own;
* `run_cluster`: the whole word, by induction on its letters.
-/

namespace CommandGrammar

namespace Line

/-- Whether the letters of a word name options without values that hand nothing over, each of them
still available after the ones before it. In front of every letter the rest of the word, with a dash
of its own, is missed by the lookups of a whole word; and if no word follows, it does not begin the
spelling of an available option. -/
inductive Clusters (tail : Text) (isLast : Bool) : List Member → List Char → Prop
  | nil {members : List Member} : Clusters tail isLast members []
  | cons {members : List Member} {c : Char} {letters : List Char} {m : Member} (hdash : c ≠ '-')
      (hexact : exactly? members ['-', c] = some m) (hvalueless : m.spec.takesValue = false)
      (hplain : m.spec.embedded = none)
      (hmiss : findOption members ('-' :: c :: (letters ++ tail)) isLast = .miss)
      (hgrown : isLast = true → ∀ other ∈ members, ∀ flag, other.spec.flag? = some flag →
        ¬ '-' :: c :: (letters ++ tail) <+: flag)
      (hletters : Clusters tail isLast (remaining members m.spec) letters) :
      Clusters tail isLast members (c :: letters)

/-- The letters of a cluster and its tail never begin with a dash. -/
theorem Clusters.head?_ne {tail : Text} {isLast : Bool} {members : List Member}
    {letters : List Char} (h : Clusters tail isLast members letters)
    (htail : tail.head? ≠ some '-') : (letters ++ tail).head? ≠ some '-' := by
  cases h with
  | nil => exact htail
  | cons hdash => exact fun heq => hdash (Option.some.inj heq)

/-! ### One letter -/

theorem growsIntoFlag_eq_false {members : List Member} {token : Text}
    (h : ∀ m ∈ members, ∀ flag, m.spec.flag? = some flag → ¬ token <+: flag) :
    growsIntoFlag members token = false := by
  refine List.any_eq_false.2 fun m hm => ?_
  cases hflag : m.spec.flag? with
  | none => exact Bool.false_ne_true
  | some flag => exact fun hstarts => h m hm flag hflag (Text.startsWith_iff.1 hstarts)

/-- A word with one dash is split behind its first letter, if that names an option without values,
no dash follows it, and the word is not on its way to some spelling. -/
theorem splitCluster_of_exactly {members : List Member} {c : Char} {rest : Text} {isLast : Bool}
    {m : Member} (hdash : c ≠ '-') (hrest : rest ≠ []) (hhead : rest.head? ≠ some '-')
    (hgrown : isLast = true → growsIntoFlag members ('-' :: c :: rest) = false)
    (hexact : exactly? members ['-', c] = some m) :
    splitCluster members ('-' :: c :: rest) isLast = some (m, rest) := by
  obtain ⟨next, rest, rfl⟩ := List.exists_cons_of_ne_nil hrest
  have hgrows : (isLast && growsIntoFlag members ('-' :: c :: next :: rest)) = false := by
    cases isLast with
    | false => rfl
    | true => exact hgrown rfl
  have hnext : (next == '-') = false := beq_eq_false_iff_ne.2 fun heq => hhead (heq ▸ rfl)
  unfold splitCluster
  simp [hdash, hgrows, hexact, hnext]

section Letter

variable {l : Line} {c : Char} {m : Member} (hdash : c ≠ '-')
  (hexact : exactly? l.available ['-', c] = some m) (hvalueless : m.spec.takesValue = false)
  (hplain : m.spec.embedded = none)

include hdash hexact hvalueless hplain

/-- A letter of a cluster is matched, and the rest of the cluster is put back. -/
theorem step_cluster {rest : Text} (hrest : rest ≠ []) (hhead : rest.head? ≠ some '-')
    (hmiss : findOption l.available ('-' :: c :: rest) l.tokens.isEmpty = .miss)
    (hgrown : l.tokens.isEmpty = true → growsIntoFlag l.available ('-' :: c :: rest) = false) :
    step l false ('-' :: c :: rest)
      = ⟨l.matched m (('-' :: rest) :: l.tokens) [nameRecord l m ['-', c]], false, none⟩ := by
  have hmarker : '-' :: c :: rest ≠ endOfOptions := by
    rintro heq
    exact hdash (List.cons.inj (List.cons.inj heq).2).1
  have hsplit := splitCluster_of_exactly hdash hrest hhead hgrown hexact
  have hwants : wantsOption l.available (isFlagLike ('-' :: c :: rest) l.tokens.isEmpty) = true :=
    rfl
  rw [step_eq_readOption (Or.inl hmarker) hwants, readOption_cluster hmiss hsplit,
    acceptCluster_of_not_takesValue l m rest hvalueless, (exactly?_eq_some hexact).2, hplain]
  rfl

/-- The same letter as a word of its own is matched alike, and no word is put back. -/
theorem step_letter :
    step l false ['-', c] = ⟨l.matched m l.tokens [nameRecord l m ['-', c]], false, none⟩ := by
  have hdashed : Dashed ['-', c] :=
    ⟨rfl, by simp, fun heq => hdash (List.cons.inj (List.cons.inj heq).2).1⟩
  obtain ⟨words, left, htaken, haccept⟩ := acceptNamed_eq l m ['-', c]
  rw [Spec.takesValue_eq_false_iff.1 hvalueless, hplain] at haccept
  rw [Spec.takesValue_eq_false_iff.1 hvalueless] at htaken
  have hwords : words = [] := List.length_eq_zero_iff.1 (Nat.le_zero.1 htaken.fits)
  have hleft : left = l.tokens := by rw [htaken.split, hwords, List.nil_append]
  rw [step_named hdashed hexact, haccept, hleft, valueRecords_nil_left]

end Letter

/-! ### The whole word -/

/-- **A cluster is read as its flags.** Let the letters of a word name options without values one
after the other, so that the lookups miss the word in front of each of them, and let something else
than a dash follow. Then a line with this word is read, to its end, as the line with a word for
every letter and one for what follows them: with the same records under the same numbers, and with
the same specifications left. -/
theorem run_cluster (lookup : Text → Option Grammar) {l : Line} {letters : List Char} {tail : Text}
    {rest : List Text} (htail : tail ≠ []) (hdash : tail.head? ≠ some '-')
    (h : Clusters tail rest.isEmpty l.available letters) :
    run lookup { l with tokens := ('-' :: (letters ++ tail)) :: rest } false
      = run lookup
          { l with tokens := letters.map (fun c => ['-', c]) ++ ('-' :: tail) :: rest } false := by
  generalize hmembers : l.available = members at h
  induction h generalizing l with
  | nil => rfl
  | @cons members c letters m hletter hexact hvalueless hplain hmiss hgrown hletters ih =>
    subst hmembers
    have hmore : letters ++ tail ≠ [] := List.append_ne_nil_of_right_ne_nil letters htail
    have hstep := step_cluster (l := { l with tokens := rest }) hletter hexact hvalueless hplain
      hmore (hletters.head?_ne hdash) hmiss fun hlast => growsIntoFlag_eq_false (hgrown hlast)
    have hstep' := step_letter
      (l := { l with tokens := letters.map (fun c => ['-', c]) ++ ('-' :: tail) :: rest })
      hletter hexact hvalueless hplain
    -- Both lines are now the one after the match of the letter, with other words on it.
    rw [List.cons_append, List.map_cons, List.cons_append, run_cons lookup _ false _ _ rfl,
      run_cons lookup _ false _ _ rfl, hstep, hstep']
    exact ih (l := l.matched m [] [nameRecord l m ['-', c]]) rfl

/-- A command with two options without values, and one that names a file. -/
def archiveGrammar : Grammar :=
  .ofSpecs "tar".toList
    [{ name := .flag "-x".toList },
      { name := .flag "-v".toList },
      { name := .flag "-f".toList,
        actions := [{ metavar := "FILE".toList, source := .static 0 .files }] }] []

/-- The last letter of the cluster names the option whose value is the next word. -/
theorem run_cluster_archive :
    Clusters ['f'] false archiveGrammar.members ['x', 'v'] ∧
      run listLookup
          { tokens := ["-xvf".toList, "a.tar".toList], available := archiveGrammar.members } false
        = run listLookup
            { tokens := ["-x".toList, "-v".toList, "-f".toList, "a.tar".toList]
              available := archiveGrammar.members } false := by
  have hletters : Clusters ['f'] false archiveGrammar.members ['x', 'v'] :=
    .cons (by decide) rfl rfl rfl (by decide) nofun
      (.cons (by decide) rfl rfl rfl (by decide) nofun .nil)
  let start : Line := { tokens := [], available := archiveGrammar.members }
  have hread := @run_cluster listLookup start ['x', 'v'] ['f'] ["a.tar".toList]
    (List.cons_ne_nil 'f' []) (by decide) hletters
  exact ⟨hletters, hread⟩

end Line

end CommandGrammar
