import CommandGrammar.Proofs.Compiled
import CommandGrammar.Proofs.Pause

/-!
# Words are read in the order they come

A settled word leads from one pause to the next, whatever the words after it are. This is
`Pause.exists_reads` for one word and `Pause.exists_readsAll` for several; the records written up
to a pause are those of the words before it.

* `parse_causal`: the records of a line are those of its first words, whatever follows them, and
  then those of the words that follow;
* `parse_last_word`: a line that ends with a word and one that goes on after it differ in the
  records of this word at most, and only if it begins with a dash.

The induction for one word is on its length, as a cluster puts the rest of itself back. All of this
is about lines on which no specification hands words over to another command: the last word of an
embedded line is read as the last word there is, even if the outer line goes on.
-/

namespace CommandGrammar

namespace Line

namespace Pause

/-! ### From one pause to the next -/

/-- A word leads from one pause to another: it is recorded in between, and all that follows it is
read from there, if it is settled. -/
structure Reads (p : Pause) (word : Text) (p' : Pause) : Prop where
  records : ∃ group, p'.line.history = p.line.history ++ group ∧ Accounts word group
  goOn_eq : ∀ lookup rest, Settled word rest → p.goOn lookup (word :: rest) = p'.goOn lookup rest
  regular : p'.Regular

/-- The pending slots take a settled word whatever follows it. -/
theorem takes_of_settled {p : Pause} {word : Text} {rest : List Text} (h : Settled word rest) :
    p.takes word rest.isEmpty = p.takes word false := by
  unfold takes
  rw [h.isFlagLike_eq]

/-- A word that a pending slot takes leads to the pause with that slot filled. -/
theorem Reads.of_takes {p : Pause} (h : p.Regular) {word : Text}
    (htakes : p.takes word false = true) : p.Reads word (p.filled word) where
  records := by
    obtain ⟨r, hhistory, hstub, -⟩ := history_filled htakes
    exact ⟨[r], hhistory, .single r (Or.inl hstub)⟩
  goOn_eq := by
    intro lookup rest hrest
    rw [goOn, goOn, supplied_of_takes ((takes_of_settled hrest).trans htakes), ended_filled]
  regular := h.filled word

/-- A word that no pending slot takes leads to where it leads if nothing is pending. -/
theorem Reads.of_idle {p p' : Pause} {word : Text} (h : p.idle.Reads word p')
    (htakes : p.takes word false = false) : p.Reads word p' where
  records := h.records
  goOn_eq := by
    intro lookup rest hrest
    rw [← h.goOn_eq lookup rest hrest, goOn,
      supplied_of_not_takes ((takes_of_settled hrest).trans htakes)]
    rfl
  regular := h.regular

/-- A step that is the same whatever follows the word leads to the pause it ends in. -/
theorem Reads.of_step {l : Line} {ended : Bool} {word : Text} {p' : Pause} {r : Record}
    (hregular : p'.Regular) (hhistory : p'.line.history = l.history ++ [r])
    (hcovers : r.Covers word)
    (hstep : ∀ rest, Settled word rest →
      step { l with tokens := rest } ended word = ⟨p'.supplied rest, p'.ended, none⟩) :
    Reads ⟨l, ended, .nothing⟩ word p' where
  records := ⟨[r], hhistory, .single r hcovers⟩
  goOn_eq := by
    intro lookup rest hrest
    have hread := run_cons lookup { l with tokens := word :: rest } ended word rest rfl
    rw [hstep rest hrest] at hread
    exact hread
  regular := hregular

/-! ### The pause after a match -/

def afterName (l : Line) (ended : Bool) (m : Member) (token : Text) : Pause where
  line :=
    { l with
      available := remaining l.available m.spec
      history := l.history ++ [nameRecord l m token] }
  ended := ended
  pending := .values m (nextOccurrence l.history) 0 [] m.spec.actions

/-- The pause after an option with its first value, for which it has a slot. -/
def afterInline (l : Line) (ended : Bool) (m : Member) (action : Action) (value : Text) :
    Pause where
  line :=
    { l with
      available := remaining l.available m.spec
      history := l.history ++ [valueRecord m (nextOccurrence l.history) 0 action [] value] }
  ended := ended
  pending := .values m (nextOccurrence l.history) 1 [value] (m.spec.actions.drop 1)

def afterOperand (l : Line) (ended : Bool) (m : Member) (token : Text) : Pause where
  line :=
    { l with
      available := remaining l.available m.spec
      history := l.history ++ [operandRecord m (nextOccurrence l.history) 0 [] token] }
  ended := ended
  pending :=
    if m.spec.isUnbounded then .operands m (nextOccurrence l.history) [token] else .nothing

section Matches

variable {l : Line} (ended : Bool) {m : Member} {token : Text} (tokens : List Text)

theorem acceptNamed_eq_supplied (h : m.spec.embedded = none) :
    acceptNamed { l with tokens := tokens } m token
      = ((afterName l ended m token).supplied tokens, none) := by
  unfold acceptNamed fillSlots
  rw [h]
  rfl

theorem acceptInline_eq_supplied (h : m.spec.embedded = none) {action : Action}
    {actions : List Action} (hactions : m.spec.actions = action :: actions) (value : Text) :
    acceptInline { l with tokens := tokens } m value
      = ((afterInline l ended m action value).supplied tokens, none) := by
  unfold acceptInline fillSlots
  rw [h, hactions]
  simp only [supplied, afterInline, hactions]
  rfl

theorem acceptOperand_eq_supplied (h : m.spec.embedded = none) :
    acceptOperand { l with tokens := tokens } ended m token
      = ((afterOperand l ended m token).supplied tokens, none) := by
  unfold acceptOperand
  rw [h]
  dsimp only
  cases hunbounded : m.spec.isUnbounded with
  | true =>
    simp only [supplied, afterOperand, hunbounded, if_true]
  | false =>
    simp only [supplied, afterOperand, hunbounded, Bool.false_eq_true, if_false]

variable {ended} (h : Regular ⟨l, ended, .nothing⟩)

include h

theorem Regular.afterName : (afterName l ended m token).Regular :=
  h.append List.filter_sublist.subset (by simp [nameRecord, Record.isMarker]) l.tokens _

theorem Regular.afterInline {action : Action} {value : Text} :
    (afterInline l ended m action value).Regular :=
  h.append List.filter_sublist.subset (by simp [valueRecord, Record.isMarker]) l.tokens _

theorem Regular.afterOperand : (afterOperand l ended m token).Regular :=
  h.append List.filter_sublist.subset (by simp [operandRecord, Record.isMarker]) l.tokens _

end Matches

/-! ### Reading a settled word -/

section Words

variable {l : Line} {ended : Bool} {word : Text} (h : Regular ⟨l, ended, .nothing⟩)

include h

theorem exists_reads_unknown (context : MatchContext) (hunknown : context.isUnknown = true)
    (hstep : ∀ rest, Settled word rest → step { l with tokens := rest } ended word
      = ⟨(acceptUnknown { l with tokens := rest } context word).1, ended, none⟩) :
    ∃ p', Reads ⟨l, ended, .nothing⟩ word p' := by
  have hmarker : (l.unknownRecord context word).isMarker = false := by
    cases context with
    | unknownOption => rfl
    | unknownPositional => rfl
    | option => exact absurd hunknown Bool.false_ne_true
    | positional => exact absurd hunknown Bool.false_ne_true
  refine ⟨⟨l.push (l.unknownRecord context word), ended, .nothing⟩,
    .of_step (h.push hmarker _) rfl (Or.inl rfl) fun rest hrest => ?_⟩
  rw [hstep rest hrest]
  rfl

theorem exists_reads_inline {m : Member} {value : Text} (hm : m ∈ l.available)
    (htakes : m.spec.takesValue = true) (hsuffix : value <:+ word)
    (hstep : ∀ rest, Settled word rest → step { l with tokens := rest } ended word
      = ⟨(acceptInline { l with tokens := rest } m value).1, ended,
        (acceptInline { l with tokens := rest } m value).2⟩) :
    ∃ p', Reads ⟨l, ended, .nothing⟩ word p' := by
  obtain ⟨action, actions, hactions⟩ := List.exists_cons_of_ne_nil (Spec.takesValue_iff.1 htakes)
  refine ⟨afterInline l ended m action value,
    .of_step h.afterInline rfl (Or.inr ⟨rfl, hsuffix⟩) fun rest hrest => ?_⟩
  rw [hstep rest hrest, acceptInline_eq_supplied ended rest (h.plain m hm) hactions]
  rfl

theorem exists_reads_operand
    (hstep : ∀ rest, Settled word rest → step { l with tokens := rest } ended word
      = ⟨(readOperand { l with tokens := rest } ended word).1, ended,
        (readOperand { l with tokens := rest } ended word).2⟩) :
    ∃ p', Reads ⟨l, ended, .nothing⟩ word p' := by
  unfold readOperand at hstep
  dsimp only at hstep
  cases hfirst : firstPositional? l.available with
  | none =>
    rw [hfirst] at hstep
    exact exists_reads_unknown h .unknownPositional rfl hstep
  | some m =>
    rw [hfirst] at hstep
    dsimp only at hstep
    have hplain := h.plain m (firstPositional?_eq_some hfirst).1
    refine ⟨afterOperand l ended m word, .of_step h.afterOperand rfl (Or.inl rfl)
      fun rest hrest => ?_⟩
    rw [hstep rest hrest, acceptOperand_eq_supplied ended rest hplain]
    rfl

/-- A cluster leads to where the word put back leads from the pause after its first flag. -/
theorem reads_cluster {m : Member} {c : Char} {tail : Text} {p' : Pause}
    (hword : word = '-' :: c :: tail) (hne : tail ≠ []) (hm : m ∈ l.available)
    (hflag : m.spec.flag? = some ['-', c]) (htakes : m.spec.takesValue = false)
    (hstep : ∀ rest, Settled word rest → step { l with tokens := rest } ended word
      = ⟨(acceptCluster { l with tokens := rest } m tail).1, ended,
        (acceptCluster { l with tokens := rest } m tail).2⟩)
    (hp' : (afterName l ended m (m.spec.flag?.getD [])).idle.Reads ('-' :: tail) p') :
    Reads ⟨l, ended, .nothing⟩ word p' where
  records := by
    obtain ⟨group, hhistory, hgroup⟩ := hp'.records
    have hstub : (nameRecord l m (m.spec.flag?.getD [])).stub = ['-', c] := by
      rw [hflag]
      rfl
    refine ⟨nameRecord l m (m.spec.flag?.getD []) :: group, ?_, ?_⟩
    · rw [hhistory]
      exact List.append_assoc _ [_] group
    · rw [hword]
      exact hgroup.flag hne hstub rfl
  goOn_eq := by
    intro lookup rest hrest
    have hread := run_cons lookup { l with tokens := word :: rest } ended word rest rfl
    have hcluster : acceptCluster { l with tokens := rest } m tail
        = acceptNamed { l with tokens := ('-' :: tail) :: rest } m (m.spec.flag?.getD []) := by
      unfold acceptCluster
      rw [if_neg (by simp [htakes])]
    have hactions : m.spec.actions = [] := Spec.takesValue_eq_false_iff.1 htakes
    have hidle : (afterName l ended m (m.spec.flag?.getD [])).takes ('-' :: tail) rest.isEmpty
        = false := by
      simp [takes, afterName, hactions]
    rw [hstep rest hrest, hcluster,
      acceptNamed_eq_supplied ended (('-' :: tail) :: rest) (h.plain m hm),
      supplied_of_not_takes hidle] at hread
    have hsettled : rest ≠ [] := hrest.resolve_right (by simp [hword, isFlagLike])
    rw [← hp'.goOn_eq lookup rest (Or.inl hsettled)]
    exact hread
  regular := hp'.regular

/-- A cluster leads to a pause if all shorter words do: the word put back is one. -/
theorem exists_reads_cluster {m : Member} {tail : Text}
    (hcluster : splitCluster l.available word false = some (m, tail))
    (hstep : ∀ rest, Settled word rest → step { l with tokens := rest } ended word
      = ⟨(acceptCluster { l with tokens := rest } m tail).1, ended,
        (acceptCluster { l with tokens := rest } m tail).2⟩)
    (hshorter : ∀ (l' : Line) (word' : Text), word'.length < word.length →
      Regular ⟨l', ended, .nothing⟩ → ∃ p', Reads ⟨l', ended, .nothing⟩ word' p') :
    ∃ p', Reads ⟨l, ended, .nothing⟩ word p' := by
  obtain ⟨c, hword, -, hne, hm, hflag, -⟩ := splitCluster_eq_some hcluster
  cases htakes : m.spec.takesValue with
  | true =>
    have hsuffix : tail <:+ word := by
      rw [hword]
      exact List.suffix_append ['-', c] tail
    refine exists_reads_inline h hm htakes hsuffix fun rest hrest => ?_
    rw [hstep rest hrest]
    unfold acceptCluster
    rw [if_pos htakes]
  | false =>
    have hlength : ('-' :: tail).length < word.length := by simp [hword]
    obtain ⟨p', hp'⟩ := hshorter _ _ hlength h.afterName.idle
    exact ⟨p', reads_cluster h hword hne hm hflag htakes hstep hp'⟩

/-- A word that is tried as an option leads to a pause if all shorter words do. -/
theorem exists_reads_option
    (hstep : ∀ rest, Settled word rest → step { l with tokens := rest } ended word
      = ⟨(readOption { l with tokens := rest } word).1, ended,
        (readOption { l with tokens := rest } word).2⟩)
    (hended : ended = false)
    (hshorter : ∀ (l' : Line) (word' : Text), word'.length < word.length →
      Regular ⟨l', ended, .nothing⟩ → ∃ p', Reads ⟨l', ended, .nothing⟩ word' p') :
    ∃ p', Reads ⟨l, ended, .nothing⟩ word p' := by
  cases hhit : findOption l.available word false with
  | named m =>
    refine ⟨afterName l ended m word, .of_step h.afterName rfl (Or.inl rfl) fun rest hrest => ?_⟩
    rw [hstep rest hrest, readOption_named ((hrest.findOption_eq _).trans hhit),
      acceptNamed_eq_supplied ended rest (h.plain m (findOption_named hhit).1)]
    rfl
  | inline m value =>
    obtain ⟨hm, -, htakes, hsuffix⟩ := findOption_inline hhit
    refine exists_reads_inline h hm htakes hsuffix fun rest hrest => ?_
    rw [hstep rest hrest, readOption_inline ((hrest.findOption_eq _).trans hhit)]
  | ambiguous =>
    refine exists_reads_unknown h .unknownOption rfl fun rest hrest => ?_
    rw [hstep rest hrest, readOption_ambiguous ((hrest.findOption_eq _).trans hhit)]
    rfl
  | miss =>
    cases hcluster : splitCluster l.available word false with
    | none =>
      cases hlike : isFlagLike word false with
      | true =>
        refine exists_reads_unknown h .unknownOption rfl fun rest hrest => ?_
        rw [hstep rest hrest, readOption_unknown ((hrest.findOption_eq _).trans hhit)
          ((hrest.splitCluster_eq _).trans hcluster) (hrest.isFlagLike_eq.trans hlike)]
        rfl
      | false =>
        refine exists_reads_operand h fun rest hrest => ?_
        rw [hstep rest hrest, readOption_operand ((hrest.findOption_eq _).trans hhit)
          ((hrest.splitCluster_eq _).trans hcluster) (hrest.isFlagLike_eq.trans hlike), hended]
    | some found =>
      obtain ⟨m, tail⟩ := found
      refine exists_reads_cluster h hcluster (fun rest hrest => ?_) hshorter
      rw [hstep rest hrest, readOption_cluster ((hrest.findOption_eq _).trans hhit)
        ((hrest.splitCluster_eq _).trans hcluster)]

end Words

/-- **Every settled word leads to a pause**, from a pause with nothing pending. -/
theorem exists_reads_of_idle (word : Text) : ∀ {l : Line} {ended : Bool},
    Regular ⟨l, ended, .nothing⟩ → ∃ p', Reads ⟨l, ended, .nothing⟩ word p' := by
  induction hlength : word.length using Nat.strongRecOn generalizing word with
  | _ n ih =>
    intro l ended h
    by_cases hmarker : (!ended && word == endOfOptions) = true
    · refine ⟨⟨l.push (l.markerRecord word), true, .nothing⟩,
        .of_step ⟨h.plain, ?_⟩ rfl (Or.inl rfl) fun rest hrest => ?_⟩
      · exact iff_of_true rfl ⟨l.markerRecord word, List.mem_append_right _ (by simp), rfl⟩
      · have hends := (hrest.endsOptions_eq ended).trans hmarker
        unfold step
        simp only [hends]
        rfl
    · by_cases htries : (!ended && wantsOption l.available (isFlagLike word false)) = true
      · have hended : ended = false := by
          rw [Bool.and_eq_true] at htries
          simpa using htries.1
        refine exists_reads_option h (fun rest hrest => ?_) hended fun l' word' hshorter h' =>
          ih word'.length (hlength ▸ hshorter) word' rfl h'
        unfold step
        simp only [hrest.isFlagLike_eq, hmarker, htries]
        rfl
      · refine exists_reads_operand h fun rest hrest => ?_
        unfold step
        simp only [hrest.isFlagLike_eq, hmarker, htries]
        rfl

/-- **Every settled word leads to a pause.** -/
theorem exists_reads {p : Pause} (h : p.Regular) (word : Text) : ∃ p', p.Reads word p' := by
  cases htakes : p.takes word false with
  | true => exact ⟨p.filled word, .of_takes h htakes⟩
  | false =>
    obtain ⟨p', hp'⟩ := exists_reads_of_idle word h.idle
    exact ⟨p', hp'.of_idle htakes⟩

/-! ### Reading the first words of a line -/

/-- Some words lead from one pause to another: they are recorded in between, and all that follows
them, if anything does, is read from there. -/
structure ReadsAll (p : Pause) (words : List Text) (p' : Pause) : Prop where
  records : ∃ groups, p'.line.history = p.line.history ++ groups.flatten ∧
    List.Forall₂ Accounts words groups
  goOn_eq : ∀ lookup rest, rest ≠ [] → p.goOn lookup (words ++ rest) = p'.goOn lookup rest
  regular : p'.Regular

theorem ReadsAll.nil {p : Pause} (h : p.Regular) : p.ReadsAll [] p :=
  ⟨⟨[], (List.append_nil _).symm, .nil⟩, fun _ _ _ => rfl, h⟩

theorem ReadsAll.cons {p p' p'' : Pause} {word : Text} {words : List Text}
    (h : p.Reads word p') (hwords : p'.ReadsAll words p'') : p.ReadsAll (word :: words) p'' where
  records := by
    obtain ⟨group, hhistory, hgroup⟩ := h.records
    obtain ⟨groups, hhistory', hgroups⟩ := hwords.records
    refine ⟨group :: groups, ?_, .cons hgroup hgroups⟩
    rw [hhistory', hhistory, List.flatten_cons, List.append_assoc]
  goOn_eq := by
    intro lookup rest hrest
    have hsettled : Settled word (words ++ rest) :=
      Or.inl (List.append_ne_nil_of_right_ne_nil words hrest)
    rw [List.cons_append, h.goOn_eq lookup _ hsettled, hwords.goOn_eq lookup rest hrest]
  regular := hwords.regular

/-- **The first words of a line lead to a pause**, whatever follows them. -/
theorem exists_readsAll (words : List Text) :
    ∀ {p : Pause}, p.Regular → ∃ p', p.ReadsAll words p' := by
  induction words with
  | nil => exact fun {p} h => ⟨p, .nil h⟩
  | cons word words ih =>
    intro p h
    obtain ⟨p', hword⟩ := exists_reads h word
    obtain ⟨p'', hwords⟩ := ih hword.regular
    exact ⟨p'', .cons hword hwords⟩

/-- The pause before the first word of a line. -/
def start (available : List Member) : Pause :=
  ⟨{ tokens := [], available := available }, false, .nothing⟩

theorem Regular.start {available : List Member} (h : Plain available) :
    (start available).Regular :=
  ⟨h, iff_of_false Bool.false_ne_true fun ⟨_, hr, _⟩ => absurd hr List.not_mem_nil⟩

section Start

variable {available : List Member} {words : List Text} {p : Pause}
  (h : (start available).ReadsAll words p)

include h

/-- What is recorded up to a pause accounts for the words before it. -/
theorem ReadsAll.history_eq :
    ∃ groups, p.line.history = groups.flatten ∧ List.Forall₂ Accounts words groups := h.records

/-- A line is read from the pause after its first words. -/
theorem ReadsAll.parse_eq (lookup : Text → Option Grammar) {rest : List Text}
    (hrest : rest ≠ []) : parse lookup (words ++ rest) available = p.goOn lookup rest :=
  h.goOn_eq lookup rest hrest

end Start

end Pause

/-- **Causality.** Some words that begin a line have records of their own, one group for every
word, and whatever follows them: all that the line records besides are the records of the words
that follow. -/
theorem parse_causal {available : List Member} (h : Plain available) (words : List Text) :
    ∃ groups, List.Forall₂ Accounts words groups ∧ ∀ lookup rest, rest ≠ [] →
      ∃ groups', (parse lookup (words ++ rest) available).history
          = groups.flatten ++ groups'.flatten ∧ List.Forall₂ Accounts rest groups' := by
  obtain ⟨p, hp⟩ := Pause.exists_readsAll words (Pause.Regular.start h)
  obtain ⟨groups, hhistory, hgroups⟩ := hp.history_eq
  refine ⟨groups, hgroups, fun lookup rest hrest => ?_⟩
  obtain ⟨groups', hhistory', hgroups'⟩ := p.accounted_goOn lookup rest
  refine ⟨groups', ?_, hgroups'⟩
  rw [hp.parse_eq lookup hrest, hhistory', hhistory]

/-- An option, a lone dash and two dashes with a word after them. -/
theorem parse_causal_list :
    Plain listGrammar.members ∧ ∃ groups,
      List.Forall₂ Accounts ["-a".toList, ['-'], "--".toList] groups ∧
      ∃ groups', (parse listLookup ["-a".toList, ['-'], "--".toList, "-a".toList]
          listGrammar.members).history = groups.flatten ++ groups'.flatten ∧
        List.Forall₂ Accounts ["-a".toList] groups' := by
  have h : Plain listGrammar.members := by unfold Plain; decide
  obtain ⟨groups, hgroups, hrest⟩ := parse_causal h ["-a".toList, ['-'], "--".toList]
  exact ⟨h, groups, hgroups, hrest listLookup ["-a".toList] (List.cons_ne_nil _ _)⟩

/-- **The last word of a line.** A line that ends with a word and the lines that go on after it
record the same for all words before it. They may differ in the records of the word itself, unless
it begins with no dash. -/
theorem parse_last_word (lookup : Text → Option Grammar) {available : List Member}
    (h : Plain available) (words : List Text) (last : Text) :
    ∃ groups opened closed, List.Forall₂ Accounts words groups ∧
      Accounts last opened ∧ Accounts last closed ∧
      (parse lookup (words ++ [last]) available).history = groups.flatten ++ opened ∧
      (∀ rest, rest ≠ [] → ∃ groups',
        (parse lookup (words ++ last :: rest) available).history
            = groups.flatten ++ closed ++ groups'.flatten ∧ List.Forall₂ Accounts rest groups') ∧
      (isFlagLike last true = false → opened = closed) := by
  obtain ⟨p, hp⟩ := Pause.exists_readsAll words (Pause.Regular.start h)
  obtain ⟨p', hp'⟩ := Pause.exists_reads hp.regular last
  obtain ⟨groups, hwords, hgroups⟩ := hp.history_eq
  obtain ⟨closed, hlast, hclosed⟩ := hp'.records
  rw [hwords] at hlast
  obtain ⟨openGroups, hopen, hopened⟩ := p.accounted_goOn lookup [last]
  obtain ⟨opened, rfl⟩ : ∃ opened, openGroups = [opened] :=
    List.length_eq_one_iff.1 hopened.length_eq.symm
  rw [List.flatten_singleton, hwords] at hopen
  refine ⟨groups, opened, closed, hgroups, (List.forall₂_cons.1 hopened).1, hclosed, ?_,
    fun rest hrest => ?_, fun hdash => ?_⟩
  · rw [hp.parse_eq lookup (List.cons_ne_nil _ _), hopen]
  · obtain ⟨groups', hrecords, hgroups'⟩ := p'.accounted_goOn lookup rest
    refine ⟨groups', ?_, hgroups'⟩
    rw [hp.parse_eq lookup (List.cons_ne_nil _ _), hp'.goOn_eq lookup rest (Or.inl hrest),
      hrecords, hlast]
  · -- Such a word is settled even at the end of a line: its records are those up to `p'`.
    rw [hp'.goOn_eq lookup [] (Or.inr hdash), Pause.goOn_nil] at hopen
    exact List.append_cancel_left (hopen.symm.trans hlast)

end Line

end CommandGrammar
