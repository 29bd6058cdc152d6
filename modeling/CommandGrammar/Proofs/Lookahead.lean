import CommandGrammar.Proofs.Level

/-!
# Words that no match takes

A match may take some of the words that follow it. Of the first word that it leaves it has seen only
whether this word looks like an option, and of all others nothing but that they are there. If such a
word is exchanged for another that looks alike, everything before it is read as it was.

Two lines are `Exchanged` if one has another word in one place, with the same words after it; and a
word that was not taken is told by the weight of the words left.

* `step_exchanged`: one word that leaves the exchanged one alone;
* `readEmbedded_exchanged`: an embedded line that ends before the exchanged word;
* `reaches_exchanged`: all moments of a level up to the exchanged word.
-/

namespace CommandGrammar

namespace Line

/-- Whether a line differs from another in one word only, before the words `rest`. -/
def Exchanged (word other : Text) (rest : List Text) (l l' : Line) : Prop :=
  ∃ left, l.tokens = left ++ word :: rest ∧ l' = { l with tokens := left ++ other :: rest }

theorem Exchanged.history_eq {word other : Text} {rest : List Text} {l l' : Line}
    (h : l.Exchanged word other rest l') : l'.history = l.history := by
  obtain ⟨left, -, rfl⟩ := h
  rfl

/-- Whether two readings of a word lead to lines that differ in one word only. -/
structure ReadExchanged (word other : Text) (rest : List Text)
    (read read' : Line × Option Embedding) : Prop where
  line : Exchanged word other rest read.1 read'.1
  embedded : read'.2 = read.2

/-- Whether two steps lead to lines that differ in one word only. -/
structure Step.Exchanged (word other : Text) (rest : List Text) (s s' : Step) : Prop where
  line : Line.Exchanged word other rest s.line s'.line
  ended : s'.ended = s.ended
  embedded : s'.embedded = s.embedded

/-- The words before the exchanged one are not the last. -/
theorem isEmpty_before (before : List Text) (word : Text) (rest : List Text) :
    (before ++ word :: rest).isEmpty = false := by simp

section Exchanged

variable {word other : Text} {rest : List Text}
  (hlike : isFlagLike other rest.isEmpty = isFlagLike word rest.isEmpty)

/-! ### The words that a match takes -/

section Taking

include hlike

theorem takeValues_exchanged (m : Member) (occurrence : Nat) (actions : List Action) :
    ∀ (slot : Nat) (values before : List Text),
      weight (word :: rest)
        ≤ weight (takeValues m occurrence slot values actions (before ++ word :: rest)).2 →
      ∃ records left,
        takeValues m occurrence slot values actions (before ++ word :: rest)
          = (records, left ++ word :: rest) ∧
        takeValues m occurrence slot values actions (before ++ other :: rest)
          = (records, left ++ other :: rest) := by
  induction actions with
  | nil =>
    intro slot values before _
    exact ⟨[], before, by simp [takeValues], by simp [takeValues]⟩
  | cons action actions ih =>
    intro slot values before hleft
    cases before with
    | nil =>
      rw [List.nil_append, takeValues] at hleft ⊢
      have hsame : leavesOut m.spec other rest = leavesOut m.spec word rest := by
        unfold leavesOut
        rw [hlike]
      rw [List.nil_append, takeValues, hsame]
      split
      · exact ⟨[], [], rfl, rfl⟩
      · -- The word was taken, so too little is left.
        rename_i htakes
        rw [if_neg htakes] at hleft
        have htail := weight_takeValues m occurrence actions (slot + 1) (values ++ [word]) rest
        rw [weight_cons] at hleft
        dsimp only at hleft
        omega
    | cons next before =>
      rw [List.cons_append, takeValues] at hleft ⊢
      have hsame : leavesOut m.spec next (before ++ other :: rest)
          = leavesOut m.spec next (before ++ word :: rest) := by
        unfold leavesOut
        rw [isEmpty_before, isEmpty_before]
      rw [List.cons_append, takeValues, hsame]
      split
      · exact ⟨[], next :: before, rfl, rfl⟩
      · rename_i htakes
        rw [if_neg htakes] at hleft
        obtain ⟨records, left, heq, heq'⟩ := ih (slot + 1) (values ++ [next]) before hleft
        rw [heq, heq']
        exact ⟨_, left, rfl, rfl⟩

theorem takeRest_exchanged (ended : Bool) (m : Member) (occurrence : Nat) (before : List Text) :
    ∀ values : List Text,
      weight (word :: rest)
        ≤ weight (takeRest ended m occurrence values (before ++ word :: rest)).2 →
      ∃ records left,
        takeRest ended m occurrence values (before ++ word :: rest)
          = (records, left ++ word :: rest) ∧
        takeRest ended m occurrence values (before ++ other :: rest)
          = (records, left ++ other :: rest) := by
  induction before with
  | nil =>
    intro values hleft
    rw [List.nil_append, takeRest] at hleft ⊢
    rw [List.nil_append, takeRest, hlike]
    split
    · exact ⟨[], [], rfl, rfl⟩
    · rename_i htakes
      rw [if_neg htakes] at hleft
      have htail := weight_takeRest ended m occurrence rest (values ++ [word])
      rw [weight_cons] at hleft
      dsimp only at hleft
      omega
  | cons next before ih =>
    intro values hleft
    rw [List.cons_append, takeRest] at hleft ⊢
    rw [List.cons_append, takeRest, isEmpty_before, isEmpty_before]
    rw [isEmpty_before] at hleft
    split
    · exact ⟨[], next :: before, rfl, rfl⟩
    · rename_i htakes
      rw [if_neg htakes] at hleft
      obtain ⟨records, left, heq, heq'⟩ := ih (values ++ [next]) hleft
      rw [heq, heq']
      exact ⟨_, left, rfl, rfl⟩

theorem fillSlots_exchanged (l : Line) (m : Member) (occurrence : Nat) (values before : List Text)
    (hleft : weight (word :: rest) ≤ weight
      (fillSlots { l with tokens := before ++ word :: rest } m occurrence values).1.tokens) :
    ReadExchanged word other rest
      (fillSlots { l with tokens := before ++ word :: rest } m occurrence values)
      (fillSlots { l with tokens := before ++ other :: rest } m occurrence values) := by
  unfold fillSlots at hleft ⊢
  cases hembedded : m.spec.embedded with
  | some e => exact ⟨⟨before, rfl, rfl⟩, rfl⟩
  | none =>
    rw [hembedded] at hleft
    obtain ⟨records, left, heq, heq'⟩ := takeValues_exchanged hlike m occurrence
      (m.spec.actions.drop values.length) values.length values before hleft
    dsimp only
    rw [heq, heq']
    exact ⟨⟨left, rfl, rfl⟩, rfl⟩

/-! ### One word -/

variable (l : Line) (before : List Text)

theorem acceptNamed_exchanged (m : Member) (token : Text)
    (hleft : weight (word :: rest) ≤ weight
      (acceptNamed { l with tokens := before ++ word :: rest } m token).1.tokens) :
    ReadExchanged word other rest
      (acceptNamed { l with tokens := before ++ word :: rest } m token)
      (acceptNamed { l with tokens := before ++ other :: rest } m token) :=
  fillSlots_exchanged hlike
    { l with
      available := remaining l.available m.spec
      history := l.history ++ [nameRecord l m token] } m (nextOccurrence l.history) [] before hleft

theorem acceptInline_exchanged (m : Member) (value : Text)
    (hleft : weight (word :: rest) ≤ weight
      (acceptInline { l with tokens := before ++ word :: rest } m value).1.tokens) :
    ReadExchanged word other rest
      (acceptInline { l with tokens := before ++ word :: rest } m value)
      (acceptInline { l with tokens := before ++ other :: rest } m value) :=
  fillSlots_exchanged hlike
    { l with
      available := remaining l.available m.spec
      history := l.history ++ (m.spec.actions.take 1).map
        (valueRecord m (nextOccurrence l.history) 0 · [] value) }
    m (nextOccurrence l.history) [value] before hleft

theorem acceptCluster_exchanged (m : Member) (tail : Text)
    (hleft : weight (word :: rest) ≤ weight
      (acceptCluster { l with tokens := before ++ word :: rest } m tail).1.tokens) :
    ReadExchanged word other rest
      (acceptCluster { l with tokens := before ++ word :: rest } m tail)
      (acceptCluster { l with tokens := before ++ other :: rest } m tail) := by
  unfold acceptCluster at hleft ⊢
  split
  · rename_i htakes
    rw [if_pos htakes] at hleft
    exact acceptInline_exchanged hlike l before m tail hleft
  · rename_i htakes
    rw [if_neg htakes] at hleft
    exact acceptNamed_exchanged hlike l (('-' :: tail) :: before) m _ hleft

theorem acceptOperand_exchanged (ended : Bool) (m : Member) (token : Text)
    (hleft : weight (word :: rest) ≤ weight
      (acceptOperand { l with tokens := before ++ word :: rest } ended m token).1.tokens) :
    ReadExchanged word other rest
      (acceptOperand { l with tokens := before ++ word :: rest } ended m token)
      (acceptOperand { l with tokens := before ++ other :: rest } ended m token) := by
  unfold acceptOperand at hleft ⊢
  dsimp only at hleft ⊢
  cases hembedded : m.spec.embedded with
  | some e => exact ⟨⟨before, rfl, rfl⟩, rfl⟩
  | none =>
    rw [hembedded] at hleft
    dsimp only at hleft ⊢
    split
    · rename_i hunbounded
      rw [if_pos hunbounded] at hleft
      obtain ⟨records, left, heq, heq'⟩ := takeRest_exchanged hlike ended m
        (nextOccurrence l.history) before [token] hleft
      rw [heq, heq']
      exact ⟨⟨left, rfl, rfl⟩, rfl⟩
    · exact ⟨⟨before, rfl, rfl⟩, rfl⟩

omit hlike in
theorem acceptUnknown_exchanged (context : MatchContext) (token : Text) :
    ReadExchanged word other rest
      (acceptUnknown { l with tokens := before ++ word :: rest } context token)
      (acceptUnknown { l with tokens := before ++ other :: rest } context token) :=
  ⟨⟨before, rfl, rfl⟩, rfl⟩

theorem readOperand_exchanged (ended : Bool) (token : Text)
    (hleft : weight (word :: rest) ≤ weight
      (readOperand { l with tokens := before ++ word :: rest } ended token).1.tokens) :
    ReadExchanged word other rest
      (readOperand { l with tokens := before ++ word :: rest } ended token)
      (readOperand { l with tokens := before ++ other :: rest } ended token) := by
  unfold readOperand at hleft ⊢
  dsimp only at hleft ⊢
  cases hfirst : firstPositional? l.available with
  | some m =>
    rw [hfirst] at hleft
    exact acceptOperand_exchanged hlike l before ended m token hleft
  | none => exact acceptUnknown_exchanged l before .unknownPositional token

theorem readOption_exchanged (token : Text)
    (hleft : weight (word :: rest) ≤ weight
      (readOption { l with tokens := before ++ word :: rest } token).1.tokens) :
    ReadExchanged word other rest
      (readOption { l with tokens := before ++ word :: rest } token)
      (readOption { l with tokens := before ++ other :: rest } token) := by
  unfold readOption at hleft ⊢
  dsimp only at hleft ⊢
  rw [isEmpty_before] at hleft ⊢
  rw [isEmpty_before]
  cases hhit : findOption l.available token false with
  | named m =>
    rw [hhit] at hleft
    exact acceptNamed_exchanged hlike l before m token hleft
  | inline m value =>
    rw [hhit] at hleft
    exact acceptInline_exchanged hlike l before m value hleft
  | ambiguous => exact acceptUnknown_exchanged l before .unknownOption token
  | miss =>
    rw [hhit] at hleft
    dsimp only at hleft ⊢
    cases hcluster : splitCluster l.available token false with
    | some found =>
      rw [hcluster] at hleft
      exact acceptCluster_exchanged hlike l before found.1 found.2 hleft
    | none =>
      rw [hcluster] at hleft
      dsimp only at hleft ⊢
      split
      · exact acceptUnknown_exchanged l before .unknownOption token
      · rename_i hunlike
        rw [if_neg hunlike] at hleft
        exact readOperand_exchanged hlike l before false token hleft

/-- **A word that leaves the exchanged one alone** is read as before. -/
theorem step_exchanged (ended : Bool) (token : Text)
    (hleft : weight (word :: rest) ≤ weight
      (step { l with tokens := before ++ word :: rest } ended token).line.tokens) :
    (step { l with tokens := before ++ word :: rest } ended token).Exchanged word other rest
      (step { l with tokens := before ++ other :: rest } ended token) := by
  unfold step at hleft ⊢
  dsimp only at hleft ⊢
  rw [isEmpty_before] at hleft ⊢
  rw [isEmpty_before]
  split
  · exact ⟨⟨before, rfl, rfl⟩, rfl, rfl⟩
  · rename_i hmarker
    rw [if_neg hmarker] at hleft
    split
    · rename_i htries
      rw [if_pos htries] at hleft
      have hread := readOption_exchanged hlike l before token hleft
      exact ⟨hread.line, rfl, hread.embedded⟩
    · rename_i htries
      rw [if_neg htries] at hleft
      have hread := readOperand_exchanged hlike l before ended token hleft
      exact ⟨hread.line, rfl, hread.embedded⟩

end Taking

/-! ### Embedded lines -/

theorem cutEmbedded_exchanged (terminators before : List Text)
    (hleft : weight (word :: rest)
      ≤ weight (cutEmbedded terminators (before ++ word :: rest)).after) :
    ∃ inner terminator left,
      cutEmbedded terminators (before ++ word :: rest)
        = ⟨inner, terminator, left ++ word :: rest⟩ ∧
      cutEmbedded terminators (before ++ other :: rest)
        = ⟨inner, terminator, left ++ other :: rest⟩ := by
  induction before with
  | nil =>
    -- Whatever is cut here, the word is not among what is left.
    have hcut := weight_cutEmbedded terminators rest
    rw [List.nil_append, cutEmbedded] at hleft
    split at hleft
    · rw [weight_cons] at hleft
      dsimp only at hleft
      omega
    · rw [weight_cons] at hleft
      dsimp only at hleft
      omega
  | cons next before ih =>
    rw [List.cons_append, cutEmbedded, isEmpty_before] at hleft ⊢
    rw [List.cons_append, cutEmbedded, isEmpty_before]
    split
    · exact ⟨[], some next, before, rfl, rfl⟩
    · rename_i hgoes
      rw [if_neg hgoes] at hleft
      obtain ⟨inner, terminator, left, heq, heq'⟩ := ih hleft
      rw [heq, heq']
      exact ⟨next :: inner, terminator, left, rfl, rfl⟩

theorem resume_exchanged (l : Line) (inner : List Text) (terminator : Option Text)
    (left tokens tokens' : List Text) :
    Exchanged word other rest
      (resume { l with tokens := tokens } ⟨inner, terminator, left ++ word :: rest⟩)
      (resume { l with tokens := tokens' } ⟨inner, terminator, left ++ other :: rest⟩) := by
  cases terminator with
  | none => exact ⟨left, rfl, rfl⟩
  | some token => exact ⟨left, rfl, rfl⟩

/-- **An embedded line that ends before the exchanged word** is read as before. -/
theorem readEmbedded_exchanged (lookup : Text → Option Grammar) (e : Embedding) {l l' : Line}
    (h : Exchanged word other rest l l')
    (hleft : weight (word :: rest) ≤ weight (l.readEmbedded lookup e).tokens) :
    Exchanged word other rest (l.readEmbedded lookup e) (l'.readEmbedded lookup e) := by
  obtain ⟨before, htokens, rfl⟩ := h
  rw [tokens_readEmbedded, htokens] at hleft
  obtain ⟨inner, terminator, left, heq, heq'⟩ :=
    @cutEmbedded_exchanged word other rest e.terminators before hleft
  unfold readEmbedded
  dsimp only
  rw [htokens, heq, heq']
  dsimp only
  split
  · exact resume_exchanged l _ _ _ l.tokens _
  · rename_i command
    exact resume_exchanged (l.pushCommand command) _ _ _ l.tokens _
  · rename_i command argument arguments
    exact resume_exchanged ((l.pushCommand command).absorb
      (run lookup (nested lookup (l.pushCommand command) command (argument :: arguments)) false))
      _ _ _ l.tokens _

/-- A step that leaves the exchanged word alone leads on to lines that differ in it only. -/
theorem settled_exchanged (lookup : Text → Option Grammar) {s s' : Step}
    (h : s.Exchanged word other rest s')
    (hleft : weight (word :: rest) ≤ weight (settled lookup s).tokens) :
    Exchanged word other rest (settled lookup s) (settled lookup s') := by
  unfold settled at hleft ⊢
  rw [h.embedded]
  cases hembedded : s.embedded with
  | none => exact h.line
  | some e =>
    rw [hembedded] at hleft
    exact readEmbedded_exchanged lookup e h.line hleft

/-! ### One level -/

include hlike in
/-- **Up to the exchanged word a level is read as before**: it goes through the same moments, but
for this word, which is still to be read. -/
theorem reaches_exchanged {lookup : Text → Option Grammar} {start : Line} {before : List Text}
    {now : Moment} (h : Reaches lookup { start with tokens := before ++ word :: rest } now) :
    weight (word :: rest) ≤ weight now.line.tokens →
      ∃ left, now.line.tokens = left ++ word :: rest ∧
        Reaches lookup { start with tokens := before ++ other :: rest }
          { now with line := { now.line with tokens := left ++ other :: rest } } := by
  induction h with
  | start => exact fun _ => ⟨before, rfl, .start⟩
  | @word now token tokens _ hread ih =>
    intro hleft
    have hsettled := weight_settled lookup (now.reading token tokens)
    have hread' : weight (settled lookup (now.reading token tokens)).tokens
        < weight now.line.tokens := by
      rw [hread]
      exact Nat.lt_of_le_of_lt hsettled (weight_step _ now.ended token)
    obtain ⟨left, htokens, hreaches⟩ := ih (Nat.le_of_lt (Nat.lt_of_le_of_lt hleft hread'))
    cases left with
    | nil =>
      -- The exchanged word itself would have been read.
      rw [htokens] at hread'
      exact absurd hleft (Nat.not_le.2 hread')
    | cons next left =>
      rw [List.cons_append] at htokens hreaches
      obtain ⟨rfl, rfl⟩ := List.cons.inj (hread.symm.trans htokens)
      have hstep := step_exchanged hlike now.line left now.ended token
        (Nat.le_trans hleft hsettled)
      obtain ⟨left', htokens', hline⟩ := settled_exchanged lookup hstep hleft
      refine ⟨left', htokens', ?_⟩
      have hnext := hreaches.word rfl
      unfold Moment.next Moment.written Moment.reading at hnext
      dsimp only at hnext
      rw [hline, hstep.ended, hstep.line.history_eq] at hnext
      exact hnext

end Exchanged

end Line

end CommandGrammar
