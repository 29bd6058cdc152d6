import CommandGrammar.Proofs.Accounting

/-!
# Pauses between two words

A match looks ahead: the slots of an option and the slot of the rest of the line take words that
follow. Yet a word is read for good as soon as one more word follows it, and a word that begins
with no dash is read for good at once: it is `Settled`. What is known at that moment is a `Pause`:
the line without its words, and the slots that may take the next word.

* `Pause.supplied_of_takes`, `Pause.supplied_of_not_takes`: the pending slots take a word, or leave
  it to the line;
* `Pause.accounted_goOn`: what is recorded after a pause accounts for the words after it;
* `Pause.Regular`: what all pauses of a line have in common that hands no words over.
-/

namespace CommandGrammar

/-- Whether a record is of the word that ended the options: of the records in an option context it
is the only one without a specification. -/
def Record.isMarker (r : Record) : Bool := r.context == .option && r.member.isNone

theorem Record.isMarker_of_member {r : Record} {m : Member} (h : r.member = some m) :
    r.isMarker = false := by
  unfold isMarker
  rw [h]
  exact Bool.and_false _

namespace Line

/-- Whether no specification on a line hands words over to another command. -/
def Plain (members : List Member) : Prop := ∀ m ∈ members, m.spec.embedded = none

/-! ### Settled words -/

/-- Whether a word is read for good: another one follows it, or it does not look like an option
even while it is being completed. -/
def Settled (word : Text) (rest : List Text) : Prop :=
  rest ≠ [] ∨ isFlagLike word true = false

/-- A settled word without a word after it begins with no dash. -/
theorem Settled.cases {word : Text} {rest : List Text} (h : Settled word rest) :
    rest.isEmpty = false ∨ ∀ tail, word ≠ '-' :: tail := by
  rcases h with hrest | hlike
  · exact Or.inl (List.isEmpty_eq_false_iff.2 hrest)
  · refine Or.inr fun tail hword => ?_
    rw [hword] at hlike
    simp [isFlagLike] at hlike

/-- Only words that begin with a dash are read differently while they are being completed. -/
theorem isFlagLike_of_no_dash {word : Text} (h : ∀ tail, word ≠ '-' :: tail) (isLast : Bool) :
    isFlagLike word isLast = false := by
  unfold isFlagLike
  split
  · exact absurd rfl (h _)
  · rfl

theorem abbreviation_of_no_dash {members : List Member} {word : Text}
    (h : ∀ tail, word ≠ '-' :: tail) (isLast : Bool) :
    abbreviation members word isLast = .miss := by
  have hstarts : Text.startsWith ['-', '-'] word = false := by
    rw [Bool.eq_false_iff]
    intro hstarts
    obtain ⟨tail, hword⟩ := Text.startsWith_iff.1 hstarts
    exact h ('-' :: tail) hword.symm
  unfold abbreviation
  rw [hstarts]
  rfl

theorem splitCluster_of_no_dash {members : List Member} {word : Text}
    (h : ∀ tail, word ≠ '-' :: tail) (isLast : Bool) : splitCluster members word isLast = none := by
  unfold splitCluster
  split
  · exact absurd rfl (h _)
  · rfl

section Settled

variable {word : Text} {rest : List Text} (h : Settled word rest)

include h

theorem Settled.isFlagLike_eq : isFlagLike word rest.isEmpty = isFlagLike word false := by
  rcases h.cases with hrest | hdash
  · rw [hrest]
  · rw [isFlagLike_of_no_dash hdash, isFlagLike_of_no_dash hdash]

theorem Settled.findOption_eq (members : List Member) :
    findOption members word rest.isEmpty = findOption members word false := by
  rcases h.cases with hrest | hdash
  · rw [hrest]
  · unfold findOption
    rw [abbreviation_of_no_dash hdash, abbreviation_of_no_dash hdash]

theorem Settled.splitCluster_eq (members : List Member) :
    splitCluster members word rest.isEmpty = splitCluster members word false := by
  rcases h.cases with hrest | hdash
  · rw [hrest]
  · rw [splitCluster_of_no_dash hdash, splitCluster_of_no_dash hdash]

theorem Settled.endsOptions_eq (ended : Bool) :
    (!ended && word == endOfOptions && !rest.isEmpty) = (!ended && word == endOfOptions) := by
  rcases h.cases with hrest | hdash
  · rw [hrest, Bool.not_false, Bool.and_true]
  · have hword : (word == endOfOptions) = false := beq_eq_false_iff_ne.2 (hdash _)
    rw [hword, Bool.and_false, Bool.false_and]

end Settled

/-! ### A word as an option -/

section ReadOption

variable {l : Line} {token : Text}

theorem readOption_named {m : Member}
    (h : findOption l.available token l.tokens.isEmpty = .named m) :
    readOption l token = acceptNamed l m token := by
  unfold readOption
  simp only [h]

theorem readOption_inline {m : Member} {value : Text}
    (h : findOption l.available token l.tokens.isEmpty = .inline m value) :
    readOption l token = acceptInline l m value := by
  unfold readOption
  simp only [h]

theorem readOption_ambiguous
    (h : findOption l.available token l.tokens.isEmpty = .ambiguous) :
    readOption l token = acceptUnknown l .unknownOption token := by
  unfold readOption
  simp only [h]

variable (hmiss : findOption l.available token l.tokens.isEmpty = .miss)

include hmiss

theorem readOption_cluster {m : Member} {tail : Text}
    (hcluster : splitCluster l.available token l.tokens.isEmpty = some (m, tail)) :
    readOption l token = acceptCluster l m tail := by
  unfold readOption
  simp only [hmiss, hcluster]

theorem readOption_unknown
    (hcluster : splitCluster l.available token l.tokens.isEmpty = none)
    (hlike : isFlagLike token l.tokens.isEmpty = true) :
    readOption l token = acceptUnknown l .unknownOption token := by
  unfold readOption
  simp only [hmiss, hcluster, hlike, if_true]

theorem readOption_operand
    (hcluster : splitCluster l.available token l.tokens.isEmpty = none)
    (hlike : isFlagLike token l.tokens.isEmpty = false) :
    readOption l token = readOperand l false token := by
  unfold readOption
  simp only [hmiss, hcluster, hlike, Bool.false_eq_true, if_false]

end ReadOption

/-! ### Pauses -/

/-- What a match may still take from the words that follow. -/
inductive Pending
  | nothing
  /-- Words for the value slots `actions` of an option, the first of them at the place `slot`. -/
  | values (m : Member) (occurrence slot : Nat) (values : List Text) (actions : List Action)
  /-- Words for the slot of the rest, after some others. -/
  | operands (m : Member) (occurrence : Nat) (values : List Text)

/-- A line that was read up to some word and has not seen the next one. -/
structure Pause where
  line : Line
  /-- Whether the options have ended. -/
  ended : Bool
  pending : Pending

namespace Pause

/-- The line with the words that follow, when the pending slots have taken theirs. -/
def supplied (p : Pause) (tokens : List Text) : Line :=
  match p.pending with
  | .nothing => { p.line with tokens := tokens }
  | .values m occurrence slot values actions =>
    let (records, left) := takeValues m occurrence slot values actions tokens
    { p.line with tokens := left, history := p.line.history ++ records }
  | .operands m occurrence values =>
    let (records, left) := takeRest p.ended m occurrence values tokens
    { p.line with tokens := left, history := p.line.history ++ records }

/-- The reading of the words that follow. -/
def goOn (lookup : Text → Option Grammar) (p : Pause) (tokens : List Text) : Line :=
  run lookup (p.supplied tokens) p.ended

/-- The pause with nothing pending. -/
def idle (p : Pause) : Pause := { p with pending := .nothing }

/-- Whether the pending slots take a word. -/
def takes (p : Pause) (word : Text) (isLast : Bool) : Bool :=
  match p.pending with
  | .nothing => false
  | .values m _ _ _ actions =>
    !actions.isEmpty
      && !(m.spec.valueOptional && (m.spec.style == .inline || isFlagLike word isLast))
  | .operands .. => !(!p.ended && isFlagLike word isLast)

/-- The pause after a word in a pending slot. -/
def filled (p : Pause) (word : Text) : Pause :=
  match p.pending with
  | .values m occurrence slot values (action :: actions) =>
    { p with
      line := p.line.push (valueRecord m occurrence slot action values word)
      pending := .values m occurrence (slot + 1) (values ++ [word]) actions }
  | .operands m occurrence values =>
    { p with
      line := p.line.push (operandRecord m occurrence (restSlot m.spec values) values word)
      pending := .operands m occurrence (values ++ [word]) }
  | _ => p

@[simp] theorem ended_filled (p : Pause) (word : Text) : (p.filled word).ended = p.ended := by
  unfold filled
  split <;> rfl

/-- A pending slot that takes a word records it as a value, and nothing else. -/
theorem history_filled {p : Pause} {word : Text} {isLast : Bool} (h : p.takes word isLast = true) :
    ∃ r, (p.filled word).line.history = p.line.history ++ [r] ∧ r.stub = word ∧ r.slot ≠ none := by
  obtain ⟨line, ended, pending⟩ := p
  cases pending with
  | nothing => exact absurd h Bool.false_ne_true
  | values m occurrence slot values actions =>
    cases actions with
    | nil => exact absurd h Bool.false_ne_true
    | cons action actions => exact ⟨_, rfl, rfl, Option.some_ne_none _⟩
  | operands m occurrence values => exact ⟨_, rfl, rfl, Option.some_ne_none _⟩

/-- A word that the pending slots take is read before anything else is. -/
theorem supplied_of_takes {p : Pause} {word : Text} {rest : List Text}
    (h : p.takes word rest.isEmpty = true) :
    p.supplied (word :: rest) = (p.filled word).supplied rest := by
  obtain ⟨line, ended, pending⟩ := p
  cases pending with
  | nothing => exact absurd h Bool.false_ne_true
  | values m occurrence slot values actions =>
    cases actions with
    | nil => exact absurd h Bool.false_ne_true
    | cons action actions =>
      have hkeeps : leavesOut m.spec word rest = false := by
        simpa only [leavesOut, takes, List.isEmpty_cons, Bool.not_false, Bool.true_and,
          Bool.not_eq_true'] using h
      simp [supplied, filled, takeValues, hkeeps, push]
  | operands m occurrence values =>
    have hkeeps : (!ended && isFlagLike word rest.isEmpty) = false := by
      simpa only [takes, Bool.not_eq_true'] using h
    simp [supplied, filled, takeRest, hkeeps, push]

/-- A word that the pending slots do not take is read as if nothing were pending. -/
theorem supplied_of_not_takes {p : Pause} {word : Text} {rest : List Text}
    (h : p.takes word rest.isEmpty = false) :
    p.supplied (word :: rest) = p.idle.supplied (word :: rest) := by
  obtain ⟨line, ended, pending⟩ := p
  cases pending with
  | nothing => rfl
  | values m occurrence slot values actions =>
    cases actions with
    | nil => simp [supplied, idle, takeValues]
    | cons action actions =>
      have hleaves : leavesOut m.spec word rest = true := by
        simpa only [leavesOut, takes, List.isEmpty_cons, Bool.not_false, Bool.true_and,
          Bool.not_eq_false'] using h
      simp [supplied, idle, takeValues, hleaves]
  | operands m occurrence values =>
    have hleaves : (!ended && isFlagLike word rest.isEmpty) = true := by
      simpa only [takes, Bool.not_eq_false'] using h
    simp [supplied, idle, takeRest, hleaves]

/-- Without words the pending slots stay empty. -/
theorem supplied_nil (p : Pause) : p.supplied [] = { p.line with tokens := [] } := by
  obtain ⟨line, ended, pending⟩ := p
  cases pending with
  | nothing => rfl
  | values m occurrence slot values actions => simp [supplied, takeValues]
  | operands m occurrence values => simp [supplied, takeRest]

theorem goOn_nil (lookup : Text → Option Grammar) (p : Pause) :
    p.goOn lookup [] = { p.line with tokens := [] } := by
  rw [goOn, supplied_nil, run_nil _ _ _ rfl]

/-! ### The words after a pause -/

/-- The pending slots record the words they take. -/
theorem accounted_supplied (p : Pause) (tokens : List Text) :
    Accounted { p.line with tokens := tokens } (p.supplied tokens) := by
  obtain ⟨line, ended, pending⟩ := p
  cases pending with
  | nothing => exact Accounted.refl _
  | values m occurrence slot values actions =>
    obtain ⟨words, left, hsplit, hfits, heq⟩ :=
      takeValues_eq m occurrence actions slot values tokens
    have hstubs := stubs_valueRecords m occurrence actions slot values words hfits
    unfold supplied
    dsimp only
    rw [heq]
    exact accounted_of_stubs words _ hsplit rfl hstubs
  | operands m occurrence values =>
    obtain ⟨words, left, hsplit, heq⟩ := takeRest_eq ended m occurrence tokens values
    unfold supplied
    dsimp only
    rw [heq]
    exact accounted_of_stubs words _ hsplit rfl (stubs_restRecords m occurrence words values)

/-- What is recorded after a pause accounts for the words after it. -/
theorem accounted_goOn (lookup : Text → Option Grammar) (p : Pause) (tokens : List Text) :
    ∃ groups, (p.goOn lookup tokens).history = p.line.history ++ groups.flatten ∧
      List.Forall₂ Accounts tokens groups := by
  obtain ⟨hdone, hread⟩ := run_accounted lookup (p.supplied tokens) p.ended
  obtain ⟨words, groups, hwords, hhistory, hgroups⟩ := (p.accounted_supplied tokens).trans hread
  have htokens : tokens = words ++ (run lookup (p.supplied tokens) p.ended).tokens := hwords
  rw [hdone, List.append_nil] at htokens
  rw [htokens]
  refine ⟨groups, ?_, hgroups⟩
  rw [← htokens]
  exact hhistory

/-! ### What all pauses of a line have in common -/

/-- No words are handed over, and the options have ended if the word that ends them is recorded. -/
structure Regular (p : Pause) : Prop where
  plain : Plain p.line.available
  ended_iff : p.ended = true ↔ ∃ r ∈ p.line.history, r.isMarker = true

/-- More records, none of them of the end of the options, and fewer specifications keep a pause
regular. -/
theorem Regular.append {p : Pause} (h : p.Regular) {available : List Member}
    {records : List Record} (havailable : available ⊆ p.line.available)
    (hrecords : ∀ r ∈ records, r.isMarker = false) (tokens : List Text) (pending : Pending) :
    Regular ⟨{ p.line with
      tokens := tokens, available := available, history := p.line.history ++ records },
      p.ended, pending⟩ := by
  refine ⟨fun m hm => h.plain m (havailable hm), h.ended_iff.trans ?_⟩
  constructor
  · rintro ⟨r, hr, hmarker⟩
    exact ⟨r, List.mem_append_left _ hr, hmarker⟩
  · rintro ⟨r, hr, hmarker⟩
    rcases List.mem_append.1 hr with hr | hr
    · exact ⟨r, hr, hmarker⟩
    · rw [hrecords r hr] at hmarker
      exact absurd hmarker Bool.false_ne_true

theorem Regular.push {p : Pause} (h : p.Regular) {r : Record} (hr : r.isMarker = false)
    (pending : Pending) : Regular ⟨p.line.push r, p.ended, pending⟩ :=
  h.append (List.Subset.refl _) (List.forall_mem_singleton.2 hr) p.line.tokens pending

theorem Regular.idle {p : Pause} (h : p.Regular) : p.idle.Regular := ⟨h.plain, h.ended_iff⟩

theorem Regular.filled {p : Pause} (h : p.Regular) (word : Text) : (p.filled word).Regular := by
  obtain ⟨line, ended, pending⟩ := p
  cases pending with
  | nothing => exact h
  | values m occurrence slot values actions =>
    cases actions with
    | nil => exact h
    | cons action actions => exact h.push (Record.isMarker_of_member rfl) _
  | operands m occurrence values => exact h.push (Record.isMarker_of_member rfl) _

end Pause

end Line

end CommandGrammar
