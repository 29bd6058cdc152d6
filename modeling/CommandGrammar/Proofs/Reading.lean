import CommandGrammar.Line.Match
import CommandGrammar.Proofs.Lookup

/-!
# Reading a line, one word at a time

Everything that is said about whole lines rests on three facts about one word:

* `step_outcome`: reading a word ends in one of seven ways, each of them with the specification it
  matches, the words it takes with it, the records it writes and the words it leaves;
* `run_cons`: a line is read by reading its first word, the embedded line this word opens, and
  then the other words;
* `run_induction`: a statement about lines holds if it holds of lines without words and passes
  from the embedded line and from the line after the first word to the whole line.

`matched` is the line after a match, `valueRecords` and `restRecords` are the records of the words
that a match takes, and `readEmbedded` is the line after an embedded one.
-/

namespace CommandGrammar

namespace Line

/-! ### The line after a match -/

/-- The line after a match that wrote some records and left some words. -/
def matched (l : Line) (m : Member) (left : List Text) (records : List Record) : Line :=
  { l with
    tokens := left
    available := remaining l.available m.spec
    history := l.history ++ records }

@[simp] theorem history_matched (l : Line) (m : Member) (left : List Text)
    (records : List Record) : (l.matched m left records).history = l.history ++ records := rfl

/-! ### The values of an option -/

/-- The records of words in the value slots of an option, the first of them in the place `slot`. -/
def valueRecords (m : Member) (occurrence slot : Nat) (values : List Text) :
    List Action → List Text → List Record
  | action :: actions, word :: words =>
    valueRecord m occurrence slot action values word
      :: valueRecords m occurrence (slot + 1) (values ++ [word]) actions words
  | _, _ => []

/-- The words a match of an option takes from those that follow: at most one for a slot, and none
if the words are handed over. -/
structure Taken (s : Spec) (slots : Nat) (tokens words left : List Text) : Prop where
  split : tokens = words ++ left
  fits : words.length ≤ slots
  handed : s.embedded.isSome = true → words = []

@[simp] theorem valueRecords_nil_left (m : Member) (occurrence slot : Nat)
    (values words : List Text) : valueRecords m occurrence slot values [] words = [] := by
  cases words <;> rfl

@[simp] theorem valueRecords_nil_right (m : Member) (occurrence slot : Nat) (values : List Text)
    (actions : List Action) : valueRecords m occurrence slot values actions [] = [] := by
  cases actions <;> rfl

/-- The records of values belong to the option and share its number. -/
theorem mem_valueRecords {m : Member} {occurrence : Nat} {actions : List Action} :
    ∀ {slot : Nat} {values words : List Text} {r : Record},
      r ∈ valueRecords m occurrence slot values actions words →
      r.context = .option ∧ r.name = m.spec.flag?.getD [] ∧ r.member = some m ∧
        r.occurrence = occurrence := by
  induction actions with
  | nil =>
    intro slot values words r h
    rw [valueRecords_nil_left] at h
    exact absurd h List.not_mem_nil
  | cons action actions ih =>
    intro slot values words r h
    cases words with
    | nil => exact absurd h List.not_mem_nil
    | cons word words =>
      rcases List.mem_cons.1 h with rfl | hmem
      · exact ⟨rfl, rfl, rfl, rfl⟩
      · exact ih hmem

/-- The records of values cover the words one by one. -/
theorem stubs_valueRecords (m : Member) (occurrence : Nat) (actions : List Action) :
    ∀ (slot : Nat) (values words : List Text), words.length ≤ actions.length →
      (valueRecords m occurrence slot values actions words).map Record.stub = words := by
  induction actions with
  | nil =>
    intro slot values words h
    rw [valueRecords_nil_left, List.length_eq_zero_iff.1 (Nat.le_zero.1 h)]
    rfl
  | cons action actions ih =>
    intro slot values words h
    cases words with
    | nil => rfl
    | cons word words =>
      rw [valueRecords, List.map_cons, ih _ _ _ (Nat.le_of_succ_le_succ h)]
      rfl

theorem takeValues_eq (m : Member) (occurrence : Nat) (actions : List Action) :
    ∀ (slot : Nat) (values tokens : List Text), ∃ words left,
      tokens = words ++ left ∧ words.length ≤ actions.length ∧
      takeValues m occurrence slot values actions tokens
        = (valueRecords m occurrence slot values actions words, left) := by
  induction actions with
  | nil =>
    intro slot values tokens
    exact ⟨[], tokens, rfl, Nat.le_refl _, by simp [takeValues]⟩
  | cons action actions ih =>
    intro slot values tokens
    cases tokens with
    | nil => exact ⟨[], [], rfl, Nat.zero_le _, by simp [takeValues]⟩
    | cons next rest =>
      rw [takeValues]
      split
      · exact ⟨[], next :: rest, rfl, Nat.zero_le _, by simp⟩
      · obtain ⟨words, left, hsplit, hlength, heq⟩ := ih (slot + 1) (values ++ [next]) rest
        refine ⟨next :: words, left, ?_, ?_, ?_⟩
        · rw [hsplit, List.cons_append]
        · exact Nat.succ_le_succ hlength
        · rw [heq]
          rfl

theorem fillSlots_eq (l : Line) (m : Member) (occurrence : Nat) (values : List Text) :
    ∃ words left,
      Taken m.spec (m.spec.actions.drop values.length).length l.tokens words left ∧
      fillSlots l m occurrence values
        = ({ l with
              tokens := left
              history := l.history ++ valueRecords m occurrence values.length values
                (m.spec.actions.drop values.length) words }, m.spec.embedded) := by
  unfold fillSlots
  cases hembedded : m.spec.embedded with
  | some e =>
    refine ⟨[], l.tokens, ⟨rfl, Nat.zero_le _, fun _ => rfl⟩, ?_⟩
    rw [valueRecords_nil_right, List.append_nil]
  | none =>
    obtain ⟨words, left, hsplit, hlength, heq⟩ :=
      takeValues_eq m occurrence (m.spec.actions.drop values.length) values.length values l.tokens
    refine ⟨words, left, ⟨hsplit, hlength, ?_⟩, ?_⟩
    · intro h
      simp [hembedded] at h
    · simp only [heq]

theorem acceptNamed_eq (l : Line) (m : Member) (token : Text) :
    ∃ words left, Taken m.spec m.spec.actions.length l.tokens words left ∧
      acceptNamed l m token
        = (l.matched m left (nameRecord l m token
            :: valueRecords m (nextOccurrence l.history) 0 [] m.spec.actions words),
          m.spec.embedded) := by
  obtain ⟨words, left, htaken, heq⟩ := fillSlots_eq
    { l with
      available := remaining l.available m.spec
      history := l.history ++ [nameRecord l m token] } m (nextOccurrence l.history) []
  refine ⟨words, left, htaken, ?_⟩
  unfold acceptNamed
  rw [heq]
  simp [matched]

theorem acceptInline_eq (l : Line) (m : Member) (value : Text) (h : m.spec.takesValue = true) :
    ∃ words left, Taken m.spec (m.spec.actions.length - 1) l.tokens words left ∧
      acceptInline l m value
        = (l.matched m left
            (valueRecords m (nextOccurrence l.history) 0 [] m.spec.actions (value :: words)),
          m.spec.embedded) := by
  obtain ⟨words, left, htaken, heq⟩ := fillSlots_eq
    { l with
      available := remaining l.available m.spec
      history := l.history ++ (m.spec.actions.take 1).map
        (valueRecord m (nextOccurrence l.history) 0 · [] value) }
    m (nextOccurrence l.history) [value]
  refine ⟨words, left, by simpa using htaken, ?_⟩
  unfold acceptInline
  rw [heq]
  obtain ⟨action, actions, hactions⟩ := List.exists_cons_of_ne_nil (Spec.takesValue_iff.1 h)
  simp [matched, hactions, valueRecords]

theorem acceptCluster_of_not_takesValue (l : Line) (m : Member) (rest : Text)
    (h : m.spec.takesValue = false) :
    acceptCluster l m rest
      = (l.matched m (('-' :: rest) :: l.tokens) [nameRecord l m (m.spec.flag?.getD [])],
        m.spec.embedded) := by
  have hactions : m.spec.actions = [] := Spec.takesValue_eq_false_iff.1 h
  unfold acceptCluster
  rw [if_neg (by simp [h])]
  obtain ⟨words, left, htaken, heq⟩ := acceptNamed_eq
    { l with tokens := ('-' :: rest) :: l.tokens } m (m.spec.flag?.getD [])
  have hwords : words = [] := List.length_eq_zero_iff.1 (by simpa [hactions] using htaken.fits)
  have hleft : left = ('-' :: rest) :: l.tokens := by simpa [hwords] using htaken.split.symm
  rw [heq, hwords, hleft, valueRecords_nil_right]
  rfl

/-! ### The operands of a slot -/

/-- The records of operands in a slot, after some others. -/
def restRecords (m : Member) (occurrence : Nat) (values : List Text) : List Text → List Record
  | [] => []
  | word :: words =>
    operandRecord m occurrence (restSlot m.spec values) values word
      :: restRecords m occurrence (values ++ [word]) words

/-- The records of operands belong to the slot and share its number. -/
theorem mem_restRecords {m : Member} {occurrence : Nat} {words : List Text} :
    ∀ {values : List Text} {r : Record}, r ∈ restRecords m occurrence values words →
      r.context = .positional ∧ r.name = m.spec.label ∧ r.member = some m ∧
        r.occurrence = occurrence := by
  induction words with
  | nil =>
    intro values r h
    exact absurd h List.not_mem_nil
  | cons word words ih =>
    intro values r h
    rcases List.mem_cons.1 h with rfl | hmem
    · exact ⟨rfl, rfl, rfl, rfl⟩
    · exact ih hmem

/-- The records of operands cover the words one by one. -/
theorem stubs_restRecords (m : Member) (occurrence : Nat) (words : List Text) :
    ∀ values : List Text, (restRecords m occurrence values words).map Record.stub = words := by
  induction words with
  | nil => intro values; rfl
  | cons word words ih =>
    intro values
    rw [restRecords, List.map_cons, ih]
    rfl

/-- The words a match of a slot takes from those that follow: none unless it is the slot of the
rest, and none if the words are handed over. -/
structure TakenRest (s : Spec) (tokens words left : List Text) : Prop where
  split : tokens = words ++ left
  unbounded : words ≠ [] → s.isUnbounded = true
  handed : s.embedded.isSome = true → words = []

theorem takeRest_eq (ended : Bool) (m : Member) (occurrence : Nat) (tokens : List Text) :
    ∀ values : List Text, ∃ words left, tokens = words ++ left ∧
      takeRest ended m occurrence values tokens
        = (restRecords m occurrence values words, left) := by
  induction tokens with
  | nil =>
    intro values
    exact ⟨[], [], rfl, by simp [takeRest, restRecords]⟩
  | cons next rest ih =>
    intro values
    rw [takeRest]
    split
    · exact ⟨[], next :: rest, rfl, rfl⟩
    · obtain ⟨words, left, hsplit, heq⟩ := ih (values ++ [next])
      refine ⟨next :: words, left, ?_, ?_⟩
      · rw [hsplit, List.cons_append]
      · rw [heq]
        rfl

theorem restSlot_nil (s : Spec) : restSlot s [] = 0 := Nat.zero_min _

theorem acceptOperand_eq (l : Line) (ended : Bool) (m : Member) (token : Text) :
    ∃ words left, TakenRest m.spec l.tokens words left ∧
      acceptOperand l ended m token
        = (l.matched m left (restRecords m (nextOccurrence l.history) [] (token :: words)),
          m.spec.embedded) := by
  unfold acceptOperand
  dsimp only
  cases hembedded : m.spec.embedded with
  | some e =>
    refine ⟨[], l.tokens, ⟨rfl, fun h => absurd rfl h, fun _ => rfl⟩, ?_⟩
    simp [matched, restRecords, restSlot_nil]
  | none =>
    dsimp only
    split
    · rename_i hunbounded
      obtain ⟨words, left, hsplit, heq⟩ :=
        takeRest_eq ended m (nextOccurrence l.history) l.tokens [token]
      refine ⟨words, left, ⟨hsplit, fun _ => hunbounded, ?_⟩, ?_⟩
      · intro h
        simp [hembedded] at h
      · simp [heq, matched, restRecords, restSlot_nil]
    · refine ⟨[], l.tokens, ⟨rfl, fun h => absurd rfl h, fun _ => rfl⟩, ?_⟩
      simp [matched, restRecords, restSlot_nil]

/-! ### What reading a word leads to -/

/-- Whether a word is tried as an option at all. -/
def triesOptions (l : Line) (ended : Bool) (token : Text) : Bool :=
  !ended && wantsOption l.available (isFlagLike token l.tokens.isEmpty)

/-- Whether a word that is tried as an option turns out to be none. -/
def noOption (l : Line) (token : Text) : Prop :=
  findOption l.available token l.tokens.isEmpty = .miss ∧
    splitCluster l.available token l.tokens.isEmpty = none

/-- Whether a word is left to the slots: it is not tried as an option, or is none and does not
look like one either. -/
def leftToSlots (l : Line) (ended : Bool) (token : Text) : Prop :=
  triesOptions l ended token = false ∨
    (noOption l token ∧ isFlagLike token l.tokens.isEmpty = false)

/-- Whether a word carries a value for an option, as a whole or as a cluster that begins with it. -/
def carriesValue (l : Line) (token : Text) (m : Member) (value : Text) : Prop :=
  findOption l.available token l.tokens.isEmpty = .inline m value ∨
    (findOption l.available token l.tokens.isEmpty = .miss ∧
      splitCluster l.available token l.tokens.isEmpty = some (m, value))

/-- The ways in which a word is read; the line holds the words after it. -/
inductive Outcome (l : Line) (ended : Bool) (token : Text) : Step → Prop
  /-- The word ends the options. -/
  | marker : ended = false → token = endOfOptions → l.tokens ≠ [] →
      Outcome l ended token ⟨l.push (l.markerRecord token), true, none⟩
  /-- The word looks like an option that nobody knows, or like several. -/
  | unknownOption : triesOptions l ended token = true →
      findOption l.available token l.tokens.isEmpty = .ambiguous ∨
        (noOption l token ∧ isFlagLike token l.tokens.isEmpty = true) →
      Outcome l ended token ⟨l.push (l.unknownRecord .unknownOption token), ended, none⟩
  /-- There is no slot for the word. -/
  | unknownOperand : leftToSlots l ended token → firstPositional? l.available = none →
      Outcome l ended token ⟨l.push (l.unknownRecord .unknownPositional token), ended, none⟩
  /-- The word names an option. -/
  | named (m : Member) (words left : List Text) : triesOptions l ended token = true →
      findOption l.available token l.tokens.isEmpty = .named m →
      Taken m.spec m.spec.actions.length l.tokens words left →
      Outcome l ended token
        ⟨l.matched m left (nameRecord l m token
            :: valueRecords m (nextOccurrence l.history) 0 [] m.spec.actions words),
          ended, m.spec.embedded⟩
  /-- The word carries the first value of an option. -/
  | inline (m : Member) (value : Text) (words left : List Text) :
      triesOptions l ended token = true → carriesValue l token m value →
      m ∈ l.available → m.spec.isOption = true → m.spec.takesValue = true → value <:+ token →
      Taken m.spec (m.spec.actions.length - 1) l.tokens words left →
      Outcome l ended token
        ⟨l.matched m left
            (valueRecords m (nextOccurrence l.history) 0 [] m.spec.actions (value :: words)),
          ended, m.spec.embedded⟩
  /-- The word is a cluster; what follows its first flag is put back with a dash of its own. -/
  | cluster (m : Member) (rest : Text) : triesOptions l ended token = true →
      findOption l.available token l.tokens.isEmpty = .miss →
      splitCluster l.available token l.tokens.isEmpty = some (m, rest) →
      m.spec.takesValue = false →
      Outcome l ended token
        ⟨l.matched m (('-' :: rest) :: l.tokens) [nameRecord l m (m.spec.flag?.getD [])],
          ended, m.spec.embedded⟩
  /-- The word fills a slot. -/
  | operand (m : Member) (words left : List Text) : leftToSlots l ended token →
      firstPositional? l.available = some m → TakenRest m.spec l.tokens words left →
      Outcome l ended token
        ⟨l.matched m left (restRecords m (nextOccurrence l.history) [] (token :: words)),
          ended, m.spec.embedded⟩

theorem readOperand_outcome (l : Line) (ended : Bool) (token : Text)
    (h : leftToSlots l ended token) :
    Outcome l ended token
      ⟨(readOperand l ended token).1, ended, (readOperand l ended token).2⟩ := by
  unfold readOperand
  split
  · rename_i m hfirst
    obtain ⟨words, left, htaken, heq⟩ := acceptOperand_eq l ended m token
    rw [heq]
    exact .operand m words left h hfirst htaken
  · rename_i hfirst
    exact .unknownOperand h hfirst

theorem readOption_outcome (l : Line) (token : Text) (h : triesOptions l false token = true) :
    Outcome l false token ⟨(readOption l token).1, false, (readOption l token).2⟩ := by
  unfold readOption
  dsimp only
  split
  · rename_i m hhit
    obtain ⟨words, left, htaken, heq⟩ := acceptNamed_eq l m token
    rw [heq]
    exact .named m words left h hhit htaken
  · rename_i m value hhit
    obtain ⟨hm, hoption, htakes, hsuffix⟩ := findOption_inline hhit
    obtain ⟨words, left, htaken, heq⟩ := acceptInline_eq l m value htakes
    rw [heq]
    exact .inline m value words left h (Or.inl hhit) hm hoption htakes hsuffix htaken
  · rename_i hhit
    exact .unknownOption h (Or.inl hhit)
  · rename_i hmiss
    split
    · rename_i m rest hcluster
      obtain ⟨c, htoken, -, -, hm, hflag, -⟩ := splitCluster_eq_some hcluster
      cases htakes : m.spec.takesValue with
      | true =>
        obtain ⟨words, left, htaken, heq⟩ := acceptInline_eq l m rest htakes
        have hsuffix : rest <:+ token := by
          rw [htoken]
          exact List.suffix_append ['-', c] rest
        unfold acceptCluster
        rw [if_pos htakes, heq]
        exact .inline m rest words left h (Or.inr ⟨hmiss, hcluster⟩) hm
          (Spec.isOption_of_flag? hflag) htakes hsuffix htaken
      | false =>
        rw [acceptCluster_of_not_takesValue l m rest htakes]
        exact .cluster m rest h hmiss hcluster htakes
    · rename_i hcluster
      split
      · rename_i hlike
        exact .unknownOption h (Or.inr ⟨⟨hmiss, hcluster⟩, hlike⟩)
      · rename_i hlike
        have hslots : leftToSlots l false token :=
          Or.inr ⟨⟨hmiss, hcluster⟩, Bool.eq_false_iff.2 hlike⟩
        exact readOperand_outcome l false token hslots

/-- **Reading one word.** -/
theorem step_outcome (l : Line) (ended : Bool) (token : Text) :
    Outcome l ended token (step l ended token) := by
  unfold step
  dsimp only
  split
  · rename_i hmarker
    simp only [Bool.and_eq_true, Bool.not_eq_true', beq_iff_eq, List.isEmpty_eq_false_iff]
      at hmarker
    exact .marker hmarker.1.1 hmarker.1.2 hmarker.2
  · split
    · rename_i htries
      have hended : ended = false := by
        rw [Bool.and_eq_true] at htries
        simpa using htries.1
      subst hended
      exact readOption_outcome l token htries
    · rename_i htries
      have hslots : leftToSlots l ended token := Or.inl (Bool.eq_false_iff.2 htries)
      exact readOperand_outcome l ended token hslots

/-! ### Embedded lines -/

/-- Cutting words takes them apart and loses none. -/
theorem cutEmbedded_split (terminators tokens : List Text) :
    (cutEmbedded terminators tokens).inner ++ (cutEmbedded terminators tokens).terminator.toList
      ++ (cutEmbedded terminators tokens).after = tokens := by
  induction tokens with
  | nil => rfl
  | cons token rest ih =>
    rw [cutEmbedded]
    split
    · rfl
    · dsimp only
      rw [List.cons_append, List.cons_append, ih]

def readEmbedded (lookup : Text → Option Grammar) (e : Embedding) (l : Line) : Line :=
  let cut := cutEmbedded e.terminators l.tokens
  match cut.inner with
  | [] => l.resume cut
  | [command] => (l.pushCommand command).resume cut
  | command :: argument :: arguments =>
    let outer := l.pushCommand command
    (outer.absorb
      (run lookup (nested lookup outer command (argument :: arguments)) false)).resume cut

/-- The line after a word and the embedded line it opens. -/
def settled (lookup : Text → Option Grammar) (s : Step) : Line :=
  match s.embedded with
  | none => s.line
  | some e => s.line.readEmbedded lookup e

theorem run_nil (lookup : Text → Option Grammar) (l : Line) (ended : Bool) (h : l.tokens = []) :
    run lookup l ended = l := by
  rw [run]
  split
  · rfl
  · rename_i hread
    rw [h] at hread
    exact absurd hread (by simp)

/-- A line is read when a step leaves no words and hands none over. -/
theorem run_settled_of_done {lookup : Text → Option Grammar} {s : Step}
    (hembedded : s.embedded = none) (hdone : s.line.tokens = []) :
    run lookup (settled lookup s) s.ended = s.line := by
  unfold settled
  rw [hembedded]
  exact run_nil lookup _ _ hdone

/-- **Reading a line is reading its first word and then the other ones.** -/
theorem run_cons (lookup : Text → Option Grammar) (l : Line) (ended : Bool) (token : Text)
    (rest : List Text) (h : l.tokens = token :: rest) :
    run lookup l ended
      = run lookup (settled lookup (step { l with tokens := rest } ended token))
          (step { l with tokens := rest } ended token).ended := by
  rw [run]
  split
  · rename_i hread
    rw [h] at hread
    exact absurd hread (by simp)
  · rename_i token' rest' hread
    rw [h, List.cons.injEq] at hread
    obtain ⟨rfl, rfl⟩ := hread
    -- Both sides look at the same embedding and the same cut; in every case they agree.
    unfold settled
    dsimp only
    generalize step { l with tokens := rest } ended token = s
    cases s.embedded with
    | none => rfl
    | some e =>
      show _ = run lookup (readEmbedded lookup e s.line) s.ended
      unfold readEmbedded
      dsimp only
      generalize cutEmbedded e.terminators s.line.tokens = cut
      cases cut.inner with
      | nil => rfl
      | cons command arguments => cases arguments <;> rfl

@[simp] theorem tokens_readEmbedded (lookup : Text → Option Grammar) (e : Embedding) (l : Line) :
    (l.readEmbedded lookup e).tokens = (cutEmbedded e.terminators l.tokens).after := by
  unfold readEmbedded
  dsimp only
  split <;> exact tokens_resume _ _

theorem weight_settled (lookup : Text → Option Grammar) (s : Step) :
    weight (settled lookup s).tokens ≤ weight s.line.tokens := by
  unfold settled
  split
  · exact Nat.le_refl _
  · rename_i e _
    have hcut := weight_cutEmbedded e.terminators s.line.tokens
    rw [tokens_readEmbedded]
    omega

/-- **Induction on the reading of a line.** A statement holds of every line if it holds of lines
without words and if it holds of a line whenever it holds of the line that the first word hands
over and of the line after the first word. -/
theorem run_induction (lookup : Text → Option Grammar) {motive : Line → Bool → Prop}
    (nil : ∀ l ended, l.tokens = [] → motive l ended)
    (cons : ∀ l ended token rest, l.tokens = token :: rest →
      (∀ e command arguments,
        (step { l with tokens := rest } ended token).embedded = some e →
        (cutEmbedded e.terminators (step { l with tokens := rest } ended token).line.tokens).inner
          = command :: arguments →
        motive (nested lookup
          ((step { l with tokens := rest } ended token).line.pushCommand command) command
          arguments) false) →
      motive (settled lookup (step { l with tokens := rest } ended token))
        (step { l with tokens := rest } ended token).ended →
      motive l ended) :
    ∀ l ended, motive l ended := by
  intro l
  induction hw : weight l.tokens using Nat.strongRecOn generalizing l with
  | _ w ih =>
    intro ended
    cases hread : l.tokens with
    | nil => exact nil l ended hread
    | cons token rest =>
      -- A cluster puts a word back, but a lighter one: the weight counts the letters.
      have hstep : weight (step { l with tokens := rest } ended token).line.tokens < w := by
        rw [← hw, hread]
        exact weight_step { l with tokens := rest } ended token
      refine cons l ended token rest hread ?_ ?_
      · intro e command arguments _ hinner
        have hcut := weight_cutEmbedded e.terminators
          (step { l with tokens := rest } ended token).line.tokens
        have harguments : weight arguments < w := by
          rw [hinner, weight_cons] at hcut
          omega
        exact ih _ harguments _ rfl false
      · have hsettled := weight_settled lookup (step { l with tokens := rest } ended token)
        exact ih _ (Nat.lt_of_le_of_lt hsettled hstep) _ rfl _

end Line

end CommandGrammar
