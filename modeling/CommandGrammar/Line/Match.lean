import CommandGrammar.Line.Lookup

/-!
# Matching a line against a grammar

Words are read from left to right. A word that names an option takes the option's values with it;
a word for the slot of the rest takes all operands up to the next word that looks like an option;
two dashes before the last word end the options. What nobody knows is recorded as unknown, with
the options still available as its completions, so the last word can always be completed.

A specification with an embedding hands the words that follow over to another program: the first
names it, the others are read against its own grammar, up to a terminator that is not the last
word. The outer line then goes on as if nothing had happened.

`step` reads one word and never looks at another program's grammar; `run` repeats it and descends
into embedded lines. Every step makes the words still to be read lighter, a word weighing one more
than it has characters, and so do the words handed over: this is why reading ends.
-/

namespace CommandGrammar

namespace Line

/-! ### Options -/

def nameRecord (l : Line) (m : Member) (token : Text) : Record :=
  { context := .option, name := m.spec.flag?.getD [], member := some m,
    action := catchAll l.available, occurrence := nextOccurrence l.history, stub := token }

/-- The record of a value of an option. -/
def valueRecord (m : Member) (occurrence slot : Nat) (action : Action) (values : List Text)
    (stub : Text) : Record :=
  { context := .option, name := m.spec.flag?.getD [], member := some m, action := action,
    slot := some slot, occurrence := occurrence, values := values, stub := stub }

/-- Whether an option does without the next word: its value may be left out, and it is either
joined to the flag or the word looks like an option. -/
def leavesOut (s : Spec) (next : Text) (rest : List Text) : Bool :=
  s.valueOptional && (s.style == .inline || isFlagLike next rest.isEmpty)

/-- The records of the words that fill the value slots `actions`, the first of them at place
`slot`, and the words left over. -/
def takeValues (m : Member) (occurrence slot : Nat) (values : List Text) :
    List Action → List Text → List Record × List Text
  | action :: actions, next :: rest =>
    if leavesOut m.spec next rest then ([], next :: rest)
    else
      let (records, left) := takeValues m occurrence (slot + 1) (values ++ [next]) actions rest
      (valueRecord m occurrence slot action values next :: records, left)
  | _, tokens => ([], tokens)

/-- Takes the values of an option from the words that follow, unless it hands them over. -/
def fillSlots (l : Line) (m : Member) (occurrence : Nat) (values : List Text) :
    Line × Option Embedding :=
  match m.spec.embedded with
  | some e => (l, some e)
  | none =>
    let (records, left) := takeValues m occurrence values.length values
      (m.spec.actions.drop values.length) l.tokens
    ({ l with tokens := left, history := l.history ++ records }, none)

def acceptNamed (l : Line) (m : Member) (token : Text) : Line × Option Embedding :=
  fillSlots
    { l with
      available := remaining l.available m.spec
      history := l.history ++ [nameRecord l m token] }
    m (nextOccurrence l.history) []

def acceptInline (l : Line) (m : Member) (value : Text) : Line × Option Embedding :=
  let occurrence := nextOccurrence l.history
  fillSlots
    { l with
      available := remaining l.available m.spec
      history := l.history
        ++ (m.spec.actions.take 1).map (valueRecord m occurrence 0 · [] value) }
    m occurrence [value]

/-- Matches the short option at the beginning of a cluster. What follows it is its value, or else
the next word, with a dash of its own. -/
def acceptCluster (l : Line) (m : Member) (rest : Text) : Line × Option Embedding :=
  if m.spec.takesValue then acceptInline l m rest
  else acceptNamed { l with tokens := ('-' :: rest) :: l.tokens } m (m.spec.flag?.getD [])

/-! ### Operands -/

def operandRecord (m : Member) (occurrence slot : Nat) (values : List Text) (stub : Text) :
    Record :=
  { context := .positional, name := m.spec.label, member := some m,
    action := m.spec.actions[slot]?.getD {}, slot := some slot, occurrence := occurrence,
    values := values, stub := stub }

/-- The place of the value slot for an operand after some others: the last slot repeats. -/
def restSlot (s : Spec) (values : List Text) : Nat := min values.length (s.actions.length - 1)

/-- The records of the operands that belong to the slot of the rest, and the words left over. -/
def takeRest (ended : Bool) (m : Member) (occurrence : Nat) (values : List Text) :
    List Text → List Record × List Text
  | [] => ([], [])
  | next :: rest =>
    if !ended && isFlagLike next rest.isEmpty then ([], next :: rest)
    else
      let (records, left) := takeRest ended m occurrence (values ++ [next]) rest
      (operandRecord m occurrence (restSlot m.spec values) values next :: records, left)

def acceptOperand (l : Line) (ended : Bool) (m : Member) (token : Text) :
    Line × Option Embedding :=
  let occurrence := nextOccurrence l.history
  let l :=
    { l with
      available := remaining l.available m.spec
      history := l.history ++ [operandRecord m occurrence 0 [] token] }
  match m.spec.embedded with
  | some e => (l, some e)
  | none =>
    if m.spec.isUnbounded then
      let (records, left) := takeRest ended m occurrence [token] l.tokens
      ({ l with tokens := left, history := l.history ++ records }, none)
    else (l, none)

/-! ### One word -/

/-- What one word leads to. -/
structure Step where
  line : Line
  /-- Whether the options have ended. -/
  ended : Bool
  /-- The embedding that takes the words which follow. -/
  embedded : Option Embedding
deriving Repr

/-- The word that ends the options. -/
def endOfOptions : Text := ['-', '-']

def acceptUnknown (l : Line) (context : MatchContext) (token : Text) : Line × Option Embedding :=
  (l.push (l.unknownRecord context token), none)

def readOperand (l : Line) (ended : Bool) (token : Text) : Line × Option Embedding :=
  match firstPositional? l.available with
  | some m => acceptOperand l ended m token
  | none => acceptUnknown l .unknownPositional token

/-- Reads a word as an option if it is one, and as an operand if it does not even look like
one. -/
def readOption (l : Line) (token : Text) : Line × Option Embedding :=
  let isLast := l.tokens.isEmpty
  match findOption l.available token isLast with
  | .named m => acceptNamed l m token
  | .inline m value => acceptInline l m value
  | .ambiguous => acceptUnknown l .unknownOption token
  | .miss =>
    match splitCluster l.available token isLast with
    | some (m, rest) => acceptCluster l m rest
    | none =>
      if isFlagLike token isLast then acceptUnknown l .unknownOption token
      else readOperand l false token

/-- Reads one word; the line holds the words after it. -/
def step (l : Line) (ended : Bool) (token : Text) : Step :=
  let isLast := l.tokens.isEmpty
  if !ended && token == endOfOptions && !isLast then ⟨l.push (l.markerRecord token), true, none⟩
  else
    let (line, embedded) :=
      if !ended && wantsOption l.available (isFlagLike token isLast) then readOption l token
      else readOperand l ended token
    ⟨line, ended, embedded⟩

/-! ### Every step makes the line lighter -/

/-- The weight of the words still to be read. -/
def weight : List Text → Nat
  | [] => 0
  | t :: ts => t.length + 1 + weight ts

@[simp] theorem weight_nil : weight [] = 0 := rfl

@[simp] theorem weight_cons (t : Text) (ts : List Text) :
    weight (t :: ts) = t.length + 1 + weight ts := rfl

theorem weight_takeValues (m : Member) (occurrence : Nat) (actions : List Action) :
    ∀ (slot : Nat) (values tokens : List Text),
      weight (takeValues m occurrence slot values actions tokens).2 ≤ weight tokens := by
  induction actions with
  | nil => intro slot values tokens; simp [takeValues]
  | cons action actions ih =>
    intro slot values tokens
    cases tokens with
    | nil => simp [takeValues]
    | cons next rest =>
      rw [takeValues]
      split
      · exact Nat.le_refl _
      · have := ih (slot + 1) (values ++ [next]) rest
        rw [weight_cons]
        exact Nat.le_trans this (by omega)

theorem weight_takeRest (ended : Bool) (m : Member) (occurrence : Nat) (tokens : List Text) :
    ∀ values : List Text,
      weight (takeRest ended m occurrence values tokens).2 ≤ weight tokens := by
  induction tokens with
  | nil => intro values; simp [takeRest]
  | cons next rest ih =>
    intro values
    rw [takeRest]
    split
    · exact Nat.le_refl _
    · have := ih (values ++ [next])
      rw [weight_cons]
      exact Nat.le_trans this (by omega)

theorem weight_fillSlots (l : Line) (m : Member) (occurrence : Nat) (values : List Text) :
    weight (fillSlots l m occurrence values).1.tokens ≤ weight l.tokens := by
  unfold fillSlots
  split
  · exact Nat.le_refl _
  · exact weight_takeValues m occurrence _ _ _ _

theorem weight_acceptNamed (l : Line) (m : Member) (token : Text) :
    weight (acceptNamed l m token).1.tokens ≤ weight l.tokens := weight_fillSlots _ _ _ _

theorem weight_acceptInline (l : Line) (m : Member) (value : Text) :
    weight (acceptInline l m value).1.tokens ≤ weight l.tokens := weight_fillSlots _ _ _ _

theorem weight_acceptCluster (l : Line) (m : Member) (rest : Text) :
    weight (acceptCluster l m rest).1.tokens ≤ weight (('-' :: rest) :: l.tokens) := by
  unfold acceptCluster
  split
  · refine Nat.le_trans (weight_acceptInline _ _ _) ?_
    rw [weight_cons]
    omega
  · exact weight_acceptNamed _ _ _

theorem weight_acceptOperand (l : Line) (ended : Bool) (m : Member) (token : Text) :
    weight (acceptOperand l ended m token).1.tokens ≤ weight l.tokens := by
  unfold acceptOperand
  dsimp only
  split
  · exact Nat.le_refl _
  · split
    · exact weight_takeRest ended m _ _ _
    · exact Nat.le_refl _

theorem weight_readOperand (l : Line) (ended : Bool) (token : Text) :
    weight (readOperand l ended token).1.tokens ≤ weight l.tokens := by
  unfold readOperand
  split
  · exact weight_acceptOperand _ _ _ _
  · exact Nat.le_refl _

/-- A cluster is longer than what it leaves. -/
theorem length_splitCluster {members : List Member} {token : Text} {isLast : Bool} {m : Member}
    {rest : Text} (h : splitCluster members token isLast = some (m, rest)) :
    rest.length + 2 = token.length := by
  unfold splitCluster at h
  split at h
  · split at h
    · simp at h
    · split at h
      · simp at h
      · split at h
        · split at h
          · simp at h
          · simp only [Option.some.injEq, Prod.mk.injEq] at h
            rw [← h.2]
            simp
        · simp at h
  · simp at h

theorem weight_readOption (l : Line) (token : Text) :
    weight (readOption l token).1.tokens < weight (token :: l.tokens) := by
  rw [weight_cons]
  unfold readOption
  dsimp only
  split
  · have := weight_acceptNamed l ‹Member› token
    omega
  · have := weight_acceptInline l ‹Member› ‹Text›
    omega
  · simp only [acceptUnknown, push]
    omega
  · split
    · rename_i m rest h
      have := weight_acceptCluster l m rest
      have := length_splitCluster h
      rw [weight_cons, List.length_cons] at *
      omega
    · split
      · simp only [acceptUnknown, push]
        omega
      · have := weight_readOperand l false token
        omega

theorem weight_step (l : Line) (ended : Bool) (token : Text) :
    weight (step l ended token).line.tokens < weight (token :: l.tokens) := by
  unfold step
  dsimp only
  split
  · rw [weight_cons]
    simp only [push]
    omega
  · split
    · exact weight_readOption l token
    · rw [weight_cons]
      exact Nat.lt_of_le_of_lt (weight_readOperand l ended token) (by omega)

/-! ### Embedded lines -/

/-- The words handed over to an embedded line, cut at its terminator. -/
structure Cut where
  inner : List Text
  terminator : Option Text
  after : List Text
deriving DecidableEq, Repr

/-- Cuts words at the first terminator; the last word of all is no terminator. -/
def cutEmbedded (terminators : List Text) : List Text → Cut
  | [] => ⟨[], none, []⟩
  | token :: rest =>
    if !rest.isEmpty && terminators.contains token then ⟨[], some token, rest⟩
    else
      let cut := cutEmbedded terminators rest
      { cut with inner := token :: cut.inner }

/-- The words of an embedded line and those after it weigh no more than all of them. -/
theorem weight_cutEmbedded (terminators tokens : List Text) :
    weight (cutEmbedded terminators tokens).inner + weight (cutEmbedded terminators tokens).after
      ≤ weight tokens := by
  induction tokens with
  | nil => simp [cutEmbedded]
  | cons token rest ih =>
    rw [cutEmbedded]
    split
    · simp only [weight_nil, weight_cons]
      omega
    · simp only [weight_cons]
      omega

/-- The outer line after an embedded one: its terminator is recorded and the words after it are
still to be read. -/
def resume (l : Line) (cut : Cut) : Line :=
  let l := { l with tokens := cut.after }
  match cut.terminator with
  | some token => l.push (l.terminatorRecord token)
  | none => l

@[simp] theorem tokens_resume (l : Line) (cut : Cut) : (l.resume cut).tokens = cut.after := by
  unfold resume
  dsimp only
  split <;> rfl

/-- The line with the program of an embedded one recorded. -/
def pushCommand (l : Line) (command : Text) : Line := l.push (l.commandRecord command)

/-- The line on which the arguments of an embedded program are read: its own specifications are
available, and its records go on where those of `l` end. -/
def nested (lookup : Text → Option Grammar) (l : Line) (command : Text) (arguments : List Text) :
    Line :=
  { tokens := arguments,
    available := ((lookup (programName command)).map Grammar.members).getD [],
    history := l.history,
    consulted := l.consulted ++ [programName command] }

/-- The outer line with the trace of an embedded one. -/
def absorb (l inner : Line) : Line :=
  { l with history := inner.history, consulted := inner.consulted }

/-- Reads all words of a line; the grammar of an embedded program is looked up only if the
program has arguments. -/
def run (lookup : Text → Option Grammar) (l : Line) (ended : Bool) : Line :=
  match _read : l.tokens with
  | [] => l
  | token :: rest =>
    let s := step { l with tokens := rest } ended token
    match s.embedded with
    | none => run lookup s.line s.ended
    | some e =>
      let cut := cutEmbedded e.terminators s.line.tokens
      match _inner : cut.inner with
      | [] => run lookup (s.line.resume cut) s.ended
      | [command] => run lookup ((s.line.pushCommand command).resume cut) s.ended
      | command :: argument :: arguments =>
        let outer := s.line.pushCommand command
        let inner := run lookup (nested lookup outer command (argument :: arguments)) false
        run lookup ((outer.absorb inner).resume cut) s.ended
termination_by weight l.tokens
decreasing_by
  all_goals
    have hs : weight s.line.tokens < weight l.tokens :=
      _read ▸ weight_step { l with tokens := rest } ended token
  · exact hs
  all_goals
    have hcut : weight cut.inner + weight cut.after ≤ weight s.line.tokens :=
      weight_cutEmbedded e.terminators s.line.tokens
    have hin := congrArg weight _inner
    have hafter : weight cut.after < weight l.tokens := by omega
  · exact Nat.lt_of_le_of_lt (Nat.le_of_eq (congrArg weight (tokens_resume _ cut))) hafter
  · exact Nat.lt_of_le_of_lt (Nat.le_of_eq (congrArg weight (tokens_resume _ cut))) hafter
  · change weight (argument :: arguments) < _
    rw [weight_cons] at hin
    omega
  · exact Nat.lt_of_le_of_lt (Nat.le_of_eq (congrArg weight (tokens_resume _ cut))) hafter

def parse (lookup : Text → Option Grammar) (tokens : List Text) (available : List Member) :
    Line :=
  run lookup { tokens := tokens, available := available } false

end Line

end CommandGrammar
