import CommandGrammar.Proofs.Reading

/-!
# What was recorded before does not matter

The records a line already has are of one use only: the next match takes its number from them. A
line that is read after an earlier one is therefore read as if nothing had come before it, and then
all of its numbers move up by the numbers of the earlier one.

`Line.after` puts the trace of an earlier line before that of a line, with the numbers moved up.
Every step of the reading commutes with it:

* `step_after`: one word;
* `readEmbedded_after`: an embedded line, if its arguments do;
* `run_after`: a whole line, at every level of it.
-/

namespace CommandGrammar

/-! ### Numbers that move up -/

/-- The record under a number that is higher by `n`. -/
def Record.renumber (n : Nat) (r : Record) : Record := { r with occurrence := r.occurrence + n }

theorem foldl_occurrence_renumber (n : Nat) (records : List Record) :
    ∀ bound : Nat,
      (records.map (Record.renumber n)).foldl (fun bound r => max bound (r.occurrence + 1))
          (bound + n)
        = records.foldl (fun bound r => max bound (r.occurrence + 1)) bound + n := by
  induction records with
  | nil => intro bound; rfl
  | cons r records ih =>
    intro bound
    have hmax : max (bound + n) ((r.renumber n).occurrence + 1)
        = max bound (r.occurrence + 1) + n := by
      show max (bound + n) (r.occurrence + n + 1) = _
      omega
    rw [List.map_cons, List.foldl_cons, List.foldl_cons, hmax]
    exact ih _

/-- Records whose numbers go on where those of a history end move its next number up by their
own. -/
theorem nextOccurrence_append_renumber (history records : List Record) :
    nextOccurrence (history ++ records.map (Record.renumber (nextOccurrence history)))
      = nextOccurrence records + nextOccurrence history := by
  have hfold := foldl_occurrence_renumber (nextOccurrence history) records 0
  rw [Nat.zero_add] at hfold
  rw [nextOccurrence, List.foldl_append]
  exact hfold

namespace Line

/-! ### A line after an earlier one -/

/-- The line with the trace of an earlier one before its own. -/
def after (l earlier : Line) : Line :=
  { l with
    history := earlier.history ++ l.history.map (Record.renumber (nextOccurrence earlier.history))
    consulted := earlier.consulted ++ l.consulted }

/-- The line without the trace it has. -/
def fresh (l : Line) : Line := { tokens := l.tokens, available := l.available }

/-- Every line is one without a trace, after itself. -/
theorem fresh_after (l : Line) : l.fresh.after l = l := by
  unfold after fresh
  simp only [List.map_nil, List.append_nil]

theorem nextOccurrence_after (l earlier : Line) :
    nextOccurrence (l.after earlier).history
      = nextOccurrence l.history + nextOccurrence earlier.history :=
  nextOccurrence_append_renumber earlier.history l.history

/-- Records written after an earlier line are written under higher numbers. -/
theorem append_after (l earlier : Line) (tokens : List Text) (available : List Member)
    (records : List Record) :
    { l.after earlier with
        tokens := tokens
        available := available
        history := (l.after earlier).history
          ++ records.map (Record.renumber (nextOccurrence earlier.history)) }
      = after { l with
          tokens := tokens
          available := available
          history := l.history ++ records } earlier := by
  simp only [after, List.map_append, List.append_assoc]

/-- A record under the next number, written after an earlier line, is under the next number
there. -/
theorem renumber_next (l earlier : Line) (r : Record) :
    Record.renumber (nextOccurrence earlier.history)
        { r with occurrence := nextOccurrence l.history }
      = { r with occurrence := nextOccurrence (l.after earlier).history } := by
  rw [nextOccurrence_after]
  rfl

theorem push_next_after (l earlier : Line) (r : Record) :
    (l.after earlier).push { r with occurrence := nextOccurrence (l.after earlier).history }
      = (l.push { r with occurrence := nextOccurrence l.history }).after earlier := by
  rw [← renumber_next]
  exact append_after l earlier l.tokens l.available [_]

/-! ### The records of a word -/

theorem takeValues_renumber (m : Member) (occurrence n : Nat) (actions : List Action) :
    ∀ (slot : Nat) (values tokens : List Text),
      takeValues m (occurrence + n) slot values actions tokens
        = ((takeValues m occurrence slot values actions tokens).1.map (Record.renumber n),
          (takeValues m occurrence slot values actions tokens).2) := by
  induction actions with
  | nil => intro slot values tokens; simp [takeValues]
  | cons action actions ih =>
    intro slot values tokens
    cases tokens with
    | nil => simp [takeValues]
    | cons next rest =>
      rw [takeValues, takeValues]
      split
      · rfl
      · rw [ih]
        rfl

theorem takeRest_renumber (ended : Bool) (m : Member) (occurrence n : Nat) (tokens : List Text) :
    ∀ values : List Text,
      takeRest ended m (occurrence + n) values tokens
        = ((takeRest ended m occurrence values tokens).1.map (Record.renumber n),
          (takeRest ended m occurrence values tokens).2) := by
  induction tokens with
  | nil => intro values; simp [takeRest]
  | cons next rest ih =>
    intro values
    rw [takeRest, takeRest]
    split
    · rfl
    · rw [ih]
      rfl

/-! ### One word -/

theorem fillSlots_after (l earlier : Line) (m : Member) (occurrence : Nat) (values : List Text) :
    fillSlots (l.after earlier) m (occurrence + nextOccurrence earlier.history) values
      = ((fillSlots l m occurrence values).1.after earlier,
        (fillSlots l m occurrence values).2) := by
  unfold fillSlots
  cases m.spec.embedded with
  | some e => rfl
  | none =>
    dsimp only
    rw [takeValues_renumber]
    exact congrArg (·, none) (append_after l earlier _ l.available _)

theorem acceptNamed_after (l earlier : Line) (m : Member) (token : Text) :
    acceptNamed (l.after earlier) m token
      = ((acceptNamed l m token).1.after earlier, (acceptNamed l m token).2) := by
  have hline := append_after l earlier l.tokens (remaining l.available m.spec)
    [nameRecord l m token]
  have hrecord : (nameRecord l m token).renumber (nextOccurrence earlier.history)
      = nameRecord (l.after earlier) m token := renumber_next l earlier (nameRecord l m token)
  rw [List.map_singleton, hrecord] at hline
  unfold acceptNamed
  rw [nextOccurrence_after, ← fillSlots_after, ← hline]
  rfl

theorem acceptInline_after (l earlier : Line) (m : Member) (value : Text) :
    acceptInline (l.after earlier) m value
      = ((acceptInline l m value).1.after earlier, (acceptInline l m value).2) := by
  have hline := append_after l earlier l.tokens (remaining l.available m.spec)
    ((m.spec.actions.take 1).map (valueRecord m (nextOccurrence l.history) 0 · [] value))
  rw [List.map_map] at hline
  unfold acceptInline
  dsimp only
  rw [nextOccurrence_after, ← fillSlots_after, ← hline]
  rfl

theorem acceptCluster_after (l earlier : Line) (m : Member) (rest : Text) :
    acceptCluster (l.after earlier) m rest
      = ((acceptCluster l m rest).1.after earlier, (acceptCluster l m rest).2) := by
  unfold acceptCluster
  split
  · exact acceptInline_after l earlier m rest
  · exact acceptNamed_after { l with tokens := ('-' :: rest) :: l.tokens } earlier m _

theorem acceptOperand_after (l earlier : Line) (ended : Bool) (m : Member) (token : Text) :
    acceptOperand (l.after earlier) ended m token
      = ((acceptOperand l ended m token).1.after earlier, (acceptOperand l ended m token).2) := by
  have hline := append_after l earlier l.tokens (remaining l.available m.spec)
    [operandRecord m (nextOccurrence l.history) 0 [] token]
  have hrecord :
      (operandRecord m (nextOccurrence l.history) 0 [] token).renumber
          (nextOccurrence earlier.history)
        = operandRecord m (nextOccurrence l.history + nextOccurrence earlier.history) 0 [] token :=
    rfl
  rw [List.map_singleton, hrecord] at hline
  unfold acceptOperand
  dsimp only
  rw [nextOccurrence_after]
  cases m.spec.embedded with
  | some e => exact congrArg (·, some e) hline
  | none =>
    dsimp only
    split
    · have hrest := append_after
        { l with
          available := remaining l.available m.spec
          history := l.history ++ [operandRecord m (nextOccurrence l.history) 0 [] token] }
        earlier (takeRest ended m (nextOccurrence l.history) [token] l.tokens).2
        (remaining l.available m.spec)
        (takeRest ended m (nextOccurrence l.history) [token] l.tokens).1
      rw [← hline] at hrest
      show (_, none) = _
      rw [← hrest]
      dsimp only
      rw [takeRest_renumber]
      rfl
    · exact congrArg (·, none) hline

theorem acceptUnknown_after (l earlier : Line) (context : MatchContext) (token : Text) :
    acceptUnknown (l.after earlier) context token
      = ((acceptUnknown l context token).1.after earlier, (acceptUnknown l context token).2) :=
  congrArg (·, none) (push_next_after l earlier (l.unknownRecord context token))

theorem readOperand_after (l earlier : Line) (ended : Bool) (token : Text) :
    readOperand (l.after earlier) ended token
      = ((readOperand l ended token).1.after earlier, (readOperand l ended token).2) := by
  have havailable : (l.after earlier).available = l.available := rfl
  unfold readOperand
  rw [havailable]
  cases firstPositional? l.available with
  | some m => exact acceptOperand_after l earlier ended m token
  | none => exact acceptUnknown_after l earlier .unknownPositional token

theorem readOption_after (l earlier : Line) (token : Text) :
    readOption (l.after earlier) token
      = ((readOption l token).1.after earlier, (readOption l token).2) := by
  have havailable : (l.after earlier).available = l.available := rfl
  have htokens : (l.after earlier).tokens = l.tokens := rfl
  unfold readOption
  dsimp only
  rw [havailable, htokens]
  cases findOption l.available token l.tokens.isEmpty with
  | named m => exact acceptNamed_after l earlier m token
  | inline m value => exact acceptInline_after l earlier m value
  | ambiguous => exact acceptUnknown_after l earlier .unknownOption token
  | miss =>
    dsimp only
    cases splitCluster l.available token l.tokens.isEmpty with
    | some found => exact acceptCluster_after l earlier found.1 found.2
    | none =>
      dsimp only
      split
      · exact acceptUnknown_after l earlier .unknownOption token
      · exact readOperand_after l earlier false token

def Step.after (s : Step) (earlier : Line) : Step := { s with line := s.line.after earlier }

/-- **Reading a word after an earlier line** is reading it, after the earlier line. -/
theorem step_after (l earlier : Line) (ended : Bool) (token : Text) :
    step (l.after earlier) ended token = (step l ended token).after earlier := by
  have havailable : (l.after earlier).available = l.available := rfl
  have htokens : (l.after earlier).tokens = l.tokens := rfl
  unfold step
  dsimp only
  rw [havailable, htokens]
  split
  · exact congrArg (Step.mk · true none) (push_next_after l earlier (l.markerRecord token))
  · split
    · rw [readOption_after]
      rfl
    · rw [readOperand_after]
      rfl

/-! ### Embedded lines -/

theorem resume_after (l earlier : Line) (cut : Cut) :
    (l.after earlier).resume cut = (l.resume cut).after earlier := by
  unfold resume
  dsimp only
  cases cut.terminator with
  | none => rfl
  | some token =>
    exact push_next_after { l with tokens := cut.after } earlier (l.terminatorRecord token)

theorem pushCommand_after (l earlier : Line) (command : Text) :
    (l.after earlier).pushCommand command = (l.pushCommand command).after earlier :=
  push_next_after l earlier (l.commandRecord command)

theorem nested_after (lookup : Text → Option Grammar) (l earlier : Line) (command : Text)
    (arguments : List Text) :
    nested lookup (l.after earlier) command arguments
      = (nested lookup l command arguments).after earlier := by
  simp only [nested, after, List.append_assoc]

theorem absorb_after (l inner earlier : Line) :
    (l.after earlier).absorb (inner.after earlier) = (l.absorb inner).after earlier := rfl

/-- An embedded line is read after an earlier line as it is read by itself, if its arguments
are. -/
theorem readEmbedded_after (lookup : Text → Option Grammar) (e : Embedding) (l earlier : Line)
    (hinner : ∀ command arguments,
      (cutEmbedded e.terminators l.tokens).inner = command :: arguments →
      run lookup ((nested lookup (l.pushCommand command) command arguments).after earlier) false
        = (run lookup (nested lookup (l.pushCommand command) command arguments) false).after
          earlier) :
    (l.after earlier).readEmbedded lookup e = (l.readEmbedded lookup e).after earlier := by
  have htokens : (l.after earlier).tokens = l.tokens := rfl
  unfold readEmbedded
  dsimp only
  rw [htokens]
  generalize cutEmbedded e.terminators l.tokens = cut at *
  split
  · exact resume_after l earlier cut
  · rename_i command _
    rw [pushCommand_after, resume_after]
  · rename_i command argument arguments hcut
    rw [pushCommand_after, nested_after, hinner command (argument :: arguments) hcut,
      absorb_after, resume_after]

/-! ### Whole lines -/

/-- **Reading a line after an earlier one** is reading it by itself, with its records after those
of the earlier line and under the numbers that go on from there. -/
theorem run_after (lookup : Text → Option Grammar) (earlier l : Line) (ended : Bool) :
    run lookup (l.after earlier) ended = (run lookup l ended).after earlier := by
  induction l, ended using run_induction lookup with
  | nil l ended hread =>
    rw [run_nil lookup l ended hread, run_nil lookup (l.after earlier) ended hread]
  | cons l ended token rest hread hinner ih =>
    have hstep : step { l.after earlier with tokens := rest } ended token
        = (step { l with tokens := rest } ended token).after earlier :=
      step_after { l with tokens := rest } earlier ended token
    rw [run_cons lookup l ended token rest hread,
      run_cons lookup (l.after earlier) ended token rest hread, hstep]
    generalize step { l with tokens := rest } ended token = s at *
    -- The embedded line, if there is one, is covered by the induction as well.
    have hsettled : settled lookup (s.after earlier) = (settled lookup s).after earlier := by
      unfold settled
      cases hembedded : s.embedded with
      | none =>
        rw [show (s.after earlier).embedded = none from hembedded]
        rfl
      | some e =>
        rw [show (s.after earlier).embedded = some e from hembedded]
        exact readEmbedded_after lookup e s.line earlier
          fun command arguments hcut => hinner e command arguments hembedded hcut
    rw [hsettled]
    exact ih

/-- What a line is read as does not depend on its trace, and its trace is continued. -/
theorem run_eq_after_fresh (lookup : Text → Option Grammar) (l : Line) (ended : Bool) :
    run lookup l ended = (run lookup l.fresh ended).after l := by
  rw [← run_after, fresh_after]

end Line

end CommandGrammar
