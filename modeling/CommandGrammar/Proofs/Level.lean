import CommandGrammar.Proofs.Reading

/-!
# One level of a line

An embedded command has a line of its own, read at a level of its own: its words, its options and
its records are no business of the level above. A `Moment` of a level is the line between two
words together with the records that this level has written itself; `Reaches` are the moments that
one level goes through, from its first word on. An embedded line is a single stretch of it.

* `run_of_reaches`: every moment of a level lies on the way from its first word to its end;
* `reaches_run`: the end of a level is one of its moments.
-/

namespace CommandGrammar

namespace Line

/-! ### What an embedded line leaves alone -/

@[simp] theorem available_resume (l : Line) (cut : Cut) :
    (l.resume cut).available = l.available := by
  unfold resume
  dsimp only
  split <;> rfl

/-- An embedded line takes nothing from what is available on the outer one. -/
@[simp] theorem available_readEmbedded (lookup : Text → Option Grammar) (e : Embedding)
    (l : Line) : (l.readEmbedded lookup e).available = l.available := by
  unfold readEmbedded
  dsimp only
  split <;> exact available_resume _ _

@[simp] theorem available_settled (lookup : Text → Option Grammar) (s : Step) :
    (settled lookup s).available = s.line.available := by
  unfold settled
  split
  · rfl
  · exact available_readEmbedded _ _ _

/-! ### The moments of a level -/

/-- A level between two words. -/
structure Moment where
  line : Line
  /-- Whether the options have ended. -/
  ended : Bool
  /-- The records this level has written itself. -/
  own : List Record

/-- The step that reads a word at some moment, with the words after it. -/
def Moment.reading (now : Moment) (token : Text) (rest : List Text) : Step :=
  step { now.line with tokens := rest } now.ended token

/-- The records that a level writes itself when it reads a word. -/
def Moment.written (now : Moment) (token : Text) (rest : List Text) : List Record :=
  (now.reading token rest).line.history.drop now.line.history.length

/-- The moment after a word and the embedded line it opens. -/
def Moment.next (lookup : Text → Option Grammar) (now : Moment) (token : Text)
    (rest : List Text) : Moment where
  line := settled lookup (now.reading token rest)
  ended := (now.reading token rest).ended
  own := now.own ++ now.written token rest

theorem Moment.written_eq {now : Moment} {token : Text} {rest : List Text} {records : List Record}
    (h : (now.reading token rest).line.history = now.line.history ++ records) :
    now.written token rest = records := by
  unfold Moment.written
  rw [h]
  exact List.drop_left

theorem Moment.outcome (now : Moment) (token : Text) (rest : List Text) :
    Outcome { now.line with tokens := rest } now.ended token (now.reading token rest) :=
  step_outcome { now.line with tokens := rest } now.ended token

/-- The moments that a level goes through. -/
inductive Reaches (lookup : Text → Option Grammar) (start : Line) : Moment → Prop
  | start : Reaches lookup start ⟨start, false, []⟩
  | word {now : Moment} {token : Text} {rest : List Text} : Reaches lookup start now →
      now.line.tokens = token :: rest → Reaches lookup start (now.next lookup token rest)

/-- What a level reads after one of its moments is what it reads altogether. -/
theorem run_of_reaches {lookup : Text → Option Grammar} {start : Line} {now : Moment}
    (h : Reaches lookup start now) : run lookup now.line now.ended = run lookup start false := by
  induction h with
  | start => rfl
  | word _ hread ih =>
    rw [← ih, run_cons lookup _ _ _ _ hread]
    rfl

theorem exists_reaches_run (lookup : Text → Option Grammar) (start : Line) (l : Line)
    (ended : Bool) : ∀ own, Reaches lookup start ⟨l, ended, own⟩ →
      ∃ ended' own', Reaches lookup start ⟨run lookup l ended, ended', own'⟩ := by
  induction l, ended using run_induction lookup with
  | nil l ended hread =>
    intro own h
    rw [run_nil lookup l ended hread]
    exact ⟨ended, own, h⟩
  | cons l ended token rest hread _ ih =>
    intro own h
    rw [run_cons lookup l ended token rest hread]
    exact ih _ (h.word hread)

/-- The end of a level is one of its moments. -/
theorem reaches_run (lookup : Text → Option Grammar) (start : Line) :
    ∃ ended own, Reaches lookup start ⟨run lookup start false, ended, own⟩ :=
  exists_reaches_run lookup start start false [] .start

end Line

end CommandGrammar
