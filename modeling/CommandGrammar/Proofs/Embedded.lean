import CommandGrammar.Proofs.Causality
import CommandGrammar.Proofs.Level
import CommandGrammar.Proofs.Numbering

/-!
# Embedded lines and the line around them

The words that a specification hands over are cut at the first terminator that is not the last word
of all. What comes before it is the business of the embedded command alone, what comes after it
that of the outer line:

* `embedded_isolated`: the outer line goes on with the words after the terminator and with the
  specifications it had, and its records of these words depend on the embedded line only through
  the numbers they begin with;
* `readEmbedded_terminated`: the arguments of the embedded command are read as a line of their own,
  which ends with them.

The end of that line is its weak point. The last argument is read as a word that is still being
completed, although a terminator stands behind it. For an argument with a dash this can make a
difference, as `last_argument_read_as_open` shows.
-/

namespace CommandGrammar

namespace Line

/-! ### Where an embedded line ends -/

/-- Words without a terminator before one that has words after it are the embedded line. -/
theorem cutEmbedded_of_terminator {terminators words rest : List Text} {terminator : Text}
    (hwords : ∀ word ∈ words, word ∉ terminators) (hterminator : terminator ∈ terminators)
    (hrest : rest ≠ []) :
    cutEmbedded terminators (words ++ terminator :: rest) = ⟨words, some terminator, rest⟩ := by
  induction words with
  | nil =>
    rw [List.nil_append, cutEmbedded, if_pos]
    rw [List.isEmpty_eq_false_iff.2 hrest, List.contains_iff_mem.2 hterminator]
    rfl
  | cons word words ih =>
    obtain ⟨hword, hwords⟩ := List.forall_mem_cons.1 hwords
    rw [List.cons_append, cutEmbedded, if_neg, ih hwords]
    simp [hword]

section Terminated

variable (lookup : Text → Option Grammar) (e : Embedding) (l : Line) {words rest : List Text}
  {terminator : Text} (hwords : ∀ word ∈ words, word ∉ e.terminators)
  (hterminator : terminator ∈ e.terminators) (hrest : rest ≠ [])

include hwords hterminator hrest

theorem tokens_readEmbedded_of_terminator :
    (readEmbedded lookup e { l with tokens := words ++ terminator :: rest }).tokens = rest := by
  rw [tokens_readEmbedded, cutEmbedded_of_terminator hwords hterminator hrest]

/-- The outer line goes on from an embedded one as it would from any other with the same words
after it. -/
theorem run_readEmbedded_of_terminator (ended : Bool) :
    run lookup (readEmbedded lookup e { l with tokens := words ++ terminator :: rest }) ended
      = (run lookup { tokens := rest, available := l.available } ended).after
          (readEmbedded lookup e { l with tokens := words ++ terminator :: rest }) := by
  rw [run_eq_after_fresh, fresh, available_readEmbedded,
    tokens_readEmbedded_of_terminator lookup e l hwords hterminator hrest]

end Terminated

/-- **Embedded commands are isolated.** Two embedded lines before the same terminator and the same
words leave the outer line with these words and with the specifications it had; and whichever of
them was read, the outer line records the same for the words that follow, under numbers that go on
from those of the embedded line, and has the same specifications left in the end. -/
theorem embedded_isolated (lookup : Text → Option Grammar) (e : Embedding) (l : Line)
    (ended : Bool) {first second rest : List Text} {terminator : Text}
    (hfirst : ∀ word ∈ first, word ∉ e.terminators)
    (hsecond : ∀ word ∈ second, word ∉ e.terminators) (hterminator : terminator ∈ e.terminators)
    (hrest : rest ≠ []) :
    let afterFirst := readEmbedded lookup e { l with tokens := first ++ terminator :: rest }
    let afterSecond := readEmbedded lookup e { l with tokens := second ++ terminator :: rest }
    (afterFirst.tokens = rest ∧ afterFirst.available = l.available) ∧
      (afterSecond.tokens = rest ∧ afterSecond.available = l.available) ∧
      (run lookup afterFirst ended).available = (run lookup afterSecond ended).available ∧
      ∃ records : List Record,
        (run lookup afterFirst ended).history = afterFirst.history
            ++ records.map (Record.renumber (nextOccurrence afterFirst.history)) ∧
          (run lookup afterSecond ended).history = afterSecond.history
            ++ records.map (Record.renumber (nextOccurrence afterSecond.history)) := by
  intro afterFirst afterSecond
  have hrunFirst : run lookup afterFirst ended
      = (run lookup { tokens := rest, available := l.available } ended).after afterFirst :=
    run_readEmbedded_of_terminator lookup e l hfirst hterminator hrest ended
  have hrunSecond : run lookup afterSecond ended
      = (run lookup { tokens := rest, available := l.available } ended).after afterSecond :=
    run_readEmbedded_of_terminator lookup e l hsecond hterminator hrest ended
  refine ⟨⟨?_, available_readEmbedded lookup e _⟩, ⟨?_, available_readEmbedded lookup e _⟩, ?_,
    (run lookup { tokens := rest, available := l.available } ended).history, ?_, ?_⟩
  · exact tokens_readEmbedded_of_terminator lookup e l hfirst hterminator hrest
  · exact tokens_readEmbedded_of_terminator lookup e l hsecond hterminator hrest
  · rw [hrunFirst, hrunSecond]
    rfl
  · rw [hrunFirst]
    rfl
  · rw [hrunSecond]
    rfl

/-- A command that `ls` knows and one that nobody knows, before the same operand. -/
theorem embedded_isolated_search :
    (∀ word ∈ ["ls".toList, "--".toList, "-a".toList], word ∉ [[';'], ['+']]) ∧
      (∀ word ∈ ["frob".toList, "-".toList], word ∉ [[';'], ['+']]) ∧
      [';'] ∈ [[';'], ['+']] ∧
      let outer : Line := { tokens := [], available := searchGrammar.members }
      let afterList := readEmbedded listLookup ⟨[[';'], ['+']]⟩
        { outer with tokens := ["ls".toList, "--".toList, "-a".toList, [';'], "src".toList] }
      let afterUnknown := readEmbedded listLookup ⟨[[';'], ['+']]⟩
        { outer with tokens := ["frob".toList, "-".toList, [';'], "src".toList] }
      (afterList.tokens = ["src".toList] ∧ afterUnknown.tokens = ["src".toList]) ∧
        ∃ records : List Record,
          (run listLookup afterList false).history = afterList.history
              ++ records.map (Record.renumber (nextOccurrence afterList.history)) ∧
            (run listLookup afterUnknown false).history = afterUnknown.history
              ++ records.map (Record.renumber (nextOccurrence afterUnknown.history)) := by
  have hlist : ∀ word ∈ ["ls".toList, "--".toList, "-a".toList], word ∉ [[';'], ['+']] := by decide
  have hunknown : ∀ word ∈ ["frob".toList, "-".toList], word ∉ [[';'], ['+']] := by decide
  have hterminator : [';'] ∈ [[';'], ['+']] := by decide
  obtain ⟨⟨htokens, -⟩, ⟨htokens', -⟩, -, hrecords⟩ := embedded_isolated listLookup
    ⟨[[';'], ['+']]⟩ { tokens := [], available := searchGrammar.members } false hlist hunknown
    hterminator (List.cons_ne_nil "src".toList [])
  exact ⟨hlist, hunknown, hterminator, ⟨htokens, htokens'⟩, hrecords⟩

/-! ### The arguments of an embedded command -/

/-- The specifications of the program that a command runs. -/
def commandMembers (lookup : Text → Option Grammar) (command : Text) : List Member :=
  ((lookup (programName command)).map Grammar.members).getD []

/-- The arguments of a command are read as a line of their own, after what was recorded before. -/
theorem run_nested (lookup : Text → Option Grammar) (l : Line) (command : Text)
    (arguments : List Text) :
    run lookup (nested lookup l command arguments) false
      = (parse lookup arguments (commandMembers lookup command)).after
          (nested lookup l command arguments) :=
  run_eq_after_fresh lookup _ false

/-- **The arguments of an embedded command that ends at a terminator** are recorded as on a line of
their own which ends with them. If the command hands no words over itself, all of them but the last
are recorded as on any line that goes on after them, and so is the last if it begins with no
dash. -/
theorem readEmbedded_terminated (lookup : Text → Option Grammar) (e : Embedding) (l : Line)
    {command last terminator : Text} {arguments rest : List Text}
    (hwords : ∀ word ∈ command :: (arguments ++ [last]), word ∉ e.terminators)
    (hterminator : terminator ∈ e.terminators) (hrest : rest ≠ []) :
    let outer := { l with tokens := command :: (arguments ++ [last]) ++ terminator :: rest }
    let own := parse lookup (arguments ++ [last]) (commandMembers lookup command)
    (∃ closing : Record, closing.stub = terminator ∧
        (outer.readEmbedded lookup e).history
          = (l.pushCommand command).history
            ++ own.history.map (Record.renumber (nextOccurrence (l.pushCommand command).history))
            ++ [closing]) ∧
      (Plain (commandMembers lookup command) → ∃ groups opened closed,
        List.Forall₂ Accounts arguments groups ∧ Accounts last opened ∧ Accounts last closed ∧
        own.history = groups.flatten ++ opened ∧
        (∀ more, more ≠ [] → ∃ groups',
          (parse lookup (arguments ++ last :: more) (commandMembers lookup command)).history
              = groups.flatten ++ closed ++ groups'.flatten ∧
            List.Forall₂ Accounts more groups') ∧
        (isFlagLike last true = false → opened = closed)) := by
  intro outer own
  refine ⟨?_, fun hplain => parse_last_word lookup hplain arguments last⟩
  have hcut : cutEmbedded e.terminators outer.tokens
      = ⟨command :: (arguments ++ [last]), some terminator, rest⟩ :=
    cutEmbedded_of_terminator hwords hterminator hrest
  -- `readEmbedded` looks at how many arguments there are; there is at least one.
  obtain ⟨first, others, hfirst⟩ :=
    List.exists_cons_of_ne_nil (List.concat_ne_nil last arguments)
  rw [hfirst] at hcut
  unfold readEmbedded
  rw [hcut]
  dsimp only
  rw [run_nested, ← hfirst]
  exact ⟨_, rfl, rfl⟩

theorem readEmbedded_terminated_search :
    (∀ word ∈ ["ls".toList, "-a".toList, "src".toList], word ∉ [[';'], ['+']]) ∧
      [';'] ∈ [[';'], ['+']] ∧ Plain (commandMembers listLookup "ls".toList) ∧
      isFlagLike "src".toList true = false ∧
      let own := parse listLookup ["-a".toList, "src".toList] listGrammar.members
      (∃ closing : Record, closing.stub = [';'] ∧
          (readEmbedded listLookup ⟨[[';'], ['+']]⟩
              { tokens := ["ls".toList, "-a".toList, "src".toList, [';'], ".".toList],
                available := searchGrammar.members }).history
            = [commandRecord { tokens := [], available := [] } "ls".toList]
              ++ own.history.map (Record.renumber 1) ++ [closing]) ∧
        ∃ groups, (parse listLookup ["-a".toList, "src".toList, "-".toList]
            listGrammar.members).history = own.history ++ groups.flatten ∧
          List.Forall₂ Accounts ["-".toList] groups := by
  have hwords : ∀ word ∈ "ls".toList :: (["-a".toList] ++ ["src".toList]),
      word ∉ [[';'], ['+']] := by
    decide
  have hterminator : [';'] ∈ [[';'], ['+']] := by decide
  have hplain : Plain (commandMembers listLookup "ls".toList) := by unfold Plain; decide
  obtain ⟨hrecords, hreadings⟩ := readEmbedded_terminated listLookup ⟨[[';'], ['+']]⟩
    { tokens := [], available := searchGrammar.members } hwords hterminator
    (List.cons_ne_nil ".".toList [])
  obtain ⟨groups, opened, closed, -, -, -, hown, hmore, hdash⟩ := hreadings hplain
  obtain ⟨groups', hlonger, hgroups'⟩ := hmore ["-".toList] (List.cons_ne_nil _ _)
  refine ⟨hwords, hterminator, hplain, rfl, hrecords, groups', ?_, hgroups'⟩
  exact hlonger.trans (by rw [← hdash rfl, ← hown]; rfl)

/-- How the records of a line understand its words. -/
def readings (tokens : List Text) (members : List Member) : List (MatchContext × Text) :=
  (parse listLookup tokens members).history.map fun r => (r.context, r.stub)

/-- A lone dash, two dashes and the beginning of a long option are unknown options directly before
a terminator, and an operand, the end of the options and an option before any other word. -/
theorem last_argument_read_as_open :
    (readings ["-exec".toList, "ls".toList, "-".toList, [';'], "src".toList] searchGrammar.members
        = [(.option, "-exec".toList), (.positional, "ls".toList), (.unknownOption, "-".toList),
          (.positional, [';']), (.positional, "src".toList)] ∧
      readings ["-".toList, "src".toList] listGrammar.members
        = [(.positional, "-".toList), (.positional, "src".toList)]) ∧
    (readings ["-exec".toList, "ls".toList, "--".toList, [';'], "src".toList] searchGrammar.members
        = [(.option, "-exec".toList), (.positional, "ls".toList), (.unknownOption, "--".toList),
          (.positional, [';']), (.positional, "src".toList)] ∧
      readings ["--".toList, "src".toList] listGrammar.members
        = [(.option, "--".toList), (.positional, "src".toList)]) ∧
    (readings ["-exec".toList, "ls".toList, "--al".toList, [';'], "src".toList]
          searchGrammar.members
        = [(.option, "-exec".toList), (.positional, "ls".toList), (.unknownOption, "--al".toList),
          (.positional, [';']), (.positional, "src".toList)] ∧
      readings ["--al".toList, "src".toList] listGrammar.members
        = [(.option, "--al".toList), (.positional, "src".toList)]) := by
  refine ⟨⟨?_, ?_⟩, ⟨?_, ?_⟩, ?_, ?_⟩ <;> decide +kernel

end Line

end CommandGrammar
