import CommandGrammar.Completion.Resolve

/-!
# Early and late guesses

A slot is guessed when its grammar is compiled, or, if it was left open, when a line is completed.
Both guesses ask the same table under the same key, and the context of the line does not depend on
the slot that is completed. They differ in what becomes of the answer: a source stored in a slot is
followed through its generators, a source guessed for an open slot is taken as it is. So a hint
that answers with a generator has its generator asked on the first way only, and on the second one
file names are completed.

* `Completion.settleSource_eq`: a settled source is what its generators end in, and a guess if
  they end in a guess;
* `Source.followed_congr`: generators that look at nothing but the context answer the same in
  contexts that say the same;
* `Context.ofHistory_map_bare`: what is known of values does not depend on slots;
* `Completion.provider_of_openGuess`, `Completion.resolve_congr`: where the name of a record
  matters, and where it does not;
* `Completion.resolve_open_guess`: completing an open slot and completing the guessed one.
-/

namespace CommandGrammar

/-! ### Following generators -/

namespace Source

def isGenerator : Source → Bool
  | dynamic _ => true
  | _ => false

/-- The source that a source leads to when at most `limit` generators are asked; a longer chain
leads to nothing. -/
def followed (generators : Generators) (context : Context) : Nat → Source → Source
  | 0, dynamic _ => nothing
  | limit + 1, dynamic generator => followed generators context limit (generators generator context)
  | _, source => source

/-- A source, with another one in place of a guess. -/
def orGuess : Source → Source → Source
  | guess, guessed => guessed
  | source, _ => source

theorem followed_of_not_generator (generators : Generators) (context : Context) {source : Source}
    (h : source.isGenerator = false) (limit : Nat) :
    followed generators context limit source = source := by
  cases source with
  | dynamic generator => exact absurd h (by simp [isGenerator])
  | _ => cases limit <;> rfl

theorem orGuess_self (source : Source) : source.orGuess source = source := by
  cases source <;> rfl

theorem orGuess_of_ne_guess {source : Source} (h : source ≠ .guess) (guessed : Source) :
    source.orGuess guessed = source := by
  cases source with
  | guess => exact absurd rfl h
  | _ => rfl

end Source

namespace Completion

/-- **Settling a source.** The generators are asked first, and what is a guess then is made with
the name and the placeholder of the record. -/
theorem settleSource_eq (generators : Generators) (hints : List GuessRule) (record : Record)
    (context : Context) (limit : Nat) (source : Source) :
    settleSource generators hints record context limit source
      = (source.followed generators context limit).orGuess
          (guessSource record.name record.action.metavar hints) := by
  induction limit generalizing source with
  | zero => cases source <;> rfl
  | succ limit ih =>
    cases source with
    | dynamic generator => exact ih _
    | _ => rfl

end Completion

/-! ### Contexts that say the same -/

/-- Whether two contexts say the same about every name. -/
def Context.Agree (context context' : Context) : Prop :=
  ∀ name, context.get name = context'.get name ∧ context.seen name = context'.seen name

/-- Whether generators answer by what a context says, however it is kept. -/
def Generators.Extensional (generators : Generators) : Prop :=
  ∀ number context context', Context.Agree context context' →
    generators number context = generators number context'

theorem Source.followed_congr {generators : Generators} (h : generators.Extensional)
    {context context' : Context} (hagree : context.Agree context') (limit : Nat)
    (source : Source) :
    followed generators context limit source = followed generators context' limit source := by
  induction limit generalizing source with
  | zero => cases source <;> rfl
  | succ limit ih =>
    cases source with
    | dynamic generator =>
      show followed _ _ limit (generators generator context) = followed _ _ limit _
      rw [h generator context context' hagree]
      exact ih _
    | _ => rfl

/-- A chain of generators that never answer with a guess ends in one only where it begins. -/
theorem Source.followed_ne_guess {generators : Generators}
    (h : ∀ number context, generators number context ≠ .guess) (context : Context) (limit : Nat)
    {source : Source} (hsource : source ≠ .guess) :
    followed generators context limit source ≠ .guess := by
  induction limit generalizing source with
  | zero =>
    cases source with
    | guess => exact absurd rfl hsource
    | _ => exact fun h => nomatch h
  | succ limit ih =>
    cases source with
    | dynamic generator => exact ih (h generator context)
    | guess => exact absurd rfl hsource
    | _ => exact fun h => nomatch h

/-! ### Records without their slots -/

namespace Record

/-- A record that completes its slot from another source. -/
def withSource (r : Record) (source : Source) : Record :=
  { r with action := { r.action with source := source } }

/-- What a record says about values, whatever slot it completes. -/
def bare (r : Record) : Record := { r with action := {} }

end Record

namespace Usage

theorem ofMatches_map_bare (records : List Record) :
    ofMatches (records.map Record.bare)
      = (ofMatches records).map fun u => ⟨u.record.bare, u.values⟩ := by
  induction records with
  | nil => rfl
  | cons r records ih =>
    rw [List.map_cons, ofMatches, ofMatches, ih]
    cases ofMatches records with
    | nil => rfl
    | cons u usages =>
      rw [List.map_cons]
      dsimp only
      -- Neighbours are one match by their numbers, which a bare record keeps.
      show (if u.record.occurrence = r.occurrence then _ else _) = _
      split <;> rfl

theorem ofHistory_map_bare (history : List Record) :
    ofHistory (history.map Record.bare)
      = (ofHistory history).map fun u => ⟨u.record.bare, u.values⟩ := by
  have hfilter : (history.map Record.bare).filter Record.isMatch
      = (history.filter Record.isMatch).map Record.bare := List.filter_map
  rw [ofHistory, hfilter, ofMatches_map_bare]
  rfl

end Usage

namespace Context

/-- **The context of a trace does not depend on slots.** -/
theorem ofHistory_map_bare (history : List Record) :
    ofHistory (history.map Record.bare) = ofHistory history := by
  rw [ofHistory, Usage.ofHistory_map_bare, List.foldl_map]
  rfl

theorem ofHistory_withSource (earlier : List Record) (r : Record) (source : Source) :
    ofHistory (earlier ++ [r.withSource source]) = ofHistory (earlier ++ [r]) := by
  rw [← ofHistory_map_bare, ← ofHistory_map_bare (earlier ++ [r]), List.map_append,
    List.map_append]
  rfl

end Context

/-! ### Completing an open slot -/

namespace Completion

/-- Whether a guess is left to be made when the last word of a trace is completed. -/
def OpenGuess (generators : Generators) (history : List Record) : Prop :=
  ∃ r, history.getLast? = some r ∧
    r.action.source.followed generators (Context.ofHistory history) generatorLimit = .guess

section LastRecord

variable (generators : Generators) (options : ResolveOptions) {history : List Record} {r : Record}
  (hlast : history.getLast? = some r)

include hlast

/-- What completes a trace is said by its last record, and by the context where generators ask
for it. -/
theorem resolve_of_last :
    resolve generators options history
      = { provider := providerOf
            ((r.action.source.followed generators (Context.ofHistory history)
              generatorLimit).orGuess (guessSource r.name r.action.metavar options.guesses)),
          suffix := r.action.suffix.getD [' '],
          stub := r.stub,
          context := some r.context,
          name := some r.name,
          metavar := r.action.metavar,
          showNotes := options.showNotes,
          noteWidth := options.noteWidth } := by
  unfold resolve
  rw [hlast, ← settleSource_eq]

theorem openGuess_iff :
    OpenGuess generators history ↔
      r.action.source.followed generators (Context.ofHistory history) generatorLimit
        = .guess := by
  constructor
  · rintro ⟨r', hlast', hguess⟩
    obtain rfl : r = r' := Option.some.inj (hlast.symm.trans hlast')
    exact hguess
  · exact fun hguess => ⟨r, hlast, hguess⟩

/-- An open guess is made under the name of the last record. -/
theorem provider_of_openGuess (hopen : OpenGuess generators history) :
    (resolve generators options history).provider
      = providerOf (guessSource r.name r.action.metavar options.guesses) := by
  rw [resolve_of_last generators options hlast, (openGuess_iff generators hlast).1 hopen]
  rfl

/-- Without an open guess the name does not matter. -/
theorem provider_of_not_openGuess (hsettled : ¬ OpenGuess generators history) :
    (resolve generators options history).provider
      = providerOf (r.action.source.followed generators (Context.ofHistory history)
          generatorLimit) := by
  rw [openGuess_iff generators hlast] at hsettled
  rw [resolve_of_last generators options hlast, Source.orGuess_of_ne_guess hsettled]

end LastRecord

section TwoTraces

variable {generators : Generators} (hgenerators : generators.Extensional) {r r' : Record}
  {history history' : List Record} (haction : r.action = r'.action)
  (hagree : (Context.ofHistory history).Agree (Context.ofHistory history'))

include hgenerators haction hagree

/-- Where two traces say the same, their last slots end in the same source. -/
theorem followed_last_congr :
    r.action.source.followed generators (Context.ofHistory history) generatorLimit
      = r'.action.source.followed generators (Context.ofHistory history') generatorLimit := by
  rw [haction]
  exact Source.followed_congr hgenerators hagree generatorLimit _

variable (hlast : history.getLast? = some r) (hlast' : history'.getLast? = some r')

include hlast hlast'

theorem openGuess_congr : OpenGuess generators history ↔ OpenGuess generators history' := by
  rw [openGuess_iff generators hlast, openGuess_iff generators hlast',
    followed_last_congr hgenerators haction hagree]

/-- **Traces that complete the same slot** and say the same complete the same, whatever name they
give the slot, unless it is still to be guessed. -/
theorem resolve_congr (options : ResolveOptions) :
    let completion := resolve generators options history
    let completion' := resolve generators options history'
    completion.suffix = completion'.suffix ∧ completion.metavar = completion'.metavar ∧
      (¬ OpenGuess generators history → completion.provider = completion'.provider) := by
  intro completion completion'
  have hfollowed := followed_last_congr hgenerators haction hagree
  have hopen := openGuess_congr hgenerators haction hagree hlast hlast'
  have hresolve : completion = _ := resolve_of_last generators options hlast
  have hresolve' : completion' = _ := resolve_of_last generators options hlast'
  refine ⟨?_, ?_, fun hclosed => ?_⟩
  · rw [hresolve, hresolve', haction]
  · rw [hresolve, hresolve', haction]
  · have hclosed' := fun hopen' => hclosed (hopen.2 hopen')
    have hprovider := provider_of_not_openGuess generators options hlast hclosed
    have hprovider' := provider_of_not_openGuess generators options hlast' hclosed'
    exact (hprovider.trans (congrArg providerOf hfollowed)).trans hprovider'.symm

end TwoTraces

variable (generators : Generators) (options : ResolveOptions) (earlier : List Record)

/-- Another source in the last slot makes another provider, and changes nothing else. -/
theorem resolve_withSource (r : Record) (source : Source) :
    resolve generators options (earlier ++ [r.withSource source])
      = { resolve generators options (earlier ++ [r]) with
          provider := providerOf
            ((source.followed generators (Context.ofHistory (earlier ++ [r]))
              generatorLimit).orGuess (guessSource r.name r.action.metavar options.guesses)) } := by
  rw [resolve_of_last generators options List.getLast?_concat, Context.ofHistory_withSource,
    resolve_of_last generators options List.getLast?_concat]
  rfl

/-- **Completing an open slot.** It is completed as the slot with the guessed source is, in all but
one case: a guessed generator is not asked, and file names are completed. -/
theorem resolve_open_guess (r : Record) :
    let guessed := guessSource r.name r.action.metavar options.guesses
    let early := resolve generators options (earlier ++ [r.withSource guessed])
    resolve generators options (earlier ++ [r.withSource .guess])
      = if guessed.isGenerator then { early with provider := .files } else early := by
  intro guessed early
  have hlate := resolve_withSource generators options earlier r .guess
  have hearly : early = _ := resolve_withSource generators options earlier r guessed
  rw [hlate, hearly]
  cases hgenerator : guessed.isGenerator with
  | true =>
    have hfiles : providerOf guessed = .files := by
      cases hguessed : guessed with
      | dynamic generator => rfl
      | _ => exact absurd hgenerator (by rw [hguessed]; exact Bool.false_ne_true)
    rw [if_pos rfl, ← hfiles]
    rfl
  | false =>
    have hsettled : (guessed.followed generators (Context.ofHistory (earlier ++ [r]))
        generatorLimit).orGuess guessed = guessed := by
      rw [Source.followed_of_not_generator generators _ hgenerator, Source.orGuess_self]
    rw [if_neg Bool.false_ne_true, hsettled]
    rfl

def listing : Generators := fun _ _ => .literal ["a".toList, "b".toList]

/-- Hints that leave every slot to a generator. -/
def generatorHints : List GuessRule := [⟨[], .nothing, .dynamic 0⟩]

/-- The guessed generator is asked for a slot that stores it, and not for an open one. -/
theorem open_guess_not_asked :
    let r : Record := { name := "-x".toList, action := .guessed "X".toList }
    (resolve listing { guesses := generatorHints } [r.withSource .guess]).provider
      ≠ (resolve listing { guesses := generatorHints } [r.withSource
          (guessSource r.name r.action.metavar generatorHints)]).provider := by
  decide

end Completion

end CommandGrammar
