import CommandGrammar.Proofs.Guessing

/-!
# Chains of generators

A generator may answer with another generator, and what it answers may depend on all that was typed
before, so a chain of them may run in a circle or go on forever. Settling a source asks eight of
them at most, one after the other and each with the context of the whole line. A chain that has
come to something else by then is completed as if its end stood in the slot itself; one that has
not completes nothing.

To speak of calls, `resolveWith` is `resolve` with generators that are asked in a monad; in one
that notes every call it gives the completion together with the calls.

* `Source.Leads`: which generators a source leads through, and where to;
* `Completion.resolveWith_noting`: the completion and the calls made for it;
* `Completion.resolve_congr_calls`: no other answers matter;
* `Completion.generators_followed`: the bound, and what lies on either side of it.
-/

namespace CommandGrammar

namespace Source

/-! ### Where a chain leads -/

section Chain

variable (generators : Generators) (context : Context)

/-- Asking some generators one after the other, each because the one before answered with it, leads
from a source to another one. -/
inductive Leads : List Nat → Source → Source → Prop
  | here (source : Source) : Leads [] source source
  | asked {generator : Nat} {later : List Nat} {last : Source} :
    Leads later (generators generator context) last →
      Leads (generator :: later) (dynamic generator) last

/-- The generators asked for a source if at most `limit` may be. -/
def calls : Nat → Source → List Nat
  | limit + 1, dynamic generator => generator :: calls limit (generators generator context)
  | _, _ => []

theorem length_calls_le (limit : Nat) (source : Source) :
    (calls generators context limit source).length ≤ limit := by
  induction limit generalizing source with
  | zero => cases source <;> exact Nat.le_refl 0
  | succ limit ih =>
    cases source with
    | dynamic generator => exact Nat.succ_le_succ (ih _)
    | _ => exact Nat.zero_le _

/-- The generators asked for a source are those it leads through. -/
theorem exists_leads_calls (limit : Nat) (source : Source) :
    ∃ last, Leads generators context (calls generators context limit source) source last := by
  induction limit generalizing source with
  | zero => exact ⟨source, by cases source <;> exact .here _⟩
  | succ limit ih =>
    cases source with
    | dynamic generator =>
      obtain ⟨last, hleads⟩ := ih (generators generator context)
      exact ⟨last, .asked hleads⟩
    | _ => exact ⟨_, .here _⟩

end Chain

section Reached

variable {generators : Generators} {context : Context} {asked : List Nat} {source last : Source}

theorem calls_of_not_generator (h : source.isGenerator = false) (limit : Nat) :
    calls generators context limit source = [] := by
  cases source with
  | dynamic generator => exact nomatch h
  | _ => cases limit <;> rfl

/-- **A chain that ends in time** is followed to its end. -/
theorem Leads.settled (h : Leads generators context asked source last)
    (hlast : last.isGenerator = false) {limit : Nat} (hlimit : asked.length ≤ limit) :
    calls generators context limit source = asked ∧
      followed generators context limit source = last := by
  induction h generalizing limit with
  | here source =>
    exact ⟨calls_of_not_generator hlast limit, followed_of_not_generator _ _ hlast limit⟩
  | @asked generator later last _ ih =>
    cases limit with
    | zero => exact absurd hlimit (Nat.not_succ_le_zero _)
    | succ limit =>
      obtain ⟨hcalls, hfollowed⟩ := ih hlast (Nat.le_of_succ_le_succ hlimit)
      exact ⟨congrArg (generator :: ·) hcalls, hfollowed⟩

/-- **A chain that goes on** is followed as far as the limit, and then given up. -/
theorem Leads.given_up (h : Leads generators context asked source last)
    (hlast : last.isGenerator = true) :
    calls generators context asked.length source = asked ∧
      followed generators context asked.length source = nothing := by
  induction h with
  | here source =>
    cases source with
    | dynamic generator => exact ⟨rfl, rfl⟩
    | _ => exact nomatch hlast
  | @asked generator later last _ ih =>
    obtain ⟨hcalls, hfollowed⟩ := ih hlast
    exact ⟨congrArg (generator :: ·) hcalls, hfollowed⟩

/-- What a source ends in depends on what the generators asked for it answer. -/
theorem followed_congr_calls {other : Generators} {limit : Nat} {source : Source}
    (h : ∀ generator ∈ calls generators context limit source,
      other generator context = generators generator context) :
    followed other context limit source = followed generators context limit source := by
  induction limit generalizing source with
  | zero => cases source <;> rfl
  | succ limit ih =>
    cases source with
    | dynamic generator =>
      obtain ⟨hfirst, hlater⟩ := List.forall_mem_cons.1 h
      show followed other context limit (other generator context)
        = followed generators context limit (generators generator context)
      rw [hfirst]
      exact ih hlater
    | _ => rfl

end Reached

end Source

namespace Completion

/-! ### Noting the calls -/

section Asking

variable {m : Type → Type} [Monad m] (ask : Nat → Context → m Source)

/-- The source that a source stands for, where generators are asked in a monad. -/
def settleWith (hints : List GuessRule) (record : Record) (context : Context) :
    Nat → Source → m Source
  | _, .guess => pure (guessSource record.name record.action.metavar hints)
  | 0, .dynamic _ => pure .nothing
  | limit + 1, .dynamic generator => do
    let source ← ask generator context
    settleWith hints record context limit source
  | _, source => pure source

/-- The completion of a word whose slot has come to a source. -/
def ofSettled (options : ResolveOptions) (last : Record) (source : Source) : Completion :=
  { provider := providerOf source,
    suffix := last.action.suffix.getD [' '],
    stub := last.stub,
    context := some last.context,
    name := some last.name,
    metavar := last.action.metavar,
    showNotes := options.showNotes,
    noteWidth := options.noteWidth }

/-- The completion of the last word of a trace, where generators are asked in a monad. -/
def resolveWith (options : ResolveOptions) (history : List Record) : m Completion :=
  match history.getLast? with
  | none =>
    pure { provider := .files, showNotes := options.showNotes, noteWidth := options.noteWidth }
  | some last => do
    let context := Context.ofHistory history
    let source ← settleWith ask options.guesses last context generatorLimit last.action.source
    pure (ofSettled options last source)

end Asking

/-- What a generator answers; the call is noted behind those made before. -/
def noting (generators : Generators) (generator : Nat) (context : Context) :
    StateM (List (Nat × Context)) Source := do
  modify (· ++ [(generator, context)])
  pure (generators generator context)

section Trace

variable (generators : Generators) (options : ResolveOptions) (history : List Record)

theorem settleWith_noting (hints : List GuessRule) (record : Record) (context : Context)
    (limit : Nat) (source : Source) (before : List (Nat × Context)) :
    (settleWith (noting generators) hints record context limit source).run before
      = (settleSource generators hints record context limit source,
          before ++ (source.calls generators context limit).map (·, context)) := by
  induction limit generalizing source before with
  | zero => cases source <;> exact congrArg (Prod.mk _) (List.append_nil before).symm
  | succ limit ih =>
    cases source with
    | dynamic generator =>
      have hlater := ih (generators generator context) (before ++ [(generator, context)])
      rw [List.append_assoc] at hlater
      exact hlater
    | _ => exact congrArg (Prod.mk _) (List.append_nil before).symm

/-- The generators asked for the last word of a trace. -/
def callsFor : List Nat :=
  match history.getLast? with
  | none => []
  | some last =>
    last.action.source.calls generators (Context.ofHistory history) generatorLimit

/-- **Completing with calls noted** gives the completion, and each call was made with the context
of the whole trace. -/
theorem resolveWith_noting :
    (resolveWith (noting generators) options history).run []
      = (resolve generators options history,
          (callsFor generators history).map (·, Context.ofHistory history)) := by
  unfold resolveWith resolve callsFor
  cases history.getLast? with
  | none => rfl
  | some last =>
    have hsettled := settleWith_noting generators options.guesses last
      (Context.ofHistory history) generatorLimit last.action.source []
    exact congrArg (fun settled => (ofSettled options last settled.1, settled.2)) hsettled

theorem length_callsFor_le : (callsFor generators history).length ≤ generatorLimit := by
  unfold callsFor
  cases history.getLast? with
  | none => exact Nat.zero_le _
  | some last => exact Source.length_calls_le _ _ _ _

/-- **No other answers matter** than those of the calls. -/
theorem resolve_congr_calls {other : Generators}
    (h : ∀ generator ∈ callsFor generators history,
      other generator (Context.ofHistory history)
        = generators generator (Context.ofHistory history)) :
    resolve other options history = resolve generators options history := by
  cases hlast : history.getLast? with
  | none =>
    unfold resolve
    rw [hlast]
  | some last =>
    unfold callsFor at h
    rw [hlast] at h
    rw [resolve_of_last other options hlast, resolve_of_last generators options hlast,
      Source.followed_congr_calls h]

/-! ### Either side of the bound -/

section Chain

variable {generators history} {r : Record} (hlast : history.getLast? = some r)

include hlast

theorem callsFor_eq :
    callsFor generators history
      = r.action.source.calls generators (Context.ofHistory history) generatorLimit := by
  unfold callsFor
  rw [hlast]

variable {asked : List Nat} {last : Source}
  (hleads : Source.Leads generators (Context.ofHistory history) asked r.action.source last)

include hleads

/-- **A chain that ends in time** is completed as if its end stood in the slot. -/
theorem resolve_of_leads (hend : last.isGenerator = false)
    (hlimit : asked.length ≤ generatorLimit) :
    callsFor generators history = asked ∧
      resolve generators options history
        = resolve generators options (history.dropLast ++ [r.withSource last]) ∧
      (resolve generators options history).provider
        = providerOf (last.orGuess (guessSource r.name r.action.metavar options.guesses)) := by
  obtain ⟨hcalls, hfollowed⟩ := hleads.settled hend hlimit
  have hdirect := resolve_of_last generators options
    (List.getLast?_concat (l := history.dropLast) (a := r.withSource last))
  have hstored : (r.withSource last).action.source.followed generators
      (Context.ofHistory (history.dropLast ++ [r.withSource last])) generatorLimit = last :=
    Source.followed_of_not_generator _ _ hend _
  rw [hstored] at hdirect
  have hchained := resolve_of_last generators options hlast
  rw [hfollowed] at hchained
  exact ⟨(callsFor_eq hlast).trans hcalls, hchained.trans hdirect.symm,
    congrArg Completion.provider hchained⟩

/-- **A chain that has not ended** at the limit completes nothing, not even file names. -/
theorem resolve_given_up (hgoes : last.isGenerator = true)
    (hlimit : asked.length = generatorLimit) :
    callsFor generators history = asked ∧
      (resolve generators options history).provider = .nothing := by
  have hgiven := hleads.given_up hgoes
  rw [hlimit] at hgiven
  have hchained := resolve_of_last generators options hlast
  rw [hgiven.2] at hchained
  exact ⟨(callsFor_eq hlast).trans hgiven.1, congrArg Completion.provider hchained⟩

end Chain

end Trace

/-- **Generators are followed to a bound and no further.** Completing a trace asks eight generators
at most, all of them with the context of the whole trace, and no other answers matter. The
generators asked are those that the slot of the last word leads through. If they lead to a source
that is left to no generator, in eight calls or fewer, the completion is the one this source would
have if it stood in the slot, a guess being made with the name and the placeholder of the slot. If
the eighth one still answers with a generator, there is no candidate, and no file names in place
of it. -/
theorem generators_followed (generators : Generators) (options : ResolveOptions)
    (history : List Record) :
    let context := Context.ofHistory history
    let completion := resolve generators options history
    ∃ calls : List Nat, calls.length ≤ 8 ∧
      (resolveWith (noting generators) options history).run []
        = (completion, calls.map (·, context)) ∧
      (∀ other : Generators,
        (∀ generator ∈ calls, other generator context = generators generator context) →
          resolve other options history = completion) ∧
      ∀ r, history.getLast? = some r →
        (∃ last, Source.Leads generators context calls r.action.source last) ∧
        ∀ asked last, Source.Leads generators context asked r.action.source last →
          (last.isGenerator = false → asked.length ≤ 8 →
            calls = asked ∧
              completion = resolve generators options (history.dropLast ++ [r.withSource last]) ∧
              completion.provider
                = providerOf (last.orGuess (guessSource r.name r.action.metavar options.guesses))) ∧
          (last.isGenerator = true → asked.length = 8 →
            calls = asked ∧ completion.allowsFallback = false ∧
              ∀ [Widths] host stub, completion.candidatesFor host stub = []) := by
  intro context completion
  refine ⟨callsFor generators history, length_callsFor_le generators history,
    resolveWith_noting generators options history,
    fun other h => resolve_congr_calls generators options history h, ?_⟩
  intro r hlast
  constructor
  · rw [callsFor_eq hlast]
    exact Source.exists_leads_calls generators context generatorLimit r.action.source
  · intro asked last hleads
    constructor
    · exact resolve_of_leads options hlast hleads
    · intro hgoes hlimit
      obtain ⟨hcalls, hnothing⟩ := resolve_given_up options hlast hleads hgoes hlimit
      have hprovider : completion.provider = .nothing := hnothing
      refine ⟨hcalls, ?_, fun [Widths] host stub => ?_⟩
      · rw [allowsFallback, hprovider]
        rfl
      · rw [candidatesFor, hprovider]
        rfl

/-- The first generator passes on to the second, which has the slot guessed if its option was seen;
the third one passes on to itself. -/
def relay : Generators := fun generator context =>
  if generator = 0 then .dynamic 1
  else if generator = 1 then if context.seen "-C".toList then .guess else .nothing
  else .dynamic 2

theorem generators_followed_relay :
    let change : Spec := { name := .flag "-C".toList }
    let slot (first : Nat) : Record :=
      { name := "-C".toList, member := some ⟨⟨"tool".toList, 0, 0⟩, change⟩,
        action := { metavar := "DIR".toList, source := .dynamic first }, slot := some 0 }
    Source.Leads relay (Context.ofHistory [slot 0]) [0, 1] (.dynamic 0) .guess ∧
      (resolve relay {} [slot 0]).provider
        = providerOf (guessSource "-C".toList "DIR".toList []) ∧
      Source.Leads relay (Context.ofHistory [slot 2]) (List.replicate 8 2) (.dynamic 2)
        (.dynamic 2) ∧
      (resolve relay {} [slot 2]).allowsFallback = false := by
  intro change slot
  have hseen : relay 1 (Context.ofHistory [slot 0]) = .guess := by decide
  have hends : Source.Leads relay (Context.ofHistory [slot 0]) [0, 1] (.dynamic 0) .guess :=
    .asked (.asked (hseen ▸ .here _))
  have hloops : Source.Leads relay (Context.ofHistory [slot 2]) (List.replicate 8 2) (.dynamic 2)
      (.dynamic 2) :=
    .asked (.asked (.asked (.asked (.asked (.asked (.asked (.asked (.here _))))))))
  obtain ⟨_, -, -, -, hended⟩ := generators_followed relay {} [slot 0]
  obtain ⟨_, -, -, -, hlooped⟩ := generators_followed relay {} [slot 2]
  exact ⟨hends, (((hended _ rfl).2 _ _ hends).1 rfl (by decide)).2.2, hloops,
    (((hlooped _ rfl).2 _ _ hloops).2 rfl rfl).2.1⟩

end Completion

end CommandGrammar
