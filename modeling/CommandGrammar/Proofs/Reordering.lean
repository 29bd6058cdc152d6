import Mathlib.Data.List.Forall2
import CommandGrammar.Proofs.Availability
import CommandGrammar.Proofs.Compiled

/-!
# The order of the options does not matter

A lookup that answers with one option looks at all of them: at those with the spelling of the word,
at those whose value it carries, at those it abbreviates. If no spelling stands twice, each of these
collections has one member, or the order of its members is of no account; and operands look at the
positional slots alone. So a line is read in the same way whatever the order of its options is, and
only the candidates of a slot that offers all options come in another order.

* `Reordered`: lists of members that differ in the order of their options;
* `Line.Alike`: lines that differ in this order;
* `step_alike`: one word;
* `run_alike`: a whole line, at every level of it;
* `parse_reordered`: reading a line with reordered options.
-/

namespace CommandGrammar

open Line

/-! ### Records -/

/-- Whether two slots offer all options of some members, with the same candidates in any order. -/
structure Action.OffersLike (a a' : Action) : Prop where
  catchAll : ∃ members members', a = Line.catchAll members ∧ a' = Line.catchAll members'
  candidates : ∃ candidates candidates', candidates.Perm candidates' ∧
    a.source = .static 0 (.listed candidates) ∧ a'.source = .static 0 (.listed candidates')

/-- Whether two records are equal but for the order of the options that they offer. -/
structure Record.Alike (r r' : Record) : Prop where
  others : r' = { r with action := r'.action }
  action : r'.action = r.action ∨ r.action.OffersLike r'.action

theorem Record.Alike.refl (r : Record) : r.Alike r := ⟨rfl, Or.inl rfl⟩

instance : Std.Refl Record.Alike := ⟨Record.Alike.refl⟩

/-- The next number of a match is the same after records that are alike. -/
theorem nextOccurrence_alike {history history' : List Record}
    (h : List.Forall₂ Record.Alike history history') :
    nextOccurrence history' = nextOccurrence history := by
  unfold nextOccurrence
  generalize 0 = bound
  induction h generalizing bound with
  | nil => rfl
  | cons hr _ ih =>
    have hoccurrence := congrArg Record.occurrence hr.others
    dsimp only at hoccurrence
    rw [List.foldl_cons, List.foldl_cons, hoccurrence, ih]

/-! ### Members -/

/-- A list and its permutations are empty together, have one and the same item, or have more. -/
theorem perm_cases {α : Type} {items items' : List α} (h : items.Perm items') :
    (items = [] ∧ items' = []) ∨ (∃ a, items = [a] ∧ items' = [a]) ∨
      ∃ a b rest, items = a :: b :: rest ∧ ∃ a' b' rest', items' = a' :: b' :: rest' := by
  have hlength := h.length_eq
  match items, items' with
  | [], [] => exact Or.inl ⟨rfl, rfl⟩
  | [a], [a'] => exact Or.inr (Or.inl ⟨a, rfl, (List.perm_singleton.1 h.symm)⟩)
  | a :: b :: rest, a' :: b' :: rest' =>
    exact Or.inr (Or.inr ⟨a, b, rest, rfl, a', b', rest', rfl⟩)
  | [], _ :: _ => simp at hlength
  | _ :: _, [] => simp at hlength
  | [_], _ :: _ :: _ => simp at hlength
  | _ :: _ :: _, [_] => simp at hlength

/-- Whether two lists of members differ in the order of their options only. Those of one spelling,
if there are several, come in the same order in both. -/
structure Reordered (members members' : List Member) : Prop where
  perm : members.Perm members'
  positionals : members'.filter (fun m => m.spec.isPositional)
    = members.filter fun m => m.spec.isPositional
  spelled : ∀ flag : Text, members'.filter (fun m => m.spec.flag? == some flag)
    = members.filter fun m => m.spec.flag? == some flag

namespace Reordered

theorem refl (members : List Member) : Reordered members members :=
  ⟨List.Perm.refl members, rfl, fun _ => rfl⟩

/-- If no spelling stands twice, a reordering that keeps the positional slots in order is one. -/
theorem of_nodup {members members' : List Member} (hnodup : (flagsOf members).Nodup)
    (hperm : members.Perm members')
    (hpositionals : members'.filter (fun m => m.spec.isPositional)
      = members.filter fun m => m.spec.isPositional) : Reordered members members' := by
  refine ⟨hperm, hpositionals, fun flag => ?_⟩
  rcases perm_cases (hperm.filter fun m => m.spec.flag? == some flag) with
    ⟨hnone, hnone'⟩ | ⟨m, hone, hone'⟩ | ⟨m, other, rest, hmany, -⟩
  · rw [hnone, hnone']
  · rw [hone, hone']
  · -- Both of the first two would be spelled so.
    have hflag : ∀ s ∈ m :: other :: rest, s.spec.flag? = some flag := by
      intro s hs
      rw [← hmany] at hs
      exact beq_iff_eq.1 (List.mem_filter.1 hs).2
    have hsub : (m :: other :: rest).Sublist members := hmany ▸ List.filter_sublist
    have htwice := (hsub.filterMap fun m : Member => m.spec.flag?).nodup hnodup
    simp [hflag m, hflag other] at htwice

variable {members members' : List Member} (h : Reordered members members')

include h

theorem filter (p : Member → Bool) : Reordered (members.filter p) (members'.filter p) where
  perm := h.perm.filter p
  positionals := by
    rw [List.filter_comm, h.positionals, List.filter_comm]
  spelled := by
    intro flag
    rw [List.filter_comm, h.spelled, List.filter_comm]

/-- What a match leaves of two lists is reordered again. -/
theorem remaining (matched : Spec) :
    Reordered (Line.remaining members matched) (Line.remaining members' matched) := h.filter _

/-! ### Lookups -/

theorem exactly?_eq (token : Text) : exactly? members' token = exactly? members token := by
  unfold exactly?
  rw [← List.head?_filter, h.spelled, List.head?_filter]

theorem longestFits_perm (token : Text) :
    (longestFits (inlineFits members token)).Perm (longestFits (inlineFits members' token)) := by
  have hfits : (inlineFits members token).Perm (inlineFits members' token) := h.perm.filterMap _
  unfold longestFits
  simp only [hfits.all_eq]
  exact hfits.filter _

theorem abbreviation_eq (token : Text) (isLast : Bool) :
    abbreviation members' token isLast = abbreviation members token isLast := by
  have habbreviated : ∀ name, (abbreviated members name).Perm (abbreviated members' name) :=
    fun name => h.perm.filter _
  unfold abbreviation
  cases Text.cutAt? (· == '=') token with
  | some cut =>
    obtain ⟨name, value⟩ := cut
    rcases perm_cases (habbreviated name) with
      ⟨hnone, hnone'⟩ | ⟨m, hone, hone'⟩ | ⟨m, other, rest, hmany, m', other', rest', hmany'⟩
    · simp only [hnone, hnone']
    · simp only [hone, hone']
    · simp only [hmany, hmany']
  | none =>
    rcases perm_cases (habbreviated token) with
      ⟨hnone, hnone'⟩ | ⟨m, hone, hone'⟩ | ⟨m, other, rest, hmany, m', other', rest', hmany'⟩
    · simp only [hnone, hnone']
    · simp only [hone, hone']
    · simp only [hmany, hmany']

/-- **A word names the same option** in two orders. -/
theorem findOption_eq (token : Text) (isLast : Bool) :
    findOption members' token isLast = findOption members token isLast := by
  unfold findOption
  rw [h.exactly?_eq, h.abbreviation_eq]
  rcases perm_cases (h.longestFits_perm token) with
    ⟨hnone, hnone'⟩ | ⟨fit, hone, hone'⟩ | ⟨fit, other, rest, hmany, fit', other', rest', hmany'⟩
  · rw [hnone, hnone']
  · rw [hone, hone']
  · simp only [hmany, hmany']

theorem splitCluster_eq (token : Text) (isLast : Bool) :
    splitCluster members' token isLast = splitCluster members token isLast := by
  have hgrows : growsIntoFlag members' token = growsIntoFlag members token := h.perm.symm.any_eq
  unfold splitCluster
  simp only [hgrows, h.exactly?_eq]

theorem firstPositional?_eq : firstPositional? members' = firstPositional? members := by
  unfold firstPositional?
  rw [h.positionals]

theorem wantsOption_eq (flagLike : Bool) :
    wantsOption members' flagLike = wantsOption members flagLike := by
  unfold wantsOption
  simp only [h.perm.symm.any_eq]

/-- The slots that offer all options have the same candidates. -/
theorem offersLike_catchAll : (catchAll members).OffersLike (catchAll members') :=
  ⟨⟨members, members', rfl, rfl⟩, _, _, h.perm.filterMap _, rfl, rfl⟩

end Reordered

namespace Line

/-! ### Lines -/

/-- Whether two lines differ only in the order of their options, and their traces in the order of
what was offered. -/
structure Alike (l l' : Line) : Prop where
  tokens : l'.tokens = l.tokens
  available : Reordered l.available l'.available
  history : List.Forall₂ Record.Alike l.history l'.history
  consulted : l'.consulted = l.consulted

/-- Whether two readings of a word lead to lines that are alike and hand words over alike. -/
structure ReadAlike (read read' : Line × Option Embedding) : Prop where
  line : read.1.Alike read'.1
  embedded : read'.2 = read.2

namespace Alike

variable {l l' : Line} (h : l.Alike l')

include h

theorem nextOccurrence_eq : nextOccurrence l'.history = nextOccurrence l.history :=
  nextOccurrence_alike h.history

/-- More records that are alike keep lines alike, whatever becomes unavailable. -/
theorem append (tokens : List Text) {available available' : List Member}
    (havailable : Reordered available available') {records records' : List Record}
    (hrecords : List.Forall₂ Record.Alike records records') :
    Alike { l with tokens := tokens, available := available, history := l.history ++ records }
      { l' with tokens := tokens, available := available', history := l'.history ++ records' } :=
  ⟨rfl, havailable, List.rel_append h.history hrecords, h.consulted⟩

theorem push {r r' : Record} (hr : r.Alike r') : (l.push r).Alike (l'.push r') :=
  ⟨h.tokens, h.available, List.rel_append h.history (.cons hr .nil), h.consulted⟩

theorem withTokens (tokens : List Text) :
    Alike { l with tokens := tokens } { l' with tokens := tokens } :=
  ⟨rfl, h.available, h.history, h.consulted⟩

/-! ### One word -/

theorem nameRecord (m : Member) (token : Text) :
    (l.nameRecord m token).Alike (l'.nameRecord m token) := by
  refine ⟨?_, Or.inr h.available.offersLike_catchAll⟩
  unfold Line.nameRecord
  rw [h.nextOccurrence_eq]

theorem unknownRecord (context : MatchContext) (token : Text) :
    (l.unknownRecord context token).Alike (l'.unknownRecord context token) := by
  refine ⟨?_, Or.inr h.available.offersLike_catchAll⟩
  unfold Line.unknownRecord
  rw [h.nextOccurrence_eq]

theorem acceptUnknown (context : MatchContext) (token : Text) :
    ReadAlike (l.acceptUnknown context token) (l'.acceptUnknown context token) :=
  ⟨h.push (h.unknownRecord context token), rfl⟩

theorem fillSlots (m : Member) (occurrence : Nat) (values : List Text) :
    ReadAlike (l.fillSlots m occurrence values) (l'.fillSlots m occurrence values) := by
  unfold Line.fillSlots
  rw [h.tokens]
  cases m.spec.embedded with
  | some e => exact ⟨h, rfl⟩
  | none => exact ⟨h.append _ h.available (List.forall₂_refl _), rfl⟩

theorem acceptNamed (m : Member) (token : Text) :
    ReadAlike (l.acceptNamed m token) (l'.acceptNamed m token) := by
  have hmatched := h.append l.tokens (h.available.remaining m.spec)
    (.cons (h.nameRecord m token) .nil)
  unfold Line.acceptNamed
  rw [h.nextOccurrence_eq, h.tokens]
  exact hmatched.fillSlots m _ _

theorem acceptInline (m : Member) (value : Text) :
    ReadAlike (l.acceptInline m value) (l'.acceptInline m value) := by
  unfold Line.acceptInline
  rw [h.nextOccurrence_eq, h.tokens]
  exact (h.append l.tokens (h.available.remaining m.spec) (List.forall₂_refl _)).fillSlots m _ _

theorem acceptCluster (m : Member) (rest : Text) :
    ReadAlike (l.acceptCluster m rest) (l'.acceptCluster m rest) := by
  unfold Line.acceptCluster
  rw [h.tokens]
  split
  · exact h.acceptInline m rest
  · exact (h.withTokens _).acceptNamed m _

theorem acceptOperand (ended : Bool) (m : Member) (token : Text) :
    ReadAlike (l.acceptOperand ended m token) (l'.acceptOperand ended m token) := by
  unfold Line.acceptOperand
  rw [h.nextOccurrence_eq, h.tokens]
  have hmatched := h.append l.tokens (h.available.remaining m.spec) (List.forall₂_refl
    [operandRecord m (nextOccurrence l.history) 0 [] token])
  dsimp only
  cases m.spec.embedded with
  | some e => exact ⟨hmatched, rfl⟩
  | none =>
    dsimp only
    split
    · exact ⟨hmatched.append _ hmatched.available (List.forall₂_refl _), rfl⟩
    · exact ⟨hmatched, rfl⟩

theorem readOperand (ended : Bool) (token : Text) :
    ReadAlike (l.readOperand ended token) (l'.readOperand ended token) := by
  unfold Line.readOperand
  rw [h.available.firstPositional?_eq]
  cases firstPositional? l.available with
  | some m => exact h.acceptOperand ended m token
  | none => exact h.acceptUnknown .unknownPositional token

theorem readOption (token : Text) : ReadAlike (l.readOption token) (l'.readOption token) := by
  unfold Line.readOption
  dsimp only
  rw [h.tokens, h.available.findOption_eq, h.available.splitCluster_eq]
  cases findOption l.available token l.tokens.isEmpty with
  | named m => exact h.acceptNamed m token
  | inline m value => exact h.acceptInline m value
  | ambiguous => exact h.acceptUnknown .unknownOption token
  | miss =>
    cases splitCluster l.available token l.tokens.isEmpty with
    | some found => exact h.acceptCluster found.1 found.2
    | none =>
      dsimp only
      split
      · exact h.acceptUnknown .unknownOption token
      · exact h.readOperand false token

/-! ### Embedded lines -/

theorem resume (cut : Cut) : (l.resume cut).Alike (l'.resume cut) := by
  unfold Line.resume
  dsimp only
  cases cut.terminator with
  | none => exact h.withTokens cut.after
  | some token =>
    have hr : (terminatorRecord { l with tokens := cut.after } token).Alike
        (terminatorRecord { l' with tokens := cut.after } token) := by
      unfold terminatorRecord
      rw [h.nextOccurrence_eq]
      exact Record.Alike.refl _
    exact (h.withTokens cut.after).push hr

theorem pushCommand (command : Text) : (l.pushCommand command).Alike (l'.pushCommand command) := by
  have hr : (commandRecord l command).Alike (commandRecord l' command) := by
    unfold commandRecord
    rw [h.nextOccurrence_eq]
    exact Record.Alike.refl _
  exact h.push hr

/-- An embedded line has options of its own, which are in the same order. -/
theorem nested (lookup : Text → Option Grammar) (command : Text) (arguments : List Text) :
    (l.nested lookup command arguments).Alike (l'.nested lookup command arguments) :=
  ⟨rfl, Reordered.refl _, h.history, congrArg (· ++ [programName command]) h.consulted⟩

theorem absorb {inner inner' : Line} (hinner : inner.Alike inner') :
    (l.absorb inner).Alike (l'.absorb inner') :=
  ⟨h.tokens, h.available, hinner.history, hinner.consulted⟩

theorem readEmbedded (lookup : Text → Option Grammar) (e : Embedding)
    (hinner : ∀ command arguments,
      (cutEmbedded e.terminators l.tokens).inner = command :: arguments →
      Alike (run lookup (Line.nested lookup (l.pushCommand command) command arguments) false)
        (run lookup (Line.nested lookup (l'.pushCommand command) command arguments) false)) :
    (l.readEmbedded lookup e).Alike (l'.readEmbedded lookup e) := by
  unfold Line.readEmbedded
  rw [h.tokens]
  dsimp only
  generalize cutEmbedded e.terminators l.tokens = cut at *
  split
  · exact h.resume cut
  · exact (h.pushCommand _).resume cut
  · rename_i command argument arguments hcut
    exact ((h.pushCommand command).absorb (hinner command _ hcut)).resume cut

end Alike

/-- Whether two steps lead to lines that are alike, and are the same else. -/
structure Step.Alike (s s' : Step) : Prop where
  line : s.line.Alike s'.line
  ended : s'.ended = s.ended
  embedded : s'.embedded = s.embedded

/-- **A word is read in the same way** on lines that are alike. -/
theorem step_alike {l l' : Line} (h : l.Alike l') (ended : Bool) (token : Text) :
    (step l ended token).Alike (step l' ended token) := by
  have hmarker : (l.markerRecord token).Alike (l'.markerRecord token) := by
    unfold markerRecord
    rw [h.nextOccurrence_eq]
    exact Record.Alike.refl _
  have hoption := h.readOption token
  have hoperand := h.readOperand ended token
  unfold step
  dsimp only
  rw [h.tokens, h.available.wantsOption_eq]
  split
  · exact ⟨h.push hmarker, rfl, rfl⟩
  · split
    · exact ⟨hoption.line, rfl, hoption.embedded⟩
    · exact ⟨hoperand.line, rfl, hoperand.embedded⟩

/-! ### Whole lines -/

/-- **Lines that are alike are read in the same way.** -/
theorem run_alike (lookup : Text → Option Grammar) (l : Line) (ended : Bool) :
    ∀ l', l.Alike l' → (run lookup l ended).Alike (run lookup l' ended) := by
  induction l, ended using run_induction lookup with
  | nil l ended hread =>
    intro l' h
    rw [run_nil lookup l ended hread, run_nil lookup l' ended (h.tokens.trans hread)]
    exact h
  | cons l ended token rest hread hinner ih =>
    intro l' h
    rw [run_cons lookup l ended token rest hread,
      run_cons lookup l' ended token rest (h.tokens.trans hread)]
    have hstep := step_alike (h.withTokens rest) ended token
    generalize step { l with tokens := rest } ended token = s at *
    generalize step { l' with tokens := rest } ended token = s' at *
    rw [hstep.ended]
    refine ih _ ?_
    unfold settled
    rw [hstep.embedded]
    cases hembedded : s.embedded with
    | none => exact hstep.line
    | some e =>
      refine hstep.line.readEmbedded lookup e fun command arguments hcut => ?_
      exact hinner e command arguments hembedded hcut _
        ((hstep.line.pushCommand command).nested lookup command arguments)

/-- **Matching does not depend on the order of the options.** If no spelling stands twice among some
members, reading a line with them in another order that keeps the positional slots in theirs gives
the same records, but for the order of what is offered where all options are, and what is left
available is the same but for its order. -/
theorem parse_reordered (lookup : Text → Option Grammar) (tokens : List Text)
    {members members' : List Member} (hnodup : (flagsOf members).Nodup)
    (hperm : members.Perm members')
    (hpositionals : members'.filter (fun m => m.spec.isPositional)
      = members.filter fun m => m.spec.isPositional) :
    List.Forall₂ Record.Alike (parse lookup tokens members).history
        (parse lookup tokens members').history ∧
      (parse lookup tokens members).available.Perm (parse lookup tokens members').available := by
  have hstart : Alike { tokens := tokens, available := members }
      { tokens := tokens, available := members' } :=
    ⟨rfl, .of_nodup hnodup hperm hpositionals, .nil, rfl⟩
  have hread := run_alike lookup _ false _ hstart
  exact ⟨hread.history, hread.available.perm⟩

/-- The members of a command whose options are two spellings of one, the long one first. -/
def longFirst : List Member := (listGrammar.members.take 2).reverse ++ listGrammar.members.drop 2

/-- A word that nobody knows offers the two spellings, in either order. -/
theorem parse_reordered_list :
    longFirst ≠ listGrammar.members ∧
      List.Forall₂ Record.Alike
        (parse listLookup ["-x".toList, "src".toList] listGrammar.members).history
        (parse listLookup ["-x".toList, "src".toList] longFirst).history ∧
      (parse listLookup ["-x".toList, "src".toList] listGrammar.members).history
        ≠ (parse listLookup ["-x".toList, "src".toList] longFirst).history := by
  have hnodup : (flagsOf listGrammar.members).Nodup := by decide
  have hperm : listGrammar.members.Perm longFirst := by decide
  have hread := parse_reordered listLookup ["-x".toList, "src".toList] hnodup hperm (by decide)
  exact ⟨by decide, hread.1, by decide +kernel⟩

end Line

end CommandGrammar
