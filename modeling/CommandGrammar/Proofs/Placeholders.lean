import Mathlib
import CommandGrammar.Grammar.Guess

/-!
# Decorated placeholders

A slot is guessed from a bare word, whatever brackets, equals signs and ellipses are written around
it. What stands before the word is taken off in one go. What stands after it is taken off in three:
the ellipses at the end, the brackets before them, the ellipses before those. So the word is bare in
the end unless an ellipsis stands behind a bracket inside another bracket; then closing brackets are
left, and a rule can tell the placeholder from its word.

* `stripMetavar_written`: what is left of a placeholder;
* `leftover_eq_nil`, `closing_mem_leftover`: when only the word is left;
* `guessSource_written`: the key of a decorated word;
* `guessSource_written_iff`: decoration that makes no difference.
-/

namespace CommandGrammar

/-! ### Decoration -/

/-- A bracket that a placeholder may stand in. -/
inductive Enclosure
  | square
  | angle
deriving DecidableEq, Repr

namespace Enclosure

def opening : Enclosure → Char
  | square => '['
  | angle => '<'

def closing : Enclosure → Char
  | square => ']'
  | angle => '>'

end Enclosure

/-- The decoration of a word. -/
inductive Placeholder
  | word
  /-- In brackets, with some equals signs behind the opening one. -/
  | wrapped (bracket : Enclosure) (equals : Nat) (inner : Placeholder)
  /-- With an ellipsis behind it. -/
  | repeated (inner : Placeholder)
deriving DecidableEq, Repr

/-- A word without blanks, dots and decoration. -/
structure IsBareWord (m : Text) : Prop where
  ne_nil : m ≠ []
  notBlank : ∀ c ∈ m, Text.isBlank c = false
  notDot : '.' ∉ m
  notDecoration : ∀ c ∈ m, isDecoration c = false

instance (m : Text) : Decidable (IsBareWord m) :=
  decidable_of_iff (m ≠ [] ∧ m.any Text.isBlank = false ∧ '.' ∉ m ∧ m.any isDecoration = false)
    ⟨fun ⟨hne, hblank, hdot, hdecoration⟩ =>
      ⟨hne, Text.any_eq_false_iff.1 hblank, hdot, Text.any_eq_false_iff.1 hdecoration⟩,
      fun h => ⟨h.ne_nil, Text.any_eq_false_iff.2 h.notBlank, h.notDot,
        Text.any_eq_false_iff.2 h.notDecoration⟩⟩

namespace Placeholder

def ellipsis : Text := ['.', '.', '.']

def before : Placeholder → Text
  | word => []
  | wrapped bracket equals inner =>
    bracket.opening :: List.replicate equals '=' ++ before inner
  | repeated inner => before inner

def after : Placeholder → Text
  | word => []
  | wrapped bracket _ inner => after inner ++ [bracket.closing]
  | repeated inner => after inner ++ ellipsis

/-- A word with its decoration. -/
def written (p : Placeholder) (m : Text) : Text := p.before ++ m ++ p.after

/-! ### One pass -/

/-- A placeholder without the ellipses behind its last bracket. -/
def peelEllipses : Placeholder → Placeholder
  | repeated inner => inner.peelEllipses
  | p => p

/-- A placeholder without the brackets behind its last ellipsis. -/
def peelBrackets : Placeholder → Placeholder
  | wrapped _ _ inner => inner.peelBrackets
  | p => p

/-- What stands before a word opens brackets. -/
theorem mem_before (p : Placeholder) {c : Char} (hc : c ∈ p.before) :
    c = '[' ∨ c = '<' ∨ c = '=' := by
  induction p with
  | word => exact nomatch hc
  | repeated inner ih => exact ih hc
  | wrapped bracket equals inner ih =>
    rcases List.mem_cons.1 hc with rfl | hc
    · cases bracket
      · exact Or.inl rfl
      · exact Or.inr (Or.inl rfl)
    · rcases List.mem_append.1 hc with hc | hc
      · exact Or.inr (Or.inr (List.eq_of_mem_replicate hc))
      · exact ih hc

/-- What stands after a word closes brackets and repeats. -/
theorem mem_after (p : Placeholder) {c : Char} (hc : c ∈ p.after) :
    c = '.' ∨ c = ']' ∨ c = '>' := by
  induction p with
  | word => exact nomatch hc
  | repeated inner ih =>
    rcases List.mem_append.1 hc with hc | hc
    · exact ih hc
    · exact Or.inl (by simpa [ellipsis] using hc)
  | wrapped bracket equals inner ih =>
    rcases List.mem_append.1 hc with hc | hc
    · exact ih hc
    · right
      rw [List.mem_singleton.1 hc]
      cases bracket
      · exact Or.inl rfl
      · exact Or.inr rfl

section Pass

variable {last : Char} (start : Text) (p : Placeholder)

theorem dropEndings_go_concat (h : last ≠ '.') (fuel : Nat) :
    Text.dropEndings.go ellipsis fuel (start ++ [last]) = start ++ [last] := by
  have hnone : Text.dropSuffix? ellipsis (start ++ [last]) = none := by
    cases hdrop : Text.dropSuffix? ellipsis (start ++ [last]) with
    | none => rfl
    | some shorter =>
      have hends := congrArg List.getLast? (Text.dropSuffix?_eq_some_iff.1 hdrop)
      exact absurd (by simpa [ellipsis] using hends) h
  cases fuel with
  | zero => rfl
  | succ fuel => rw [Text.dropEndings.go, hnone]

/-- The fuel lasts as long as there are three characters left for each ellipsis. -/
theorem dropEndings_go_after (h : last ≠ '.') (fuel : Nat) (hfuel : p.after.length ≤ fuel) :
    Text.dropEndings.go ellipsis fuel (start ++ [last] ++ p.after)
      = start ++ [last] ++ p.peelEllipses.after := by
  induction p generalizing fuel with
  | word =>
    show Text.dropEndings.go ellipsis fuel (start ++ [last] ++ []) = _
    rw [List.append_nil, dropEndings_go_concat start h]
    exact (List.append_nil _).symm
  | wrapped bracket equals inner _ =>
    have hclosing : bracket.closing ≠ '.' := by cases bracket <;> decide
    show Text.dropEndings.go ellipsis fuel (start ++ [last] ++ (inner.after ++ [bracket.closing]))
      = start ++ [last] ++ (inner.after ++ [bracket.closing])
    rw [← List.append_assoc, dropEndings_go_concat _ hclosing]
  | repeated inner ih =>
    have hlength : inner.after.length + 3 ≤ fuel := by
      rw [after, List.length_append] at hfuel
      exact hfuel
    cases fuel with
    | zero => omega
    | succ fuel =>
      have hdrop : Text.dropSuffix? ellipsis (start ++ [last] ++ (repeated inner).after)
          = some (start ++ [last] ++ inner.after) :=
        Text.dropSuffix?_eq_some_iff.2 (List.append_assoc _ _ _).symm
      rw [Text.dropEndings.go, hdrop]
      exact ih fuel (by omega)

/-- One pass over ellipses takes all those that stand at the end. -/
theorem dropEndings_after (h : last ≠ '.') :
    Text.dropEndings ellipsis (start ++ [last] ++ p.after)
      = start ++ [last] ++ p.peelEllipses.after := by
  have hfuel : p.after.length ≤ (start ++ [last] ++ p.after).length := by
    rw [List.length_append]
    omega
  exact dropEndings_go_after start p h _ hfuel

/-- One pass over brackets takes all those that stand at the end. -/
theorem dropWhileEnd_after (h : isDecoration last = false) :
    Text.dropWhileEnd isDecoration (start ++ [last] ++ p.after)
      = start ++ [last] ++ p.peelBrackets.after := by
  induction p with
  | word =>
    show Text.dropWhileEnd isDecoration (start ++ [last] ++ []) = _
    rw [List.append_nil, Text.dropWhileEnd_concat_of_neg h]
    exact (List.append_nil _).symm
  | wrapped bracket equals inner ih =>
    have hclosing : isDecoration bracket.closing = true := by cases bracket <;> decide
    show Text.dropWhileEnd isDecoration (start ++ [last] ++ (inner.after ++ [bracket.closing])) = _
    rw [← List.append_assoc, Text.dropWhileEnd_concat_of_pos hclosing]
    exact ih
  | repeated inner _ =>
    have hdot : isDecoration '.' = false := by decide
    have hsplit : start ++ [last] ++ (repeated inner).after
        = start ++ [last] ++ inner.after ++ ['.', '.'] ++ ['.'] := by
      simp [after, ellipsis]
    rw [hsplit, Text.dropWhileEnd_concat_of_neg hdot, ← hsplit]
    rfl

end Pass

/-! ### What is left -/

/-- What is left behind the word. -/
def leftover (p : Placeholder) : Text := p.peelEllipses.peelBrackets.peelEllipses.after

def bracketed : Placeholder → Bool
  | word => false
  | wrapped _ _ _ => true
  | repeated inner => inner.bracketed

/-- Whether an ellipsis stands behind a bracket. -/
def repeatsBracket : Placeholder → Bool
  | word => false
  | wrapped _ _ inner => inner.repeatsBracket
  | repeated inner => inner.bracketed

/-- Whether an ellipsis stands behind a bracket inside another one. -/
def repeatsWithin : Placeholder → Bool
  | word => false
  | wrapped _ _ inner => inner.repeatsBracket
  | repeated inner => inner.repeatsWithin

/-- Without its ellipses a placeholder is the word or ends in a bracket. -/
theorem after_peelEllipses (p : Placeholder) :
    (p.bracketed = false → p.peelEllipses.after = []) ∧
      (p.bracketed = true → ∃ bracket : Enclosure, bracket.closing ∈ p.peelEllipses.after) := by
  induction p with
  | word => exact ⟨fun _ => rfl, Bool.noConfusion⟩
  | wrapped bracket equals inner _ =>
    exact ⟨Bool.noConfusion, fun _ => ⟨bracket, List.mem_append_right _ List.mem_cons_self⟩⟩
  | repeated inner ih => exact ih

theorem bracketed_peelBrackets (p : Placeholder) : p.peelBrackets.bracketed = p.repeatsBracket := by
  induction p with
  | word => rfl
  | wrapped bracket equals inner ih => exact ih
  | repeated inner _ => rfl

theorem repeatsBracket_peelEllipses (p : Placeholder) :
    p.peelEllipses.repeatsBracket = p.repeatsWithin := by
  induction p with
  | word => rfl
  | wrapped bracket equals inner _ => rfl
  | repeated inner ih => exact ih

theorem bracketed_peeled (p : Placeholder) :
    p.peelEllipses.peelBrackets.bracketed = p.repeatsWithin := by
  rw [bracketed_peelBrackets, repeatsBracket_peelEllipses]

/-- **Only the word is left** if no ellipsis stands behind a bracket inside another one. -/
theorem leftover_eq_nil {p : Placeholder} (h : p.repeatsWithin = false) : p.leftover = [] :=
  (after_peelEllipses _).1 ((bracketed_peeled p).trans h)

theorem closing_mem_leftover {p : Placeholder} (h : p.repeatsWithin = true) :
    ∃ bracket : Enclosure, bracket.closing ∈ p.leftover :=
  (after_peelEllipses _).2 ((bracketed_peeled p).trans h)

end Placeholder

/-! ### Rules -/

/-- A placeholder without an opening brace is no enumeration. -/
theorem parseChoices_eq_none {metavar : Text} (h : '\x7b' ∉ metavar) :
    parseChoices metavar = none := by
  have hbody : choiceBody? metavar = none := by
    rw [choiceBody?]
    split
    · rename_i rest hinner
      have hbrace := Text.mem_of_mem_dropWhileEnd (hinner ▸ List.mem_cons_self)
      have htrim := (List.dropWhile_suffix _).subset ((List.dropWhile_suffix _).subset hbrace)
      exact absurd (Text.mem_of_mem_trim htrim) h
    · rfl
  rw [parseChoices, hbody]

/-- A class occurs in a text that has one of its members. -/
theorem Pattern.occursFrom_one (members : CharClass) (last : Option Char) (text : Text) :
    (one members).occursFrom last text = text.any fun c => members.contains c.toNat := by
  induction text generalizing last with
  | nil => rfl
  | cons c cs ih =>
    rw [occursFrom, ih, List.any_cons, ends]
    cases members.contains c.toNat with
    | true => rfl
    | false => rfl

theorem CharClass.contains_single {c d : Char} : (single c).contains d.toNat = true ↔ c = d := by
  rw [single, contains, Bool.and_eq_true, decide_eq_true_eq, decide_eq_true_eq,
    ← Nat.eq_iff_le_and_ge]
  exact Char.toNat_inj

namespace GuessRule

/-- The rule that answers nothing for keys with a closing bracket. -/
def closing (bracket : Enclosure) : GuessRule :=
  ⟨[bracket.closing], .one (.single bracket.closing), .nothing⟩

theorem compile_closing (bracket : Enclosure) :
    compile [bracket.closing] .nothing = .ok (closing bracket) := by
  have hparse : Pattern.parse? [bracket.closing] = some (.one (.single bracket.closing)) := by
    cases bracket with
    | square => cbv
    | angle => cbv
  rw [compile, hparse]
  rfl

theorem appliesTo_closing (bracket : Enclosure) (key : Text) :
    (closing bracket).appliesTo key = true ↔ bracket.closing ∈ key := by
  show (Pattern.one (.single bracket.closing)).occursFrom none key = true ↔ _
  rw [Pattern.occursFrom_one, List.any_eq_true]
  constructor
  · rintro ⟨c, hc, hcontains⟩
    rwa [CharClass.contains_single.1 hcontains]
  · intro hmem
    exact ⟨_, hmem, CharClass.contains_single.2 rfl⟩

end GuessRule

section Rules

variable {rule : GuessRule} {rules : List GuessRule} {key : Text}

theorem firstApplicable_of_applies (h : rule.appliesTo key = true) :
    firstApplicable (rule :: rules) key = rule.source := by
  have hfound : (rule :: rules).find? (·.appliesTo key) = some rule := List.find?_cons_of_pos h
  rw [firstApplicable, hfound]

theorem firstApplicable_of_not_applies (h : rule.appliesTo key = false) :
    firstApplicable (rule :: rules) key = firstApplicable rules key := by
  have hskipped : (rule :: rules).find? (·.appliesTo key) = rules.find? (·.appliesTo key) :=
    List.find?_cons_of_neg (by rw [h]; exact Bool.false_ne_true)
  rw [firstApplicable, hskipped, firstApplicable]

/-- Rules answer with a source of theirs, or with file names. -/
theorem firstApplicable_ne {source : Source} (hrules : ∀ rule ∈ rules, rule.source ≠ source)
    (hfiles : .static 0 .files ≠ source) (key : Text) : firstApplicable rules key ≠ source := by
  rw [firstApplicable]
  split
  · rename_i rule hfound
    exact hrules rule (List.mem_of_find?_eq_some hfound)
  · exact hfiles

end Rules

/-! ### Stripping -/

section Bare

variable {m : Text} (hm : IsBareWord m) (p : Placeholder)

include hm

namespace Placeholder

/-- The characters of a decorated word are no blanks and no braces. -/
theorem forall_mem_written {c : Char} (hc : c ∈ p.written m) :
    Text.isBlank c = false ∧ c ≠ '\x7b' := by
  rcases List.mem_append.1 hc with hc | hc
  · rcases List.mem_append.1 hc with hc | hc
    · rcases mem_before p hc with rfl | rfl | rfl
      · decide
      · decide
      · decide
    · refine ⟨hm.notBlank c hc, ?_⟩
      rintro rfl
      exact absurd (hm.notDecoration _ hc) (by decide)
  · rcases mem_after p hc with rfl | rfl | rfl
    · decide
    · decide
    · decide

/-- What stands before a word is taken off whole. -/
theorem dropWhile_before (rest : Text) :
    (p.before ++ (m ++ rest)).dropWhile isDecoration = m ++ rest := by
  refine (Text.takeWhile_dropWhile_append ?_ ?_).2
  · intro c hc
    rcases mem_before p hc with rfl | rfl | rfl
    · decide
    · decide
    · decide
  · intro c hc
    rw [List.head?_append, List.head?_eq_some_head hm.ne_nil] at hc
    rw [← Option.some.inj hc]
    exact hm.notDecoration _ (List.head_mem hm.ne_nil)

/-- **What is left of a placeholder** is the word and some of what stands behind it. -/
theorem stripMetavar_written : stripMetavar (p.written m) = m ++ p.leftover := by
  have hbefore := dropWhile_before hm p p.peelEllipses.after
  have htrim : Text.trim (p.written m) = p.written m :=
    Text.trim_of_forall fun c hc => (forall_mem_written hm p hc).1
  obtain ⟨start, last, rfl⟩ : ∃ start last, m = start ++ [last] :=
    ⟨_, _, (List.dropLast_concat_getLast hm.ne_nil).symm⟩
  have hmem : last ∈ start ++ [last] := List.mem_append_right _ List.mem_cons_self
  have hdot : last ≠ '.' := fun h => hm.notDot (h ▸ hmem)
  have hends : Text.dropEndings ellipsis (p.written (start ++ [last]))
      = p.before ++ (start ++ [last] ++ p.peelEllipses.after) := by
    have hpass := dropEndings_after (p.before ++ start) p hdot
    simpa only [written, List.append_assoc] using hpass
  -- The ellipses at the end, the brackets on both sides, and the ellipses before those.
  show Text.dropEndings ellipsis (Text.dropWhileEnd isDecoration
    ((Text.dropEndings ellipsis (Text.trim (p.written (start ++ [last])))).dropWhile isDecoration))
      = _
  rw [htrim, hends, hbefore, dropWhileEnd_after _ _ (hm.notDecoration last hmem),
    dropEndings_after _ _ hdot]
  rfl

end Placeholder

/-! ### Guessing -/

/-- **The key of a decorated word** has in it what is left of the placeholder. -/
theorem guessSource_written (name : Text) (hints : List GuessRule) :
    guessSource name (p.written m) hints
      = firstApplicable (hints ++ builtinRules) (name ++ ['='] ++ (m ++ p.leftover)) := by
  have hchoices : parseChoices (p.written m) = none :=
    parseChoices_eq_none fun hbrace => (p.forall_mem_written hm hbrace).2 rfl
  rw [guessSource, hchoices]
  show firstApplicable _ (name ++ ['='] ++ stripMetavar (p.written m)) = _
  rw [p.stripMetavar_written hm]

theorem guessSource_bare (name : Text) (hints : List GuessRule) :
    guessSource name m hints
      = firstApplicable (hints ++ builtinRules) (name ++ ['='] ++ m) := by
  have hword := guessSource_written hm .word name hints
  have hwritten : Placeholder.word.written m = m := List.append_nil m
  have hleftover : m ++ Placeholder.word.leftover = m := List.append_nil m
  rwa [hwritten, hleftover] at hword

/-- Where a closing bracket is left, a rule can tell the placeholder from its word. -/
theorem exists_rule_of_repeatsWithin (h : p.repeatsWithin = true) :
    ∃ pattern rule, GuessRule.compile pattern .nothing = .ok rule ∧
      guessSource [] (p.written m) [rule] = .nothing ∧ guessSource [] m [rule] ≠ .nothing := by
  obtain ⟨bracket, hleft⟩ := Placeholder.closing_mem_leftover h
  refine ⟨_, _, GuessRule.compile_closing bracket, ?_, ?_⟩
  · have happlies : (GuessRule.closing bracket).appliesTo (['='] ++ (m ++ p.leftover)) = true :=
      (GuessRule.appliesTo_closing bracket _).2
        (List.mem_append_right _ (List.mem_append_right _ hleft))
    rw [guessSource_written hm]
    exact firstApplicable_of_applies happlies
  · have hnot : (GuessRule.closing bracket).appliesTo (['='] ++ m) = false := by
      rw [← Bool.not_eq_true, GuessRule.appliesTo_closing]
      intro hmem
      rcases List.mem_append.1 hmem with hmem | hmem
      · cases bracket <;> exact absurd hmem (by decide)
      · have hdecoration := hm.notDecoration _ hmem
        cases bracket <;> exact absurd hdecoration (by decide)
    have hbuiltin : ∀ rule ∈ builtinRules, rule.source ≠ .nothing := by decide
    rw [guessSource_bare hm]
    show firstApplicable (GuessRule.closing bracket :: builtinRules) (['='] ++ m) ≠ _
    rw [firstApplicable_of_not_applies hnot]
    exact firstApplicable_ne hbuiltin (fun h => nomatch h) _

/-- **Decoration that makes no difference.** The source guessed for a decorated word is that of the
word, for every name and all rules, exactly if no ellipsis stands behind a bracket inside another
one. -/
theorem guessSource_written_iff :
    (∀ name hints, guessSource name (p.written m) hints = guessSource name m hints) ↔
      p.repeatsWithin = false := by
  constructor
  · -- A rule for the bracket that is left answers for the placeholder only.
    intro hsame
    cases hrepeats : p.repeatsWithin with
    | false => rfl
    | true =>
      obtain ⟨_, rule, -, hnothing, hother⟩ := exists_rule_of_repeatsWithin hm p hrepeats
      exact absurd ((hsame [] [rule]).symm.trans hnothing) hother
  · intro hrepeats name hints
    rw [guessSource_written hm, guessSource_bare hm, Placeholder.leftover_eq_nil hrepeats,
      List.append_nil]

end Bare

theorem guessSource_written_iff_directory :
    IsBareWord "DIR".toList ∧
      ∀ name hints, guessSource name "[=<DIR...>]...".toList hints
        = guessSource name "DIR".toList hints := by
  have hbare : IsBareWord "DIR".toList := by decide
  have hwritten : Placeholder.written
      (.repeated (.wrapped .square 1 (.wrapped .angle 0 (.repeated .word)))) "DIR".toList
        = "[=<DIR...>]...".toList := by decide
  rw [← hwritten]
  exact ⟨hbare, (guessSource_written_iff hbare _).2 rfl⟩

set_option maxRecDepth 10000 in
/-- An optional directory that may be given several times is not taken for a directory. -/
theorem ellipsis_left_behind :
    guessSource "-C".toList "DIR".toList [] = .static 0 .directories ∧
      guessSource "-C".toList "[<DIR>...]".toList [] ≠ .static 0 .directories := by
  -- Only the first rule is read: no other one answers with directories.
  obtain ⟨rule, rules, htable, hsource, hothers, hword, hleft⟩ :
      ∃ rule rules, builtinRules = rule :: rules ∧ rule.source = .static 0 .directories ∧
        (∀ other ∈ rules, other.source ≠ .static 0 .directories) ∧
        rule.appliesTo "-C=DIR".toList = true ∧ rule.appliesTo "-C=DIR>".toList = false :=
    ⟨_, _, rfl, rfl, by decide, by cbv⟩
  constructor
  · show firstApplicable builtinRules "-C=DIR".toList = _
    rw [htable, firstApplicable_of_applies hword, hsource]
  · show firstApplicable builtinRules "-C=DIR>".toList ≠ _
    rw [htable, firstApplicable_of_not_applies hleft]
    exact firstApplicable_ne hothers (by decide) _

end CommandGrammar
