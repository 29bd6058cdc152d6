import Mathlib.Data.List.Infix
import CommandGrammar.Grammar.Descriptor

/-!
# Value descriptors between their brackets

A value descriptor may hold any text as long as it closes its brackets and nothing outside of them
could be taken for a boundary. Three readers go over it, each counting brackets on its own: one cuts
the definition into spellings, one cuts the descriptors of a spelling apart, and brackets of the
spelling itself may stand around both. None of them stops inside a descriptor.

The induction is on what is left of a descriptor where some brackets are open: `RestOf` says what
the next character may be at any depth, and `IsMetavar.restOf` that this is all there is to say.

* `cutSpellings_metavar`, `cutMetavars_metavar`: a reader takes a descriptor as a whole;
* `cutSpellings_joined`, `splitMetavars_joined`: descriptors joined by spaces are kept together
  between spellings, and are told apart inside one.
-/

namespace CommandGrammar

namespace Descriptor

/-! ### Brackets -/

def isOpening (c : Char) : Bool := c == '[' || c == '<' || c == '\x7b'

def isClosing (c : Char) : Bool := c == ']' || c == '>' || c == '\x7d'

def openings (text : Text) : Nat := text.countP isOpening

def closings (text : Text) : Nat := text.countP isClosing

/-- Whether all brackets before a place of a text are closed. -/
def Outside (text : Text) (place : Nat) : Prop :=
  openings (text.take place) = closings (text.take place)

instance (text : Text) (place : Nat) : Decidable (Outside text place) :=
  inferInstanceAs (Decidable (openings _ = closings _))

/-- A text that can stand for a value in a descriptor. -/
structure IsMetavar (text : Text) : Prop where
  ne_nil : text ≠ []
  closed : Outside text text.length
  nested : ∀ place ≤ text.length,
    closings (text.take place) ≤ openings (text.take place)
  noBlank : ∀ place ≤ text.length, Outside text place →
    ∀ c ∈ text[place]?, Text.isBlank c = false
  noCommaDash : ∀ place ≤ text.length, Outside text place → ¬ [',', '-'] <+: text.drop place
  noTab : '\t' ∉ text
  noGap : ¬ [' ', ' '] <:+: text
  noOr : ¬ " or -".toList <:+: text
  noComma : text.getLast? ≠ some ','
  noDash : text.head? ≠ some '-'

instance (text : Text) : Decidable (IsMetavar text) :=
  decidable_of_iff (text ≠ [] ∧ Outside text text.length
      ∧ (∀ place ≤ text.length, closings (text.take place) ≤ openings (text.take place))
      ∧ (∀ place ≤ text.length, Outside text place → text[place]?.any Text.isBlank = false)
      ∧ (∀ place ≤ text.length, Outside text place → ¬ [',', '-'] <+: text.drop place)
      ∧ '\t' ∉ text ∧ ¬ [' ', ' '] <:+: text ∧ ¬ " or -".toList <:+: text
      ∧ text.getLast? ≠ some ',' ∧ text.head? ≠ some '-')
    ⟨fun ⟨ne_nil, closed, nested, noBlank, noCommaDash, noTab, noGap, noOr, noComma, noDash⟩ =>
        ⟨ne_nil, closed, nested,
          fun place hplace houtside => (Option.any_eq_false _ _).1 (noBlank place hplace houtside),
          noCommaDash, noTab, noGap, noOr, noComma, noDash⟩,
      fun h => ⟨h.ne_nil, h.closed, h.nested,
        fun place hplace houtside =>
          (Option.any_eq_false _ _).2 (h.noBlank place hplace houtside),
        h.noCommaDash, h.noTab, h.noGap, h.noOr, h.noComma, h.noDash⟩⟩

theorem openings_concat (text : Text) (c : Char) :
    openings (text ++ [c]) = openings text + if isOpening c then 1 else 0 := by
  rw [openings, openings, List.countP_append, List.countP_singleton]

theorem closings_concat (text : Text) (c : Char) :
    closings (text ++ [c]) = closings text + if isClosing c then 1 else 0 := by
  rw [closings, closings, List.countP_append, List.countP_singleton]

theorem depthAfter_eq (depth : Nat) (c : Char) :
    depthAfter depth c
      = if isOpening c then depth + 1 else if isClosing c then depth - 1 else depth := rfl

theorem isOpening_eq_false_of_isClosing {c : Char} (h : isClosing c = true) :
    isOpening c = false := by
  simp only [isClosing, Bool.or_eq_true, beq_iff_eq] at h
  rcases h with (rfl | rfl) | rfl <;> decide

/-- A bracket does not stand between spellings. -/
theorem isSeparator_of_bracket {c : Char} (h : isOpening c = true ∨ isClosing c = true) :
    isSeparator c = false := by
  simp only [isOpening, isClosing, Bool.or_eq_true, beq_iff_eq] at h
  rcases h with ((rfl | rfl) | rfl) | ((rfl | rfl) | rfl) <;> decide

theorem depthAfter_of_isSeparator {c : Char} (h : isSeparator c = true) (depth : Nat) :
    depthAfter depth c = depth := by
  have hbracket : ¬ (isOpening c = true ∨ isClosing c = true) := fun hbracket => by
    rw [isSeparator_of_bracket hbracket] at h
    exact absurd h Bool.false_ne_true
  rw [depthAfter_eq, if_neg fun hopening => hbracket (Or.inl hopening),
    if_neg fun hclosing => hbracket (Or.inr hclosing)]

/-- Brackets around a text are open as long as the text closes its own only. -/
theorem depthAfter_add {c : Char} {depth : Nat} (h : isClosing c = true → 0 < depth)
    (around : Nat) : depthAfter (around + depth) c = around + depthAfter depth c := by
  rw [depthAfter_eq, depthAfter_eq]
  by_cases hopening : isOpening c = true
  · rw [if_pos hopening, if_pos hopening, Nat.add_assoc]
  · rw [if_neg hopening, if_neg hopening]
    by_cases hclosing : isClosing c = true
    · have hopen := h hclosing
      rw [if_pos hclosing, if_pos hclosing]
      omega
    · rw [if_neg hclosing, if_neg hclosing]

/-! ### What is left of a descriptor -/

/-- The rest of a value descriptor where `depth` brackets are open. Outside of brackets there is no
blank, and a comma is followed by something other than a dash. -/
inductive RestOf : Nat → Text → Prop
  | nil : RestOf 0 []
  | cons {depth : Nat} {c : Char} {rest : Text} : (isClosing c = true → 0 < depth) →
      (depth = 0 → Text.isBlank c = false ∧ (c = ',' → rest ≠ [] ∧ rest.head? ≠ some '-')) →
      RestOf (depthAfter depth c) rest → RestOf depth (c :: rest)

theorem IsMetavar.closings_le {text : Text} (h : IsMetavar text) {before rest : Text}
    (htext : text = before ++ rest) : closings before ≤ openings before := by
  have hnested := h.nested before.length (by rw [htext, List.length_append]; omega)
  rwa [htext, List.take_left] at hnested

theorem IsMetavar.restOf_append {text : Text} (h : IsMetavar text) {before rest : Text}
    (htext : text = before ++ rest) : RestOf (openings before - closings before) rest := by
  induction rest generalizing before with
  | nil =>
    have hclosed := h.closed
    rw [htext, List.append_nil, Outside, List.take_length] at hclosed
    rw [hclosed, Nat.sub_self]
    exact .nil
  | cons c rest ih =>
    have hnext : text = (before ++ [c]) ++ rest := by rw [htext, List.append_assoc]; rfl
    have hopen := h.closings_le htext
    have hopen' := h.closings_le hnext
    have hrest := ih hnext
    rw [openings_concat, closings_concat] at hopen' hrest
    refine .cons ?_ ?_ ?_
    · intro hclosing
      rw [isOpening_eq_false_of_isClosing hclosing, hclosing] at hopen'
      simp only [if_true, Bool.false_eq_true, if_false] at hopen'
      omega
    · intro hdepth
      have hplace : before.length ≤ text.length := by rw [htext, List.length_append]; omega
      have houtside : Outside text before.length := by
        rw [Outside, htext, List.take_left]
        omega
      have hblank := h.noBlank before.length hplace houtside c
      have hdash := h.noCommaDash before.length hplace houtside
      rw [htext, List.getElem?_append_right (Nat.le_refl _), Nat.sub_self] at hblank
      rw [htext, List.drop_left] at hdash
      refine ⟨hblank rfl, ?_⟩
      rintro rfl
      constructor
      · rintro rfl
        exact h.noComma (by rw [htext, List.getLast?_concat])
      · intro hhead
        obtain ⟨tail, rfl⟩ := List.head?_eq_some_iff.1 hhead
        exact hdash ⟨tail, rfl⟩
    · have hdepth : depthAfter (openings before - closings before) c
          = openings before + (if isOpening c then 1 else 0)
            - (closings before + if isClosing c then 1 else 0) := by
        rw [depthAfter_eq]
        by_cases hopening : isOpening c = true
        · have hclosing : isClosing c = false := by
            cases hclosing : isClosing c with
            | false => rfl
            | true =>
              rw [isOpening_eq_false_of_isClosing hclosing] at hopening
              exact absurd hopening Bool.false_ne_true
          rw [if_pos hopening, if_pos hopening, hclosing, if_neg Bool.false_ne_true]
          omega
        · rw [if_neg hopening, if_neg hopening]
          split <;> omega
      rwa [hdepth]

theorem IsMetavar.restOf {text : Text} (h : IsMetavar text) : RestOf 0 text :=
  h.restOf_append (List.nil_append text).symm

/-! ### Spellings are not cut inside a descriptor -/

/-- Before a descriptor there is no cut: the next character that could begin a spelling is no
dash. -/
theorem RestOf.dropWhile_isSeparator {rest : Text} (h : RestOf 0 rest) (hne : rest ≠ [])
    (hdash : rest.head? ≠ some '-') (after : Text) :
    ∃ c more, (rest ++ after).dropWhile isSeparator = c :: more ∧ c ≠ '-' := by
  induction rest with
  | nil => exact absurd rfl hne
  | cons c rest ih =>
    cases h with
    | cons _ houtside hrest =>
      obtain ⟨hblank, hcomma⟩ := houtside rfl
      by_cases hc : c = ','
      · subst hc
        obtain ⟨hmore, hhead⟩ := hcomma rfl
        exact ih hrest hmore hhead
      · have hkeep : isSeparator c = false := by simp [isSeparator, hc, hblank]
        refine ⟨c, rest ++ after, ?_, fun hsame => hdash (by rw [hsame]; rfl)⟩
        rw [List.cons_append, List.dropWhile_cons_of_neg (by simp [hkeep])]

/-- A character is part of a spelling unless a dash follows the separators it begins. -/
theorem cutSpellings_cons {depth : Nat} {c : Char} {current rest : Text}
    (h : depthAfter depth c = 0 → isSeparator c = true →
      ∃ c' more, rest.dropWhile isSeparator = c' :: more ∧ c' ≠ '-') :
    cutSpellings depth false current (c :: rest)
      = cutSpellings (depthAfter depth c) false (current ++ [c]) rest := by
  rw [cutSpellings, if_neg (by simp)]
  dsimp only
  split
  · rename_i hcut
    rw [Bool.and_eq_true, beq_iff_eq] at hcut
    obtain ⟨c', more, hdrop, hdash⟩ := h hcut.1 hcut.2
    rw [hdrop]
    split
    · exact absurd ‹_› (List.cons_ne_nil c' more)
    · rename_i heq
      exact absurd (List.cons.inj heq).1 hdash
    · rfl
  · rfl

theorem cutSpellings_of_not_separator {c : Char} (h : isSeparator c = false) (depth : Nat)
    (current rest : Text) :
    cutSpellings depth false current (c :: rest)
      = cutSpellings (depthAfter depth c) false (current ++ [c]) rest := by
  refine cutSpellings_cons fun _ hseparator => ?_
  rw [h] at hseparator
  exact absurd hseparator Bool.false_ne_true

/-- **A descriptor is kept together between spellings**, whatever brackets stand around it. -/
theorem RestOf.cutSpellings {depth : Nat} {rest : Text} (h : RestOf depth rest) (around : Nat)
    (current after : Text) :
    Descriptor.cutSpellings (around + depth) false current (rest ++ after)
      = Descriptor.cutSpellings around false (current ++ rest) after := by
  induction h generalizing current with
  | nil => rw [List.nil_append, List.append_nil, Nat.add_zero]
  | @cons depth c rest hclosing houtside hrest ih =>
    rw [List.cons_append, cutSpellings_cons, depthAfter_add hclosing, ih, List.append_assoc]
    · rfl
    · intro hdepth hseparator
      rw [depthAfter_of_isSeparator hseparator] at hdepth
      obtain rfl : depth = 0 := by omega
      obtain ⟨hblank, hcomma⟩ := houtside rfl
      have hc : c = ',' := by simpa [isSeparator, hblank] using hseparator
      obtain ⟨hne, hdash⟩ := hcomma hc
      rw [depthAfter_of_isSeparator hseparator] at hrest
      exact hrest.dropWhile_isSeparator hne hdash after

theorem cutSpellings_metavar {text : Text} (h : IsMetavar text) (around : Nat)
    (current after : Text) :
    cutSpellings around false current (text ++ after)
      = cutSpellings around false (current ++ text) after :=
  h.restOf.cutSpellings around current after

/-! ### Descriptors are told apart -/

theorem RestOf.cutMetavars {depth : Nat} {rest : Text} (h : RestOf depth rest)
    (current after : Text) :
    Descriptor.cutMetavars depth current (rest ++ after)
      = Descriptor.cutMetavars 0 (current ++ rest) after := by
  induction h generalizing current with
  | nil => rw [List.nil_append, List.append_nil]
  | @cons depth c rest hclosing houtside hrest ih =>
    have hkeep : ¬ (Text.isBlank c && depthAfter depth c == 0) = true := by
      rw [Bool.and_eq_true, beq_iff_eq]
      rintro ⟨hblank, hdepth⟩
      have hseparator : isSeparator c = true := by simp [isSeparator, hblank]
      rw [depthAfter_of_isSeparator hseparator] at hdepth
      rw [(houtside hdepth).1] at hblank
      exact absurd hblank Bool.false_ne_true
    rw [List.cons_append, Descriptor.cutMetavars, if_neg hkeep, ih, List.append_assoc]
    rfl

/-- **A descriptor is taken as a whole** from those of its spelling. -/
theorem cutMetavars_metavar {text : Text} (h : IsMetavar text) (after : Text) :
    cutMetavars 0 [] (text ++ after) = cutMetavars 0 text after :=
  h.restOf.cutMetavars [] after

/-! ### Descriptors joined by spaces -/

section Joined

variable {others : List Text} (hothers : ∀ text ∈ others, IsMetavar text)

include hothers

theorem cutSpellings_spaced (around : Nat) (current after : Text) :
    cutSpellings around false current (others.flatMap (' ' :: ·) ++ after)
      = cutSpellings around false (current ++ others.flatMap (' ' :: ·)) after := by
  induction others generalizing current with
  | nil => rw [List.flatMap_nil, List.nil_append, List.append_nil]
  | cons second others ih =>
    obtain ⟨hsecond, hothers⟩ := List.forall_mem_cons.1 hothers
    rw [List.flatMap_cons, List.append_assoc, List.cons_append, cutSpellings_cons]
    · show cutSpellings around false (current ++ [' ']) _ = _
      rw [cutSpellings_metavar hsecond, ih hothers]
      simp only [List.append_assoc, List.cons_append, List.nil_append]
    · intro _ _
      exact hsecond.restOf.dropWhile_isSeparator hsecond.ne_nil hsecond.noDash _

theorem cutMetavars_spaced (current : Text) (hcurrent : current ≠ []) :
    cutMetavars 0 current (others.flatMap (' ' :: ·)) = current :: others := by
  induction others generalizing current with
  | nil => simp [cutMetavars, hcurrent]
  | cons second others ih =>
    obtain ⟨hsecond, hothers⟩ := List.forall_mem_cons.1 hothers
    have hspace : cutMetavars 0 current (' ' :: (second ++ others.flatMap (' ' :: ·)))
        = current :: cutMetavars 0 [] (second ++ others.flatMap (' ' :: ·)) := by
      have hnonempty : current.isEmpty = false := List.isEmpty_eq_false_iff.2 hcurrent
      rw [cutMetavars, if_pos (by decide), hnonempty]
      rfl
    show cutMetavars 0 current (' ' :: (second ++ others.flatMap (' ' :: ·))) = _
    rw [hspace, cutMetavars_metavar hsecond, ih hothers second hsecond.ne_nil]

variable {first : Text} (hfirst : IsMetavar first)

include hfirst

theorem cutSpellings_joined (around : Nat) (current after : Text) :
    cutSpellings around false current (Text.joinWith [' '] (first :: others) ++ after)
      = cutSpellings around false (current ++ Text.joinWith [' '] (first :: others)) after := by
  rw [Text.joinWith_space, List.append_assoc, cutSpellings_metavar hfirst,
    cutSpellings_spaced hothers, List.append_assoc]

theorem splitMetavars_joined :
    splitMetavars (Text.joinWith [' '] (first :: others)) = first :: others := by
  rw [Text.joinWith_space, splitMetavars, cutMetavars_metavar hfirst,
    cutMetavars_spaced hothers first hfirst.ne_nil]

end Joined

end Descriptor

end CommandGrammar
