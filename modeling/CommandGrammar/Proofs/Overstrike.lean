import CommandGrammar.Help.Clean

/-!
# What backspaces take back

A terminal shows a text one character after the other: a character is added to what is shown, and a
backspace takes away the last character there is. Cleaning reaches the same in rounds, each of which
drops every character that stands right before a backspace, together with the backspace. The
terminal adds such a character only to take it away with the next one, so a round changes nothing
of what is shown, in whatever order the pairs come together. Once a round finds no pair, the
backspaces that are left stand before all other characters, where there is nothing to take away.

* `Rounds`, `rounds_stripOverstrike`: the rounds come to an end, since each is shorter than the one
  before;
* `foldl_strike_erasePairs`: what is shown of a text is shown of it after a round;
* `Rounds.eq_shown`: the rounds end in what is shown;
* `Overstruck.shown_eq`: of characters printed over each other, the last one is shown;
* `stripOverstrike_shown`: cleaning is what a terminal does.
-/

namespace CommandGrammar

namespace Page

/-! ### The terminal -/

/-- What is shown after one more character. -/
def strike (kept : Text) (c : Char) : Text :=
  if c = backspace then kept.dropLast else kept ++ [c]

/-- A text as a terminal shows it. -/
def shown (text : Text) : Text := text.foldl strike []

@[simp]
theorem strike_backspace (kept : Text) : strike kept backspace = kept.dropLast := if_pos rfl

theorem strike_of_ne {c : Char} (h : c ≠ backspace) (kept : Text) : strike kept c = kept ++ [c] :=
  if_neg h

/-- A character and a backspace after it leave nothing behind. -/
theorem strike_strike {c : Char} (h : c ≠ backspace) (kept : Text) :
    strike (strike kept c) backspace = kept := by
  rw [strike_of_ne h, strike_backspace, List.dropLast_concat]

theorem foldl_strike_of_not_mem {text : Text} (h : backspace ∉ text) (kept : Text) :
    text.foldl strike kept = kept ++ text := by
  induction text generalizing kept with
  | nil => exact (List.append_nil kept).symm
  | cons c cs ih =>
    have hc : c ≠ backspace := fun heq => h (heq ▸ List.mem_cons_self)
    have hcs : backspace ∉ cs := fun hmem => h (List.mem_cons_of_mem c hmem)
    rw [List.foldl_cons, strike_of_ne hc, ih hcs, List.append_assoc, List.singleton_append]

theorem shown_of_not_mem {text : Text} (h : backspace ∉ text) : shown text = text :=
  foldl_strike_of_not_mem h []

/-- What is shown was printed, and is no backspace. -/
theorem mem_foldl_strike {d : Char} (text : Text) {kept : Text} (h : d ∈ text.foldl strike kept) :
    d ∈ kept ∨ (d ∈ text ∧ d ≠ backspace) := by
  induction text generalizing kept with
  | nil => exact Or.inl h
  | cons c cs ih =>
    rcases ih h with hkept | ⟨hcs, hd⟩
    · by_cases hc : c = backspace
      · subst hc
        exact Or.inl ((List.dropLast_sublist kept).subset hkept)
      · rw [strike_of_ne hc, List.mem_append, List.mem_singleton] at hkept
        rcases hkept with hkept | rfl
        · exact Or.inl hkept
        · exact Or.inr ⟨List.mem_cons_self, hc⟩
    · exact Or.inr ⟨List.mem_cons_of_mem c hcs, hd⟩

theorem mem_shown {d : Char} {text : Text} (h : d ∈ shown text) : d ∈ text ∧ d ≠ backspace :=
  (mem_foldl_strike text h).resolve_left List.not_mem_nil

/-! ### One round -/

/-- **A round changes nothing of what is shown**, whatever is shown before the text. -/
theorem foldl_strike_erasePairs (text kept : Text) :
    (erasePairs text).foldl strike kept = text.foldl strike kept := by
  fun_induction erasePairs text generalizing kept with
  | case1 => rfl
  | case2 c => rfl
  | case3 c d cs h ih =>
    simp only [Bool.and_eq_true, bne_iff_ne, beq_iff_eq] at h
    obtain ⟨hc, rfl⟩ := h
    rw [ih, List.foldl_cons, List.foldl_cons, strike_strike hc]
  | case4 c d cs h ih =>
    rw [List.foldl_cons, ih]
    rfl

/-- A round that changes a text makes it shorter. -/
theorem erasePairs_eq_or_length_lt (text : Text) :
    erasePairs text = text ∨ (erasePairs text).length < text.length := by
  fun_induction erasePairs text with
  | case1 => exact Or.inl rfl
  | case2 c => exact Or.inl rfl
  | case3 c d cs h ih =>
    have hle := length_erasePairs_le cs
    right
    simp only [List.length_cons]
    omega
  | case4 c d cs h ih =>
    rcases ih with heq | hlt
    · exact Or.inl (by rw [heq])
    · right
      simp only [List.length_cons] at hlt ⊢
      omega

/-- Where a round finds no pair, no backspace comes after another character. -/
theorem not_mem_of_idle {c : Char} {cs : Text} (hc : c ≠ backspace)
    (hidle : erasePairs (c :: cs) = c :: cs) : backspace ∉ c :: cs := by
  induction cs generalizing c with
  | nil => simpa using Ne.symm hc
  | cons d cs ih =>
    rw [erasePairs] at hidle
    split at hidle
    · -- The pair would be dropped, and the round would be shorter.
      have hle := length_erasePairs_le cs
      have hlength := congrArg List.length hidle
      simp only [List.length_cons] at hlength
      omega
    · rename_i hpair
      have hd : d ≠ backspace := by
        intro heq
        exact hpair (by simp [hc, heq])
      have hrest := ih hd (List.tail_eq_of_cons_eq hidle)
      rw [List.mem_cons, not_or]
      exact ⟨Ne.symm hc, hrest⟩

/-- Where a round finds no pair, the terminal drops the backspaces and nothing else. -/
theorem shown_of_idle {text : Text} (hidle : erasePairs text = text) :
    shown text = text.filter (· != backspace) := by
  induction text with
  | nil => rfl
  | cons c cs ih =>
    by_cases hc : c = backspace
    · subst hc
      have hcs : erasePairs cs = cs := by
        cases cs with
        | nil => rfl
        | cons d cs =>
          rw [erasePairs, if_neg (by simp)] at hidle
          exact List.tail_eq_of_cons_eq hidle
      show cs.foldl strike (strike [] backspace) = _
      rw [strike_backspace, List.filter_cons_of_neg (by simp)]
      exact ih hcs
    · have hnot := not_mem_of_idle hc hidle
      have hkeep : ∀ d ∈ c :: cs, (d != backspace) = true := by
        intro d hd
        rw [bne_iff_ne]
        exact fun heq => hnot (heq ▸ hd)
      rw [shown_of_not_mem hnot, List.filter_eq_self.2 hkeep]

/-! ### All rounds -/

/-- Rounds from a text to what they end in. -/
inductive Rounds : Text → Text → Prop
  /-- Without backspaces there is nothing to do. -/
  | done {text : Text} : backspace ∉ text → Rounds text text
  /-- A round that finds no pair is the last one. -/
  | idle {text : Text} : backspace ∈ text → erasePairs text = text →
      Rounds text (text.filter (· != backspace))
  | round {text result : Text} : backspace ∈ text → erasePairs text ≠ text →
      Rounds (erasePairs text) result → Rounds text result

/-- The limit on the number of rounds is never reached. -/
theorem rounds_eraseRounds {limit : Nat} {text : Text} (h : text.length ≤ limit) :
    Rounds text (eraseRounds limit text) := by
  induction limit generalizing text with
  | zero =>
    obtain rfl : text = [] := List.eq_nil_of_length_eq_zero (Nat.le_zero.1 h)
    exact Rounds.done List.not_mem_nil
  | succ limit ih =>
    by_cases hmem : backspace ∈ text
    · rw [eraseRounds, if_pos (List.contains_iff_mem.2 hmem)]
      show Rounds text (if erasePairs text = text then _ else _)
      split
      · rename_i hidle
        exact Rounds.idle hmem hidle
      · rename_i hchange
        have hlt := (erasePairs_eq_or_length_lt text).resolve_left hchange
        exact Rounds.round hmem hchange (ih (by omega))
    · rw [eraseRounds, if_neg (mt List.contains_iff_mem.1 hmem)]
      exact Rounds.done hmem

/-- **The rounds come to an end.** -/
theorem rounds_stripOverstrike (raw : Text) : Rounds raw (stripOverstrike raw) :=
  rounds_eraseRounds (Nat.le_refl _)

/-- **The rounds end in what is shown.** -/
theorem Rounds.eq_shown {text result : Text} (h : Rounds text result) : result = shown text := by
  induction h with
  | done hnot => exact (shown_of_not_mem hnot).symm
  | idle _ hidle => exact (shown_of_idle hidle).symm
  | round _ _ _ ih => exact ih.trans (foldl_strike_erasePairs _ [])

/-! ### Printing over characters -/

/-- Pages on which characters of a text, or of such a page, are printed again or underlined. -/
inductive Overstruck (text : Text) : Text → Prop
  | plain : Overstruck text text
  | again (before : Text) (c : Char) (after : Text) : c ≠ backspace →
      Overstruck text (before ++ c :: after) →
      Overstruck text (before ++ c :: backspace :: c :: after)
  | underlined (before : Text) (c : Char) (after : Text) : c ≠ backspace →
      Overstruck text (before ++ c :: after) →
      Overstruck text (before ++ '_' :: backspace :: c :: after)

/-- What is taken back at once is not shown. -/
theorem shown_insert {c : Char} (h : c ≠ backspace) (before after : Text) :
    shown (before ++ c :: backspace :: after) = shown (before ++ after) := by
  unfold shown
  rw [List.foldl_append, List.foldl_append, List.foldl_cons, List.foldl_cons, strike_strike h]

/-- **Characters printed over each other** show the last one. -/
theorem Overstruck.shown_eq {text page : Text} (h : Overstruck text page) :
    shown page = shown text := by
  induction h with
  | plain => rfl
  | again before c after hc _ ih => rw [shown_insert hc, ih]
  | underlined before c after hc _ ih => rw [shown_insert (by decide), ih]

/-- **Cleaning is what a terminal does.** For every page the rounds come to an end, and what they
end in is the page as a terminal shows it, with no backspace in it; and if the page is a text
without backspaces some of whose characters are printed again or underlined, however often, it is
that text. -/
theorem stripOverstrike_shown (raw : Text) :
    Rounds raw (stripOverstrike raw) ∧ stripOverstrike raw = shown raw ∧
      backspace ∉ stripOverstrike raw ∧
      ∀ text, backspace ∉ text → Overstruck text raw → stripOverstrike raw = text := by
  have hrounds := rounds_stripOverstrike raw
  have heq : stripOverstrike raw = shown raw := hrounds.eq_shown
  refine ⟨hrounds, heq, ?_, ?_⟩
  · rw [heq]
    exact fun hmem => (mem_shown hmem).2 rfl
  · intro text hnot hover
    rw [heq, hover.shown_eq, shown_of_not_mem hnot]

/-- A bold letter, and an underlined one that is bold as well. -/
theorem stripOverstrike_shown_bold :
    backspace ∉ "-v".toList ∧ Overstruck "-v".toList "-\x08-_\x08v\x08v".toList ∧
      stripOverstrike "-\x08-_\x08v\x08v".toList = "-v".toList := by
  have hnot : backspace ∉ "-v".toList := by decide
  have hover : Overstruck "-v".toList "-\x08-_\x08v\x08v".toList := by
    have hdash := Overstruck.again [] '-' "v".toList (by decide) Overstruck.plain
    have hbold := Overstruck.again "-\x08-".toList 'v' [] (by decide) hdash
    exact Overstruck.underlined "-\x08-".toList 'v' "\x08v".toList (by decide) hbold
  exact ⟨hnot, hover, (stripOverstrike_shown _).2.2.2 _ hnot hover⟩

end Page

end CommandGrammar
