import CommandGrammar.Proofs.Descriptions

/-!
# The same spellings before another description

Spellings are printed with another text behind them than they were read with, and with commas for
the words between them. Both are a `Respelling`: what cannot end a spelling may change, all else
stays. Readers stop at the same places before and after it, and it suffices to say so once for each.

Where a reader finds nothing, it might find something after the change, and `Stable` says when it
does not: no bracket is closed by what now follows the spellings, and no comma stands for a word
next to another gap, where it would look like the end of a list of spellings.

* `Respelling.flag`, `Respelling.goOn`: the ends a reader answers are changed with the text;
* `Respelling.description?_eq_none`: no description begins within the changed spellings;
* `Respelling.readFrom?_eq_none`: what could not be read cannot be read after the change, by
  induction along the list of spellings;
* `findSome?_goOn`: what was read up to the end of the spellings was read within them.
-/

namespace CommandGrammar

namespace OptionLine

/-- A change of the ends of a line: what follows the spellings is given, and some of the words
between spellings become commas. -/
structure Respelling (rest : Text) (φ : Text → Text) : Prop where
  border : Border rest
  nil : φ [] = rest
  keep : ∀ {c cs}, ¬ orWord <+: c :: cs → φ (c :: cs) = c :: φ cs
  or : ∀ cs, φ (orWord ++ cs) = orWord ++ φ cs ∨ φ (orWord ++ cs) = [',', ' '] ++ φ cs

theorem or_induction {P : Text → Prop} (nil : P []) (or : ∀ cs, P cs → P (orWord ++ cs))
    (cons : ∀ c cs, ¬ orWord <+: c :: cs → P cs → P (c :: cs)) (cs : Text) : P cs := by
  induction hlen : cs.length using Nat.strong_induction_on generalizing cs with
  | _ n ih =>
    cases cs with
    | nil => exact nil
    | cons c cs =>
      by_cases hor : orWord <+: c :: cs
      · obtain ⟨after, hafter⟩ := hor
        rw [← hafter] at hlen ⊢
        rw [List.length_append] at hlen
        exact or after (ih after.length (by rw [← hlen]; exact Nat.lt_add_of_pos_left (by decide))
          after rfl)
      · exact cons c cs hor (ih cs.length (by rw [← hlen]; exact Nat.lt_succ_self _) cs rfl)

/-- No bracket at the beginning of a text, perhaps after a space, is closed only in what follows
it. -/
def ClosedAt (cs rest : Text) : Prop :=
  ∀ opening closing, Bracket opening closing → ∀ after,
    cs = opening :: after ∨ cs = ' ' :: opening :: after → closing ∉ after → closing ∉ rest

namespace Respelling

variable {rest : Text} {φ : Text → Text}

theorem keep_of_ne (h : Respelling rest φ) {c : Char} (hc : c ≠ ' ') (cs : Text) :
    φ (c :: cs) = c :: φ cs :=
  h.keep fun hor => hc (List.cons_prefix_cons.1 hor).1.symm

theorem keep_ink (h : Respelling rest φ) {c : Char} (hc : isInk c = true) (cs : Text) :
    φ (c :: cs) = c :: φ cs := by
  refine h.keep_of_ne ?_ cs
  rintro rfl
  exact absurd hc (by decide)

/-- What is read next is blunt before and after a change. -/
theorem blunt (h : Respelling rest φ) {cs : Text} (hcs : Blunt cs) : Blunt (φ cs) := by
  cases cs with
  | nil =>
    rw [h.nil]
    exact h.border.blunt
  | cons c cs =>
    by_cases hor : orWord <+: c :: cs
    · obtain ⟨after, hafter⟩ := hor
      rw [← hafter]
      rcases h.or after with heq | heq <;> rw [heq] <;> rintro d ⟨⟩ <;> rfl
    · rw [h.keep hor]
      rintro d ⟨⟩
      exact hcs c rfl

theorem head?_eq_some_iff (h : Respelling rest φ) {c : Char} (hc : isInk c = true) {cs : Text} :
    (φ cs).head? = some c ↔ cs.head? = some c := by
  rcases blunt_or_exists cs with hcs | ⟨d, tail, rfl, hd⟩
  · have hne {text : Text} (htext : Blunt text) : text.head? ≠ some c :=
      fun heq => Bool.false_ne_true ((htext c heq).symm.trans hc)
    exact iff_of_false (hne (h.blunt hcs)) (hne hcs)
  · rw [h.keep_ink hd]
    rfl

/-- A character that can end a spelling stands in a changed text where it stood before. -/
theorem exists_cons (h : Respelling rest φ) {c : Char} (hc : isInk c = true) {cs tail : Text}
    (heq : φ cs = c :: tail) : ∃ cs', cs = c :: cs' ∧ φ cs' = tail := by
  have hhead : cs.head? = some c := (h.head?_eq_some_iff hc).1 (by rw [heq]; rfl)
  obtain ⟨cs', rfl⟩ := List.head?_eq_some_iff.1 hhead
  rw [h.keep_ink hc] at heq
  exact ⟨cs', rfl, List.tail_eq_of_cons_eq heq⟩

/-! #### Flags -/

theorem runs (h : Respelling rest φ) {p : Char → Bool} (hp : InkOnly p) (cs : Text) :
    runs p (φ cs) = (runs p cs).map φ := by
  induction cs with
  | nil => exact runs_of_blunt hp (h.blunt fun _ hc => nomatch hc)
  | cons c cs ih =>
    rcases blunt_or_exists (c :: cs) with hcs | ⟨_, _, ⟨⟩, hc⟩
    · rw [runs_of_blunt hp hcs, runs_of_blunt hp (h.blunt hcs)]
      rfl
    · rw [h.keep_ink hc, OptionLine.runs, OptionLine.runs]
      split
      · rw [ih, List.map_append, ← h.keep_ink hc]
        rfl
      · rw [← h.keep_ink hc]
        rfl

theorem flagBody (h : Respelling rest φ) (cs : Text) : flagBody (φ cs) = (flagBody cs).map φ := by
  rcases blunt_or_exists cs with hcs | ⟨c, tail, rfl, hc⟩
  · rw [flagBody_of_blunt hcs, flagBody_of_blunt (h.blunt hcs)]
    rfl
  · rw [h.keep_ink hc, OptionLine.flagBody, OptionLine.flagBody, h.runs inkOnly_isFlagBody]
    split <;> rfl

theorem dropWhile (h : Respelling rest φ) {p : Char → Bool} (hp : InkOnly p) (cs : Text) :
    (φ cs).dropWhile p = φ (cs.dropWhile p) := by
  have hblunt {text : Text} (htext : Blunt text) : text.dropWhile p = text := by
    cases text with
    | nil => rfl
    | cons c text =>
      exact List.dropWhile_cons_of_neg (by rw [htext.not hp c rfl]; exact Bool.false_ne_true)
  induction cs with
  | nil => exact hblunt (h.blunt fun _ hc => nomatch hc)
  | cons c cs ih =>
    rcases blunt_or_exists (c :: cs) with hcs | ⟨_, _, ⟨⟩, hc⟩
    · rw [hblunt hcs, hblunt (h.blunt hcs)]
    · rw [h.keep_ink hc, List.dropWhile_cons, List.dropWhile_cons]
      split
      · exact ih
      · exact (h.keep_ink hc cs).symm

theorem assigned (h : Respelling rest φ) (cs : Text) : assigned (φ cs) = (assigned cs).map φ := by
  by_cases hcs : cs.head? = some '='
  · obtain ⟨tail, rfl⟩ := List.head?_eq_some_iff.1 hcs
    rw [h.keep_of_ne (by decide)]
    rcases blunt_or_exists tail with htail | ⟨c, tail, rfl, hc⟩
    · rw [assigned_of_blunt htail, assigned_of_blunt (h.blunt htail)]
      rfl
    · rw [h.keep_ink hc, OptionLine.assigned, OptionLine.assigned, h.runs inkOnly_operand.2]
      split <;> rfl
  · rw [assigned_of_ne hcs, assigned_of_ne (mt (h.head?_eq_some_iff (by decide)).1 hcs)]
    rfl

theorem operand (h : Respelling rest φ) (cs : Text) : operand (φ cs) = (operand cs).map φ := by
  rcases blunt_or_exists cs with hcs | ⟨c, tail, rfl, hc⟩
  · rw [operand_of_blunt hcs, operand_of_blunt (h.blunt hcs)]
    rfl
  · rw [h.keep_ink hc, OptionLine.operand, OptionLine.operand, h.dropWhile inkOnly_operand.1,
      h.assigned]
    split <;> rfl

theorem flag (h : Respelling rest φ) (cs : Text) : flag (φ cs) = (flag cs).map φ := by
  have hdash {cs : Text} : (φ cs).head? = some '-' ↔ cs.head? = some '-' :=
    h.head?_eq_some_iff (by decide)
  by_cases hcs : cs.head? = some '-'
  · obtain ⟨tail, rfl⟩ := List.head?_eq_some_iff.1 hcs
    rw [h.keep_of_ne (by decide)]
    by_cases htail : tail.head? = some '-'
    · obtain ⟨tail, rfl⟩ := List.head?_eq_some_iff.1 htail
      rw [h.keep_of_ne (by decide)]
      exact h.flagBody tail
    · rw [flag_dash htail, flag_dash (mt hdash.1 htail)]
      exact h.flagBody tail
  · rw [flag_of_not_dash hcs, flag_of_not_dash (mt hdash.1 hcs)]
    exact h.operand cs

/-! #### Placeholders -/

theorem dropPrefix? (h : Respelling rest φ) {p : Text} (hp : ∀ c ∈ p, isInk c = true) (cs : Text) :
    Text.dropPrefix? p (φ cs) = (Text.dropPrefix? p cs).map φ := by
  induction p generalizing cs with
  | nil => rfl
  | cons a p ih =>
    have ha : isInk a = true := hp a List.mem_cons_self
    have hhead {text : Text} (htext : text.head? ≠ some a) :
        Text.dropPrefix? (a :: p) text = none := by
      cases text with
      | nil => rfl
      | cons c text => exact if_neg fun hac => htext (congrArg some hac.symm)
    by_cases hcs : cs.head? = some a
    · obtain ⟨tail, rfl⟩ := List.head?_eq_some_iff.1 hcs
      rw [h.keep_ink ha, Text.dropPrefix?, Text.dropPrefix?, if_pos rfl, if_pos rfl]
      exact ih (fun c hc => hp c (List.mem_cons_of_mem a hc)) tail
    · rw [hhead hcs, hhead (mt (h.head?_eq_some_iff ha).1 hcs)]
      rfl

theorem capitals (h : Respelling rest φ) (cs : Text) : capitals (φ cs) = (capitals cs).map φ := by
  rcases blunt_or_exists cs with hcs | ⟨c, tail, rfl, hc⟩
  · rw [capitals_of_blunt hcs, capitals_of_blunt (h.blunt hcs)]
    rfl
  · rw [h.keep_ink hc, OptionLine.capitals, OptionLine.capitals, h.runs inkOnly_isCapital]
    split
    · have hdots : ∀ c ∈ ['.', '.', '.'], isInk c = true := List.all_eq_true.1 rfl
      rw [List.flatMap_map, List.map_flatMap]
      refine congrArg (List.flatMap · _) (funext fun e => ?_)
      rw [h.dropPrefix? hdots]
      cases Text.dropPrefix? ['.', '.', '.'] e <;> rfl
    · rfl

/-- A closing bracket is found at the same place, or if there is none, only in what follows the
spellings. -/
theorem bracketed (h : Respelling rest φ) {opening closing : Char} (hb : Bracket opening closing)
    (cs : Text) :
    bracketed closing (φ cs)
      = if closing ∈ cs then (bracketed closing cs).map φ else bracketed closing rest := by
  have hor : closing ∉ orWord := by cases hb <;> decide
  have hcomma : closing ∉ [',', ' '] := by cases hb <;> decide
  induction cs using or_induction with
  | nil =>
    rw [h.nil]
    exact (if_neg List.not_mem_nil).symm
  | or cs ih =>
    have hmem : closing ∈ orWord ++ cs ↔ closing ∈ cs := by simp [hor]
    have hpass : OptionLine.bracketed closing (φ (orWord ++ cs))
        = OptionLine.bracketed closing (φ cs) := by
      rcases h.or cs with heq | heq <;> rw [heq]
      · exact bracketed_pass hor _
      · exact bracketed_pass hcomma _
    rw [hpass, bracketed_pass hor, ih]
    simp only [hmem]
  | cons c cs hkeep ih =>
    rw [h.keep hkeep]
    by_cases hc : c = closing
    · rw [hc, bracketed_closing, bracketed_closing, if_pos List.mem_cons_self]
      rfl
    · have hmem : closing ∈ c :: cs ↔ closing ∈ cs := by simp [Ne.symm hc]
      have hsingle : closing ∉ [c] := by simp [Ne.symm hc]
      have hpass (text : Text) :
          OptionLine.bracketed closing (c :: text) = OptionLine.bracketed closing text :=
        bracketed_pass hsingle text
      rw [hpass, hpass, ih]
      simp only [hmem]

/-- No bracket that a text begins with is closed only in what follows the spellings. -/
theorem inBrackets (h : Respelling rest φ) {cs : Text}
    (hclosed : ∀ opening closing, Bracket opening closing → ∀ after, cs = opening :: after →
      closing ∉ after → closing ∉ rest) :
    inBrackets (φ cs) = (inBrackets cs).map φ := by
  by_cases hcs : ∃ opening closing, Bracket opening closing ∧ cs.head? = some opening
  · obtain ⟨opening, closing, hb, hhead⟩ := hcs
    obtain ⟨after, rfl⟩ := List.head?_eq_some_iff.1 hhead
    rw [h.keep_ink hb.isInk_opening, inBrackets_opening hb, inBrackets_opening hb, h.bracketed hb]
    split
    · rfl
    · rename_i hmem
      rw [bracketed_of_not_mem hmem, bracketed_of_not_mem (hclosed _ _ hb after rfl hmem)]
      rfl
  · have hne (opening closing : Char) (hb : Bracket opening closing) : cs.head? ≠ some opening :=
      fun hhead => hcs ⟨opening, closing, hb, hhead⟩
    rw [inBrackets_of_ne hne, inBrackets_of_ne fun opening closing hb =>
      mt (h.head?_eq_some_iff hb.isInk_opening).1 (hne opening closing hb)]
    rfl

/-! #### Lists of spellings -/

/-- What follows a word between spellings that a change has made is no flag. -/
theorem flag_of_or (h : Respelling rest φ) {cs tail : Text} (hcs : ¬ orWord <+: ' ' :: cs)
    (heq : φ cs = "or ".toList ++ tail) : OptionLine.flag tail = [] := by
  have hwhole : φ cs = 'o' :: 'r' :: ' ' :: tail := heq
  obtain ⟨cs, rfl, hrest⟩ := h.exists_cons (by decide) hwhole
  obtain ⟨cs, rfl, htail⟩ := h.exists_cons (by decide) hrest
  cases cs with
  | nil => exact h.border.flag_tail tail (h.nil.symm.trans htail)
  | cons c cs =>
    have hc : c ≠ ' ' := by
      rintro rfl
      exact hcs ⟨cs, rfl⟩
    rw [h.keep_of_ne hc] at htail
    exact absurd (List.head_eq_of_cons_eq htail) hc

theorem goOn_comma (h : Respelling rest φ) {cs : Text} (hends : Ends cs []) :
    goOn (',' :: φ cs) = (goOn (',' :: cs)).map φ := by
  by_cases hcs : cs.head? = some ' '
  · obtain ⟨cs, rfl⟩ := List.head?_eq_some_iff.1 hcs
    by_cases hor : orWord <+: ' ' :: cs
    · -- nothing is read from a comma before the word between two spellings
      obtain ⟨after, hafter⟩ := hor
      rw [← hafter]
      rcases h.or after with heq | heq <;> rw [heq] <;> rfl
    · rw [h.keep hor]
      exact h.flag cs
  · obtain ⟨c, tail, rfl, -⟩ := hends.exists_cons
    have hc : c ≠ ' ' := fun hc => hcs (congrArg some hc)
    have hhead : (φ (c :: tail)).head? ≠ some ' ' := by
      rw [h.keep_of_ne hc]
      exact hcs
    rw [OptionLine.goOn_comma hhead, OptionLine.goOn_comma hcs, h.flag]

theorem goOn (h : Respelling rest φ) {cs : Text} (hends : Ends cs [])
    (hclosed : ClosedAt cs rest) : goOn (φ cs) = (goOn cs).map φ := by
  by_cases hor : orWord <+: cs
  · obtain ⟨after, rfl⟩ := hor
    have hflag : OptionLine.goOn (φ (orWord ++ after)) = OptionLine.flag (φ after) := by
      rcases h.or after with heq | heq <;> rw [heq]
      · exact goOn_or _
      · exact goOn_comma_space _
    rw [hflag, goOn_or, h.flag]
  · obtain ⟨c, tail, rfl, htail⟩ := hends.exists_cons
    rw [h.keep hor]
    by_cases hspace : c = ' '
    · subst hspace
      have hne (after : Text) : tail ≠ "or ".toList ++ after := by
        rintro rfl
        exact hor ⟨after, rfl⟩
      rw [goOn_space fun after heq => h.flag_of_or hor heq,
        goOn_space fun after heq => absurd heq (hne after), h.capitals, h.flag,
        h.inBrackets fun opening closing hb after heq =>
          hclosed opening closing hb after (Or.inr (congrArg _ heq)),
        List.map_append, List.map_append]
    · by_cases hcomma : c = ','
      · subst hcomma
        exact h.goOn_comma (htail (by decide))
      · by_cases hequals : c = '='
        · subst hequals
          rw [goOn_equals, goOn_equals, h.runs inkOnly_isJoined]
        · rw [goOn_of_ne hspace hcomma hequals, goOn_of_ne hspace hcomma hequals, ← h.keep hor]
          exact h.inBrackets fun opening closing hb after heq =>
            hclosed opening closing hb after (Or.inl heq)

/-! #### Descriptions -/

theorem ends (h : Respelling rest φ) {cs : Text} (hends : Ends cs []) : Ends (φ cs) rest := by
  induction cs using or_induction with
  | nil => exact absurd hends.length_lt (Nat.lt_irrefl 0)
  | or cs ih =>
    have hne : cs ≠ [] := by
      rintro rfl
      rw [List.append_nil, ends_nil_iff] at hends
      obtain ⟨c, ⟨⟩, hc⟩ := hends
      exact absurd hc (by decide)
    have hcs := ih (hends.of_isSuffix (List.suffix_append orWord cs) hne)
    rcases h.or cs with heq | heq <;> rw [heq]
    · exact hcs.append orWord
    · exact hcs.append [',', ' ']
  | cons c cs hkeep ih =>
    rw [h.keep hkeep]
    by_cases hcs : cs = []
    · subst hcs
      obtain ⟨d, ⟨⟩, hd⟩ := ends_nil_iff.1 hends
      rw [h.nil]
      exact ⟨[], c, rfl, hd⟩
    · exact (ih (hends.of_isSuffix (List.suffix_cons c cs) hcs)).cons c

theorem head?_of_or {cs : Text} (h : orWord <+: ' ' :: cs) : cs.head? = some 'o' := by
  obtain ⟨after, hafter⟩ := h
  rw [← List.tail_eq_of_cons_eq hafter]
  rfl

theorem head?_eq_space (h : Respelling rest φ) {cs : Text} (hne : cs ≠ [])
    (heq : (φ cs).head? = some ' ') : cs.head? = some ' ' := by
  obtain ⟨c, tail, rfl⟩ := List.exists_cons_of_ne_nil hne
  by_cases hor : orWord <+: c :: tail
  · exact congrArg some (List.cons_prefix_cons.1 hor).1.symm
  · rw [h.keep hor] at heq
    exact heq

theorem keep_tabs (h : Respelling rest φ) {taken : Text} (htaken : ∀ c ∈ taken, c = '\t')
    (cs : Text) : φ (taken ++ cs) = taken ++ φ cs := by
  induction taken with
  | nil => rfl
  | cons c taken ih =>
    have hc : c ≠ ' ' := by
      rw [htaken c List.mem_cons_self]
      decide
    show φ (c :: (taken ++ cs)) = c :: (taken ++ φ cs)
    rw [h.keep_of_ne hc, ih fun d hd => htaken d (List.mem_cons_of_mem c hd)]

theorem keep_spaces (h : Respelling rest φ) {taken : Text} (htaken : ∀ c ∈ taken, c = ' ')
    {cs : Text} (hcs : cs.head? ≠ some 'o') : φ (taken ++ cs) = taken ++ φ cs := by
  induction taken with
  | nil => rfl
  | cons c taken ih =>
    have htaken' : ∀ d ∈ taken, d = ' ' := fun d hd => htaken d (List.mem_cons_of_mem c hd)
    have hor : ¬ orWord <+: c :: (taken ++ cs) := by
      rw [htaken c List.mem_cons_self]
      intro hor
      have ho := head?_of_or hor
      cases taken with
      | nil => exact hcs ho
      | cons d taken =>
        have hd : d = 'o' := Option.some.inj ho
        exact absurd (hd.symm.trans (htaken' d List.mem_cons_self)) (by decide)
    show φ (c :: (taken ++ cs)) = c :: (taken ++ φ cs)
    rw [h.keep hor, ih htaken']

/-- Tabs that are followed by a blank still are after a change. -/
theorem tabs_blank (h : Respelling rest φ) {cs : Text} (hends : Ends cs [])
    (htab : ¬ '\t' :: orWord <:+: '\t' :: cs)
    (hblank : ∀ c ∈ (cs.dropWhile (· == '\t')).head?, Text.isBlank c = true) :
    ∀ c ∈ ((φ cs).dropWhile (· == '\t')).head?, Text.isBlank c = true := by
  obtain ⟨d, after, hdrop⟩ :=
    exists_dropWhile_eq_cons (hends.exists_ne (by decide : isInk '\t' = false))
  obtain ⟨taken, rfl, htaken, hd⟩ := Text.exists_of_dropWhile_eq_cons hdrop
  have htabs : ∀ c ∈ taken, c = '\t' := fun c hc => beq_iff_eq.1 (htaken c hc)
  have hor : ¬ orWord <+: d :: after := by
    rintro ⟨tail, htail⟩
    refine htab ⟨taken, tail, ?_⟩
    have hshift : taken ++ ['\t'] = '\t' :: taken := by
      rw [List.eq_replicate_of_mem htabs, ← List.replicate_succ', List.replicate_succ]
    rw [← htail, ← List.cons_append, ← hshift]
    simp
  have hkept : (taken ++ d :: φ after).dropWhile (· == '\t') = d :: φ after :=
    (Text.takeWhile_dropWhile_append htaken (by rintro _ ⟨⟩; exact hd)).2
  rw [h.keep_tabs htabs, h.keep hor, hkept]
  rw [hdrop] at hblank
  exact hblank

/-- Spaces that are followed by a blank still are after a change. -/
theorem spaces_blank (h : Respelling rest φ) {cs : Text} (hends : Ends cs [])
    (hblank : ∀ c ∈ (afterGap (' ' :: cs)).head?, Text.isBlank c = true) :
    ∀ c ∈ (afterGap (' ' :: φ cs)).head?, Text.isBlank c = true := by
  by_cases hspace : (φ cs).head? = some ' '
  · obtain ⟨c, tail, rfl, htail⟩ := hends.exists_cons
    obtain rfl : c = ' ' := Option.some.inj (h.head?_eq_space (List.cons_ne_nil c tail) hspace)
    by_cases hor : orWord <+: ' ' :: tail
    · obtain ⟨after, hafter⟩ := hor
      rw [← hafter] at hblank
      exact absurd (hblank 'o' rfl) (by decide)
    · obtain ⟨d, after, hdrop⟩ :=
        exists_dropWhile_eq_cons ((htail (by decide)).exists_ne (by decide : isInk ' ' = false))
      obtain ⟨taken, rfl, htaken, hd⟩ := Text.exists_of_dropWhile_eq_cons hdrop
      have hdblank : Text.isBlank d = true := hblank d (by
        show d ∈ (List.dropWhile _ _).head?
        rw [hdrop]
        rfl)
      have ho : (d :: after).head? ≠ some 'o' := by
        rintro ⟨⟩
        exact absurd hdblank (by decide)
      have hkept : (taken ++ d :: φ after).dropWhile (· == ' ') = d :: φ after :=
        (Text.takeWhile_dropWhile_append htaken (by rintro _ ⟨⟩; exact hd)).2
      rw [h.keep hor, h.keep_spaces (fun c hc => beq_iff_eq.1 (htaken c hc)) ho,
        h.keep_of_ne (by rintro rfl; exact absurd hd (by decide))]
      show ∀ c ∈ (List.dropWhile _ _).head?, _
      rw [hkept]
      rintro _ ⟨⟩
      exact hdblank
  · rw [afterGap_space hspace]
    exact fun _ hmem => nomatch hmem

/-- Where a gap is followed by a blank, it still is after a change. -/
theorem afterGap_blank (h : Respelling rest φ) {cs : Text} (hends : Ends cs [])
    (htab : ¬ '\t' :: orWord <:+: cs)
    (hblank : ∀ c ∈ (afterGap cs).head?, Text.isBlank c = true) :
    ∀ c ∈ (afterGap (φ cs)).head?, Text.isBlank c = true := by
  by_cases hor : orWord <+: cs
  · obtain ⟨after, rfl⟩ := hor
    rcases h.or after with heq | heq <;> rw [heq] <;> exact fun _ hmem => nomatch hmem
  · obtain ⟨c, tail, rfl, htail⟩ := hends.exists_cons
    rw [h.keep hor]
    by_cases hc : c = '\t'
    · subst hc
      exact h.tabs_blank (htail (by decide)) htab hblank
    · by_cases hspace : c = ' '
      · subst hspace
        exact h.spaces_blank (htail (by decide)) hblank
      · rw [afterGap_of_ne hc hspace]
        exact fun _ hmem => nomatch hmem

theorem description?_eq_none (h : Respelling rest φ) {cs : Text} (hends : Ends cs [])
    (hwide : ¬ orWord ++ [' '] <:+: cs) (htab : ¬ '\t' :: orWord <:+: cs)
    (hnone : description? cs = none) : description? (φ cs) = none := by
  rw [description?_eq_none_iff] at hnone ⊢
  by_cases hor : orWord <+: cs
  · obtain ⟨after, rfl⟩ := hor
    rcases h.or after with heq | heq <;> rw [heq]
    · exact ⟨rfl, fun _ hmem => nomatch hmem⟩
    · have hne : after ≠ [] := by
        rintro rfl
        obtain ⟨c, ⟨⟩, hc⟩ := ends_nil_iff.1 hends
        exact absurd hc (by decide)
      have hafter : Ends after [] := hends.of_isSuffix (List.suffix_append orWord after) hne
      have hhead : (φ after).head? ≠ some ' ' := by
        intro hspace
        obtain ⟨tail, rfl⟩ := List.head?_eq_some_iff.1 (h.head?_eq_space hne hspace)
        exact hwide ⟨[], tail, rfl⟩
      refine ⟨all_isMargin_eq_false ((h.ends hafter).cons ' ').exists_ink, ?_⟩
      show ∀ c ∈ (afterGap (' ' :: φ after)).head?, _
      rw [afterGap_space hhead]
      exact fun _ hmem => nomatch hmem
  · obtain ⟨c, tail, rfl, htail⟩ := hends.exists_cons
    by_cases hc : c = ','
    · subst hc
      have hends' := htail (by decide)
      rw [h.keep hor]
      exact ⟨all_isMargin_eq_false (h.ends hends').exists_ink,
        h.afterGap_blank hends' (fun hi => htab (List.infix_cons hi)) hnone.2⟩
    · rw [afterComma_cons hc] at hnone
      have hcomma : afterComma (φ (c :: tail)) = φ (c :: tail) := by
        rw [h.keep hor]
        exact afterComma_cons hc _
      rw [hcomma]
      exact ⟨all_isMargin_eq_false (h.ends hends).exists_ink, h.afterGap_blank hends htab hnone.2⟩

end Respelling

/-! ### The same spellings before another description -/

theorem respelling_append {rest : Text} (h : Border rest) : Respelling rest (· ++ rest) where
  border := h
  nil := rfl
  keep := fun _ => rfl
  or := fun cs => Or.inl (List.append_assoc orWord cs rest)

/-- Spellings with commas for the words between them. -/
def commas (flags : Text) : Text := Text.replaceAll orWord [',', ' '] flags

theorem commas_or (cs : Text) : commas (orWord ++ cs) = [',', ' '] ++ commas cs :=
  Text.replaceAll_append (by decide) _ cs

theorem commas_cons {c : Char} {cs : Text} (h : ¬ orWord <+: c :: cs) :
    commas (c :: cs) = c :: commas cs :=
  Text.replaceAll_cons h _

theorem respelling_commas {rest : Text} (h : Border rest) :
    Respelling rest (fun flags => commas flags ++ rest) where
  border := h
  nil := rfl
  keep := fun hor => congrArg (· ++ rest) (commas_cons hor)
  or := fun cs => Or.inr (congrArg (· ++ rest) (commas_or cs))

/-- If a bracket that an end of a line begins with is closed only behind the spellings, the list
of spellings can go on only there. -/
theorem goOn_append {cs rest : Text} (h : Border rest) (hends : Ends cs []) :
    goOn (cs ++ rest) = (goOn cs).map (· ++ rest) ∨
      goOn cs = [] ∧ ∀ e ∈ goOn (cs ++ rest), e.length < rest.length := by
  by_cases hclosed : ClosedAt cs rest
  · exact Or.inl ((respelling_append h).goOn hends hclosed)
  · simp only [ClosedAt, Classical.not_forall, not_not] at hclosed
    obtain ⟨opening, closing, hb, after, hcs, hafter, -⟩ := hclosed
    have hgoOn : goOn cs = bracketed closing after ∧
        goOn (cs ++ rest) = bracketed closing (after ++ rest) := by
      rcases hcs with rfl | rfl
      · exact ⟨(goOn_opening hb _).1, (goOn_opening hb _).1⟩
      · exact ⟨(goOn_opening hb _).2, (goOn_opening hb _).2⟩
    refine Or.inr ⟨hgoOn.1.trans (bracketed_of_not_mem hafter), fun e he => ?_⟩
    rw [hgoOn.2, bracketed_pass hafter] at he
    obtain ⟨inside, rfl, -⟩ := eq_append_of_mem_bracketed he
    rw [List.length_append, List.length_cons]
    omega

/-- What is asked of spellings on which nothing more is to be read with commas and before another
description. -/
structure Stable (rest cs : Text) : Prop where
  ends : cs = [] ∨ Ends cs []
  wide : ¬ orWord ++ [' '] <:+: cs
  tab : ¬ '\t' :: orWord <:+: cs
  closed : ∀ e, e <:+ cs → ClosedAt e rest

theorem nil_or_ends_of_isSuffix {cs e : Text} (h : cs = [] ∨ Ends cs []) (he : e <:+ cs) :
    e = [] ∨ Ends e [] := by
  by_cases hne : e = []
  · exact Or.inl hne
  · rcases h with rfl | hends
    · exact absurd (List.suffix_nil.1 he) hne
    · exact Or.inr (hends.of_isSuffix he hne)

theorem Stable.of_isSuffix {rest cs e : Text} (h : Stable rest cs) (he : e <:+ cs) :
    Stable rest e where
  ends := nil_or_ends_of_isSuffix h.ends he
  wide := fun hi => h.wide (hi.trans he.isInfix)
  tab := fun hi => h.tab (hi.trans he.isInfix)
  closed := fun e' he' => h.closed e' (he'.trans he)

/-- Where a line cannot be read, it cannot be read after a change. -/
theorem Respelling.readFrom?_eq_none {rest rest' : Text} {φ : Text → Text}
    (h : Respelling rest' φ) (hrest : (description? rest).isSome) {cs : Text}
    (hcs : Stable rest' cs) (hnone : readFrom? (cs ++ rest) = none) : readFrom? (φ cs) = none := by
  induction cs using goOn_induction with
  | step cs ih =>
    rw [readFrom?_eq, Option.or_eq_none_iff, Option.map_eq_none_iff] at hnone ⊢
    rcases hcs.ends with rfl | hends
    · rw [List.nil_append] at hnone
      rw [hnone.2] at hrest
      exact absurd hrest Bool.false_ne_true
    · refine ⟨?_, h.description?_eq_none hends hcs.wide hcs.tab (description?_append hends hnone.2)⟩
      rw [h.goOn hends (hcs.closed cs List.suffix_rfl), List.findSome?_map]
      rcases goOn_append (border_of_description? hrest) hends with hsame | ⟨hnil, -⟩
      · rw [hsame, List.findSome?_map, List.findSome?_eq_none_iff] at hnone
        rw [List.findSome?_eq_none_iff]
        exact fun e he =>
          ih e he (hcs.of_isSuffix (ends_of_mem_goOn he).isSuffix) (hnone.1 e he)
      · rw [hnil]
        rfl

/-- What is read up to the end of spellings is read from an end within them. -/
theorem findSome?_goOn {cs rest : Text} (hends : Ends cs []) {r : Reading}
    (hread : readFrom? (cs ++ rest) = some r) (hr : r.after = rest) :
    (goOn cs).findSome? (fun e => readFrom? (e ++ rest)) = some r := by
  have hrest : (description? rest).isSome := by
    rw [← hr, (stop_of_readFrom? hread).2]
    rfl
  rw [readFrom?_eq] at hread
  rcases Option.or_eq_some_iff.1 hread with hread | ⟨-, hread⟩
  · rcases goOn_append (border_of_description? hrest) hends with hsame | ⟨-, hshort⟩
    · rw [hsame, List.findSome?_map] at hread
      exact hread
    · -- what is read from behind the spellings stops behind them
      obtain ⟨e, he, hread⟩ := List.exists_of_findSome?_eq_some hread
      have hlt := hshort e he
      rcases (stop_of_readFrom? hread).1 with heq | hlater
      · rw [← hr, heq] at hlt
        exact absurd hlt (Nat.lt_irrefl _)
      · have hlt' := hlater.length_lt
        rw [hr] at hlt'
        omega
  · obtain ⟨d, -, rfl⟩ := Option.map_eq_some_iff.1 hread
    have hlength := congrArg List.length hr
    have hlt := hends.length_lt
    rw [List.length_append] at hlength
    rw [List.length_nil] at hlt
    omega

end OptionLine

end CommandGrammar
