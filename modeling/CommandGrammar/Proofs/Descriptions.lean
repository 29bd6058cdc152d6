import CommandGrammar.Proofs.OptionLines

/-!
# Where spellings end and descriptions begin

* `exists_of_description?`: a description begins with what is not blank;
* `border_of_description?`: where a description can begin, no spelling goes on;
* `description?_append`: whether one begins within spellings does not depend on what follows them;
* `description?_spaces`: what follows two spaces or more is one.
-/

namespace CommandGrammar

namespace OptionLine

/-- What follows a list of spellings does not begin with a character that can end one, nor with a
space and a flag. -/
structure Border (rest : Text) : Prop where
  blunt : Blunt rest
  flag_tail : ∀ tail, rest = ' ' :: tail → flag tail = []

/-! ### Descriptions -/

theorem ends_nil_iff {cs : Text} : Ends cs [] ↔ ∃ c, cs.getLast? = some c ∧ isInk c = true := by
  constructor
  · rintro ⟨before, c, rfl, hc⟩
    exact ⟨c, List.getLast?_concat, hc⟩
  · rintro ⟨c, hlast, hc⟩
    obtain ⟨before, rfl⟩ := List.getLast?_eq_some_iff.1 hlast
    exact ⟨before, c, rfl, hc⟩

theorem Ends.of_isSuffix {cs e : Text} (h : Ends cs []) (he : e <:+ cs) (hne : e ≠ []) :
    Ends e [] := by
  obtain ⟨before, rfl⟩ := he
  rw [ends_nil_iff, List.getLast?_append_of_ne_nil _ hne] at h
  exact ends_nil_iff.2 h

theorem Ends.exists_ink {cs rest : Text} (h : Ends cs rest) : ∃ c ∈ cs, isInk c = true := by
  obtain ⟨before, c, rfl, hc⟩ := h
  exact ⟨c, List.mem_append_right before List.mem_cons_self, hc⟩

theorem all_isMargin_eq_false {cs : Text} (h : ∃ c ∈ cs, isInk c = true) :
    cs.all isMargin = false := by
  obtain ⟨c, hmem, hc⟩ := h
  rw [List.all_eq_false]
  refine ⟨c, hmem, fun hmargin => ?_⟩
  rw [isInk, hmargin] at hc
  exact Bool.false_ne_true hc

theorem description?_eq_none_iff {cs : Text} :
    description? cs = none ↔ (afterComma cs).all isMargin = false ∧
      ∀ c ∈ (afterGap (afterComma cs)).head?, Text.isBlank c = true := by
  unfold description?
  dsimp only
  cases (afterComma cs).all isMargin with
  | true => simp
  | false =>
    cases afterGap (afterComma cs) with
    | nil => simp
    | cons c rest => cases hblank : Text.isBlank c <;> simp [hblank]

theorem afterComma_isSuffix (cs : Text) : afterComma cs <:+ cs := by
  unfold afterComma
  split
  · exact List.suffix_cons _ _
  · exact List.suffix_rfl

theorem afterGap_isSuffix (cs : Text) : afterGap cs <:+ cs := by
  unfold afterGap
  split
  · exact (List.dropWhile_suffix _).trans (List.suffix_cons _ _)
  · exact (List.dropWhile_suffix _).trans ((List.suffix_cons _ _).trans (List.suffix_cons _ _))
  · exact List.nil_suffix

/-- A description begins with what is not blank. -/
theorem exists_of_description? {cs text : Text} (h : description? cs = some (some text)) :
    text <:+ cs ∧ ∃ c tail, text = c :: tail ∧ Text.isBlank c = false := by
  unfold description? at h
  dsimp only at h
  split at h
  · exact absurd (Option.some.inj h) (Option.some_ne_none text).symm
  · split at h
    · rename_i c rest hrest
      split at h
      · exact absurd h (Option.some_ne_none _).symm
      · rename_i hblank
        obtain rfl : c :: rest = text := Option.some.inj (Option.some.inj h)
        refine ⟨?_, c, rest, rfl, Bool.eq_false_iff.2 hblank⟩
        rw [← hrest]
        exact (afterGap_isSuffix _).trans (afterComma_isSuffix cs)
    · exact absurd h (Option.some_ne_none _).symm

theorem afterComma_of_ne {cs : Text} (h : cs.head? ≠ some ',') : afterComma cs = cs := by
  unfold afterComma
  split
  · exact absurd rfl h
  · rfl

theorem afterGap_of_ne {c : Char} {cs : Text} (htab : c ≠ '\t') (hspace : c ≠ ' ') :
    afterGap (c :: cs) = [] := by
  unfold afterGap
  split
  · exact absurd (List.head_eq_of_cons_eq ‹_›) htab
  · exact absurd (List.head_eq_of_cons_eq ‹_›) hspace
  · rfl

theorem afterGap_space {cs : Text} (h : cs.head? ≠ some ' ') : afterGap (' ' :: cs) = [] := by
  unfold afterGap
  split
  · simp_all
  · simp_all
  · rfl

/-- What reads as a description or as nothing at all borders on spellings. -/
theorem border_of_description? {rest : Text} (h : (description? rest).isSome) : Border rest := by
  have hsome : ¬ description? rest = none := Option.isSome_iff_ne_none.1 h
  rw [description?_eq_none_iff] at hsome
  constructor
  · rcases blunt_or_exists rest with hblunt | ⟨c, tail, rfl, hc⟩
    · exact hblunt
    · have hne (d : Char) (hd : isInk d = false) : c ≠ d :=
        fun heq => Bool.false_ne_true (hd.symm.trans (heq ▸ hc))
      have hcomma : (c :: tail).head? ≠ some ',' :=
        fun heq => hne ',' (by decide) (Option.some.inj heq)
      rw [afterComma_of_ne hcomma] at hsome
      refine absurd ⟨all_isMargin_eq_false ⟨c, List.mem_cons_self, hc⟩, ?_⟩ hsome
      rw [afterGap_of_ne (hne '\t' (by decide)) (hne ' ' (by decide))]
      exact fun _ hmem => nomatch hmem
  · rintro tail rfl
    rcases blunt_or_exists tail with hblunt | ⟨c, tail, rfl, hc⟩
    · exact flag_of_blunt hblunt
    · refine absurd ⟨?_, ?_⟩ hsome
      · exact all_isMargin_eq_false ⟨c, List.mem_cons_of_mem ' ' List.mem_cons_self, hc⟩
      · have hspace : (c :: tail).head? ≠ some ' ' := by
          rintro ⟨⟩
          exact absurd hc (by decide)
        show ∀ d ∈ (afterGap (' ' :: c :: tail)).head?, _
        rw [afterGap_space hspace]
        exact fun _ hmem => nomatch hmem

theorem afterComma_cons {c : Char} (hc : c ≠ ',') (cs : Text) : afterComma (c :: cs) = c :: cs :=
  afterComma_of_ne fun heq => hc (Option.some.inj heq)

theorem Ends.afterComma {cs : Text} (h : Ends cs []) : Ends (afterComma cs) [] := by
  obtain ⟨c, tail, rfl, htail⟩ := h.exists_cons
  by_cases hc : c = ','
  · subst hc
    exact htail (by decide)
  · rw [afterComma_cons hc]
    exact h

theorem exists_dropWhile_eq_cons {p : Char → Bool} {cs : Text} (h : ∃ c ∈ cs, p c = false) :
    ∃ c rest, cs.dropWhile p = c :: rest := by
  refine List.exists_cons_of_ne_nil ?_
  rw [Ne, Text.dropWhile_eq_nil_iff_all, List.all_eq_true]
  intro hall
  obtain ⟨c, hmem, hc⟩ := h
  exact Bool.false_ne_true (hc.symm.trans (hall c hmem))

theorem head?_dropWhile_append {p : Char → Bool} {cs : Text} (h : ∃ c ∈ cs, p c = false)
    (rest : Text) : ((cs ++ rest).dropWhile p).head? = (cs.dropWhile p).head? := by
  obtain ⟨c, after, hdrop⟩ := exists_dropWhile_eq_cons h
  rw [List.dropWhile_append, hdrop]
  rfl

theorem Ends.exists_ne {cs : Text} (h : Ends cs []) {c : Char} (hc : isInk c = false) :
    ∃ d ∈ cs, (d == c) = false := by
  obtain ⟨d, hmem, hd⟩ := h.exists_ink
  exact ⟨d, hmem, beq_eq_false_iff_ne.2 fun heq => Bool.false_ne_true (hc.symm.trans (heq ▸ hd))⟩

theorem head?_afterGap_append {cs : Text} (hends : Ends cs []) (rest : Text) :
    (afterGap (cs ++ rest)).head? = (afterGap cs).head? := by
  obtain ⟨c, tail, rfl, htail⟩ := hends.exists_cons
  by_cases htab : c = '\t'
  · subst htab
    exact head?_dropWhile_append ((htail (by decide)).exists_ne (by decide)) rest
  · by_cases hspace : c = ' '
    · subst hspace
      obtain ⟨d, tail, rfl, htail'⟩ := (htail (by decide)).exists_cons
      by_cases hd : d = ' '
      · subst hd
        exact head?_dropWhile_append ((htail' (by decide)).exists_ne (by decide)) rest
      · have hhead (text : Text) : (d :: text).head? ≠ some ' ' :=
          fun heq => hd (Option.some.inj heq)
        show (afterGap (' ' :: d :: (tail ++ rest))).head? = _
        rw [afterGap_space (hhead _), afterGap_space (hhead _)]
    · show (afterGap (c :: (tail ++ rest))).head? = _
      rw [afterGap_of_ne htab hspace, afterGap_of_ne htab hspace]

/-- A description begins within spellings if it does so where a line ends after them. -/
theorem description?_append {cs : Text} (hends : Ends cs []) {rest : Text}
    (h : description? (cs ++ rest) = none) : description? cs = none := by
  have hcomma : afterComma (cs ++ rest) = afterComma cs ++ rest := by
    obtain ⟨c, tail, rfl, -⟩ := hends.exists_cons
    by_cases hc : c = ','
    · subst hc
      rfl
    · rw [afterComma_cons hc]
      exact afterComma_cons hc _
  rw [description?_eq_none_iff, hcomma, head?_afterGap_append hends.afterComma] at h
  exact description?_eq_none_iff.2 ⟨all_isMargin_eq_false hends.afterComma.exists_ink, h.2⟩

/-- What stands after spaces and is not blank is a description. -/
theorem description?_spaces {n : Nat} (hn : 2 ≤ n) {text : Text}
    (htext : ∀ c ∈ text.head?, Text.isBlank c = false) :
    description? (Text.spaces n ++ text) = some (if text = [] then none else some text) := by
  obtain ⟨m, rfl⟩ := Nat.exists_eq_add_of_le' hn
  have hdrop : (Text.spaces m ++ text).dropWhile (· == ' ') = text :=
    Text.dropWhile_spaces m fun hspace => absurd (htext ' ' hspace) (by decide)
  have hgap : afterGap (Text.spaces (m + 2) ++ text) = text := hdrop
  have hcomma : afterComma (Text.spaces (m + 2) ++ text) = Text.spaces (m + 2) ++ text := rfl
  unfold description?
  rw [hcomma]
  dsimp only
  rw [hgap]
  cases text with
  | nil =>
    have hall : (Text.spaces (m + 2) ++ []).all isMargin = true := by
      rw [List.append_nil, List.all_eq_true]
      intro c hc
      rw [Text.mem_spaces hc]
      rfl
    exact if_pos hall
  | cons c text =>
    have hc : Text.isBlank c = false := htext c rfl
    have hall : ¬ (Text.spaces (m + 2) ++ c :: text).all isMargin = true := by
      rw [List.all_eq_true]
      intro hmargin
      have hcm := hmargin c (List.mem_append_right _ List.mem_cons_self)
      rw [isMargin, Bool.or_eq_true, beq_iff_eq, beq_iff_eq] at hcm
      rcases hcm with rfl | rfl <;> exact absurd hc (by decide)
    simp [hall, hc]

end OptionLine

end CommandGrammar
