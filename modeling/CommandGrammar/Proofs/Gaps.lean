import CommandGrammar.Help.Entry
import CommandGrammar.Proofs.ReadBack

/-!
# Gaps between flags and description

What reads a descriptor takes the first tab or the first two spaces as the end of the flags. This
gap is the one that was written between flags and description exactly if the flags have none.

* `columnBreak?_eq_none_iff`, `columnBreak?_append`: a text is split at its first gap;
* `splitHelp_descriptor`: when flags and a description are split as they were joined.
-/

namespace CommandGrammar

namespace Descriptor

/-! ### Gaps -/

/-- Whether a text has a tab or two spaces in a row. -/
def HasGap (text : Text) : Prop := '\t' ∈ text ∨ [' ', ' '] <:+: text

instance (text : Text) : Decidable (HasGap text) :=
  inferInstanceAs (Decidable ('\t' ∈ text ∨ [' ', ' '] <:+: text))

theorem hasGap_cons_iff {c : Char} {text : Text} :
    HasGap (c :: text) ↔ c = '\t' ∨ (c = ' ' ∧ text.head? = some ' ') ∨ HasGap text := by
  have hprefix : [' '] <+: text ↔ text.head? = some ' ' := by
    cases text <;> simp [eq_comm]
  unfold HasGap
  rw [List.mem_cons, List.infix_cons_iff, List.cons_prefix_cons, hprefix, eq_comm, or_assoc,
    or_left_comm (a := '\t' ∈ text), eq_comm (a := ' ')]

theorem not_hasGap_cons_iff {c : Char} {text : Text} :
    ¬ HasGap (c :: text) ↔ c ≠ '\t' ∧ (c = ' ' → text.head? ≠ some ' ') ∧ ¬ HasGap text := by
  rw [hasGap_cons_iff, not_or, not_or, not_and]

theorem not_hasGap_nil : ¬ HasGap [] := by decide

/-- A text without blanks has no gap. -/
theorem not_hasGap_of_noBlank {text : Text} (h : ∀ c ∈ text, Text.isBlank c = false) :
    ¬ HasGap text := by
  induction text with
  | nil => exact not_hasGap_nil
  | cons c text ih =>
    obtain ⟨hc, htext⟩ := List.forall_mem_cons.1 h
    exact not_hasGap_cons_iff.2 ⟨Text.ne_tab_of_isBlank hc,
      fun hspace => absurd hspace (Text.ne_space_of_isBlank hc), ih htext⟩

theorem hasGap_append_right {right : Text} (h : HasGap right) (left : Text) :
    HasGap (left ++ right) := by
  rcases h with htab | hspaces
  · exact Or.inl (List.mem_append_right left htab)
  · exact Or.inr (hspaces.trans (List.suffix_append left right).isInfix)

/-- Two texts have no gap if neither of them has and the second does not begin with a space. -/
theorem not_hasGap_append_of_head {left right : Text} (hleft : ¬ HasGap left)
    (hright : ¬ HasGap right) (hhead : right.head? ≠ some ' ') : ¬ HasGap (left ++ right) := by
  induction left with
  | nil => exact hright
  | cons c left ih =>
    obtain ⟨htab, hgap, hleft⟩ := not_hasGap_cons_iff.1 hleft
    refine not_hasGap_cons_iff.2 ⟨htab, fun hc => ?_, ih hleft⟩
    cases left with
    | nil => exact hhead
    | cons d left => exact hgap hc

/-- A text is split before its first gap, if it has one. -/
theorem length_lt_of_hasGap {text : Text} (h : HasGap text) (rest : Text) :
    ∃ left right, columnBreak? (text ++ rest) = some (left, right) ∧
      left.length < text.length := by
  induction text with
  | nil => exact absurd h not_hasGap_nil
  | cons c text ih =>
    by_cases htab : c = '\t'
    · subst htab
      exact ⟨[], _, rfl, Nat.succ_pos _⟩
    by_cases hspace : c = ' ' ∧ text.head? = some ' '
    · obtain ⟨rfl, hhead⟩ := hspace
      obtain ⟨more, rfl⟩ := List.head?_eq_some_iff.1 hhead
      exact ⟨[], _, rfl, Nat.succ_pos _⟩
    · have htext : HasGap text :=
        (hasGap_cons_iff.1 h).elim (absurd · htab) fun h => h.resolve_left hspace
      have hne : text ≠ [] := by
        rintro rfl
        exact not_hasGap_nil htext
      obtain ⟨left, right, hbreak, hlength⟩ := ih htext
      refine ⟨c :: left, right, ?_, Nat.succ_lt_succ hlength⟩
      rw [List.cons_append, columnBreak?_cons htab, hbreak]
      · rfl
      · rw [List.head?_append_of_ne_nil _ hne]
        exact not_and.1 hspace

/-- A text without a gap is split where what follows it is split. -/
theorem columnBreak?_append {text : Text} (h : ¬ HasGap text) (hlast : text.getLast? ≠ some ' ')
    (rest : Text) :
    columnBreak? (text ++ rest)
      = (columnBreak? rest).map fun (left, right) => (text ++ left, right) := by
  induction text with
  | nil =>
    rw [List.nil_append]
    cases columnBreak? rest <;> rfl
  | cons c text ih =>
    obtain ⟨htab, hgap, htext⟩ := not_hasGap_cons_iff.1 h
    have hmap : ∀ broken : Option (Text × Text),
        ((broken.map fun (left, right) => (text ++ left, right)).map
          fun (left, right) => (c :: left, right))
          = broken.map fun (left, right) => (c :: text ++ left, right) := by
      intro broken
      cases broken <;> rfl
    by_cases hnil : text = []
    · subst hnil
      have hnext : c = ' ' → rest.head? ≠ some ' ' := by
        rintro rfl
        exact absurd rfl hlast
      rw [List.singleton_append, columnBreak?_cons htab hnext]
      rfl
    · have hnext : c = ' ' → (text ++ rest).head? ≠ some ' ' := by
        rwa [List.head?_append_of_ne_nil _ hnil]
      rw [List.getLast?_cons_of_ne_nil hnil] at hlast
      rw [List.cons_append, columnBreak?_cons htab hnext, ih htext hlast, hmap]

theorem columnBreak?_eq_none_iff {text : Text} : columnBreak? text = none ↔ ¬ HasGap text := by
  constructor
  · intro h hgap
    obtain ⟨left, right, hbreak, -⟩ := length_lt_of_hasGap hgap []
    rw [List.append_nil, h] at hbreak
    exact absurd hbreak (by simp)
  · intro h
    induction text with
    | nil => rfl
    | cons c text ih =>
      obtain ⟨htab, hgap, htext⟩ := not_hasGap_cons_iff.1 h
      rw [columnBreak?_cons htab hgap, ih htext]
      rfl

/-- Two texts have no gap if neither of them has and the first does not end in a space. -/
theorem not_hasGap_append {left right : Text} (hleft : ¬ HasGap left)
    (hlast : left.getLast? ≠ some ' ') (hright : ¬ HasGap right) : ¬ HasGap (left ++ right) := by
  rw [← columnBreak?_eq_none_iff] at hright ⊢
  rw [columnBreak?_append hleft hlast, hright]
  rfl

/-- What is trimmed is trimmed with two spaces and something trimmed behind it. -/
theorem trim_joined {left right : Text} (hleft : left ≠ []) (hltrim : Text.trim left = left)
    (hright : right ≠ []) (hrtrim : Text.trim right = right) :
    Text.trim (left ++ [' ', ' '] ++ right) = left ++ [' ', ' '] ++ right := by
  obtain ⟨⟨c, rest, hhead, hc⟩, -⟩ := Text.exists_ends_of_trim hleft hltrim
  obtain ⟨-, before, d, hlast, hd⟩ := Text.exists_ends_of_trim hright hrtrim
  have hfirst : left ++ [' ', ' '] ++ right = c :: (rest ++ [' ', ' '] ++ right) := by
    rw [hhead]
    rfl
  have hend : left ++ [' ', ' '] ++ right = left ++ [' ', ' '] ++ before ++ [d] := by
    rw [hlast, ← List.append_assoc]
  exact Text.trim_eq_self hfirst hc hend hd

theorem splitHelp_of_some {text left right : Text} (htrim : Text.trim text = text)
    (hbreak : columnBreak? text = some (left, right)) :
    splitHelp text
      = (Text.trim left, if (Text.trim right).isEmpty then none else some (Text.trim right)) := by
  unfold splitHelp
  dsimp only
  rw [htrim, hbreak]

theorem splitHelp_of_none {text : Text} (htrim : Text.trim text = text)
    (hbreak : columnBreak? text = none) : splitHelp text = (text, none) := by
  unfold splitHelp
  dsimp only
  rw [htrim, hbreak]

/-- **An entry is split as it was found** exactly if its flags have no gap. -/
theorem splitHelp_descriptor {e : OptionEntry} (hne : e.flags ≠ [])
    (hflags : Text.trim e.flags = e.flags) (hhelp : Text.trim e.description = e.description) :
    splitHelp e.descriptor
        = (e.flags, if e.description.isEmpty then none else some e.description) ↔
      ¬ HasGap e.flags := by
  have htrim : Text.trim e.descriptor = e.descriptor := by
    unfold OptionEntry.descriptor
    split
    · exact hflags
    · rename_i hempty
      exact trim_joined hne hflags (mt List.isEmpty_iff.2 hempty) hhelp
  obtain ⟨rest, hrest⟩ : ∃ rest, e.descriptor = e.flags ++ rest := by
    unfold OptionEntry.descriptor
    split
    · exact ⟨[], (List.append_nil _).symm⟩
    · exact ⟨_, List.append_assoc _ _ _⟩
  obtain ⟨-, before, d, hlast, hd⟩ := Text.exists_ends_of_trim hne hflags
  have hspace : e.flags.getLast? ≠ some ' ' := by
    rw [hlast]
    exact Text.getLast?_concat_ne_space hd before
  constructor
  · intro hsplit hgap
    -- What stands before the gap is shorter than the flags.
    obtain ⟨left, right, hbreak, hlength⟩ := length_lt_of_hasGap hgap rest
    rw [← hrest] at hbreak
    rw [splitHelp_of_some htrim hbreak] at hsplit
    have hleft : Text.trim left = e.flags := (Prod.mk.inj hsplit).1
    rw [← hleft] at hlength
    exact absurd (Text.length_trim_le left) (Nat.not_le.2 hlength)
  · intro hgap
    unfold OptionEntry.descriptor at htrim ⊢
    cases hempty : e.description.isEmpty with
    | true =>
      exact splitHelp_of_none hflags (columnBreak?_eq_none_iff.2 hgap)
    | false =>
      obtain ⟨⟨c, more, hhead, hc⟩, -⟩ :=
        Text.exists_ends_of_trim (List.isEmpty_eq_false_iff.1 hempty) hhelp
      have hdrop : e.description.dropWhile (· == ' ') = e.description := by
        rw [hhead, List.dropWhile_cons_of_neg]
        exact fun hspace => Text.ne_space_of_isBlank hc (beq_iff_eq.1 hspace)
      have hbreak : columnBreak? (e.flags ++ [' ', ' '] ++ e.description)
          = some (e.flags, e.description) := by
        rw [List.append_assoc, columnBreak?_append hgap hspace]
        show some (e.flags ++ [], e.description.dropWhile (· == ' ')) = _
        rw [List.append_nil, hdrop]
      rw [hempty] at htrim
      rw [if_neg Bool.false_ne_true] at htrim ⊢
      rw [splitHelp_of_some htrim hbreak, hflags, hhelp, hempty]

end Descriptor

end CommandGrammar
