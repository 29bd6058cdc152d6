import CommandGrammar.Completion.Fit
import CommandGrammar.Proofs.Columns

/-!
# Columns of a fitted note

Whether a note fits is decided by the columns of the whole text, but a note that does not fit is cut
by the columns of its characters, each by itself. The two need not agree: a control counts one
column in a text and none by itself, and a sequence may take up more columns than its characters or
less. A note that fits is always padded to its column. A note that is cut has the width asked for
exactly if the part of it that is kept measures the same both ways.

* `keep_eq`: what is kept, and what is left of the width;
* `ofText_fit_of_le`, `ofText_fit_of_lt`: the columns of a note that fits, and of one that is cut;
* `columns_fit_iff`: the width of a fitted note.
-/

namespace CommandGrammar

namespace Note

/-! ### Cutting -/

section Fit

variable [Widths]

/-- **What is kept** is a part of the text from its beginning; with what is left it makes up the
width, by its characters. -/
theorem keep_eq (width : Nat) (text : Text) :
    (keep width text).1 <+: text ∧
      Widths.apart (keep width text).1 + (keep width text).2 = width := by
  induction text generalizing width with
  | nil => exact ⟨List.prefix_rfl, Nat.zero_add width⟩
  | cons c cs ih =>
    rw [keep]
    split
    · rename_i hfits
      obtain ⟨hbegins, hwidth⟩ := ih (width - Widths.ofChar c)
      refine ⟨List.cons_prefix_cons.2 ⟨rfl, hbegins⟩, ?_⟩
      show Widths.ofChar c + Widths.apart (keep _ cs).1 + (keep _ cs).2 = width
      omega
    · exact ⟨List.nil_prefix, Nat.zero_add width⟩

/-- The columns that are left for the ellipsis and for padding. -/
theorem keep_snd (width : Nat) (text : Text) :
    (keep width text).2 = width - Widths.apart (keep width text).1 :=
  Nat.eq_sub_of_add_eq' (keep_eq width text).2

variable {text : Text} {width : Nat} (hwidth : 0 < width)

include hwidth

/-- What is kept leaves a column for the ellipsis. -/
theorem apart_keep_lt (text : Text) : Widths.apart (keep width text).1 < width := by
  have hleft := one_le_keep (show 1 ≤ width from hwidth) text
  have hsum := (keep_eq width text).2
  omega

theorem fit_of_le (h : Widths.ofText (collapse text) ≤ width) :
    fit text width
      = collapse text ++ Text.spaces (width - Widths.ofText (collapse text)) := by
  rw [fit, if_neg (Nat.ne_of_gt hwidth)]
  exact if_pos h

theorem fit_of_lt (h : width < Widths.ofText (collapse text)) :
    fit text width
      = (keep width (collapse text)).1 ++
          ellipsis :: Text.spaces (width - Widths.apart (keep width (collapse text)).1 - 1) := by
  rw [fit, if_neg (Nat.ne_of_gt hwidth)]
  show (if Widths.ofText (collapse text) ≤ width then _ else _) = _
  rw [if_neg (Nat.not_le.2 h), ← keep_snd]
  exact List.append_assoc _ [ellipsis] _

/-! ### The width of what comes out -/

variable [LawfulWidths]

theorem ofText_fit_of_le (h : Widths.ofText (collapse text) ≤ width) :
    Widths.ofText (fit text width) = width := by
  rw [fit_of_le hwidth h, LawfulWidths.ofText_append_spaces]
  omega

/-- A note that is cut is as wide as what is kept of it and what its characters leave of the
width. -/
theorem ofText_fit_of_lt (h : width < Widths.ofText (collapse text)) :
    Widths.ofText (fit text width)
      = Widths.ofText (keep width (collapse text)).1
          + (width - Widths.apart (keep width (collapse text)).1) := by
  have hkept := apart_keep_lt hwidth (collapse text)
  rw [fit_of_lt hwidth h]
  show Widths.ofText (_ ++ '…' :: _) = _
  rw [LawfulWidths.ofText_append_ellipsis]
  omega

end Fit

/-- **The width of a fitted note.** A note that fits is the text with spaces after it. One that does
not fit is a part of the text from its beginning, an ellipsis and spaces; it is as wide as this part
and what the characters of the part leave of the width. So the note has the width asked for exactly
if the text fits, or if what is kept of it takes up the columns of its characters. -/
theorem columns_fit_iff [Widths] [LawfulWidths] (text : Text) (width : Nat) :
    let shown := collapse text
    let kept := (keep width shown).1
    (0 < width → Widths.ofText shown ≤ width →
        fit text width = shown ++ Text.spaces (width - Widths.ofText shown)) ∧
      (0 < width → width < Widths.ofText shown →
        kept <+: shown ∧ Widths.apart kept < width ∧
          fit text width = kept ++ ellipsis :: Text.spaces (width - Widths.apart kept - 1) ∧
          Widths.ofText (fit text width) = Widths.ofText kept + (width - Widths.apart kept)) ∧
      (Widths.ofText (fit text width) = width ↔
        width = 0 ∨ Widths.ofText shown ≤ width ∨ Widths.ofText kept = Widths.apart kept) := by
  intro shown kept
  refine ⟨fit_of_le, fun hwidth hlt => ⟨(keep_eq width shown).1, apart_keep_lt hwidth shown,
    fit_of_lt hwidth hlt, ofText_fit_of_lt hwidth hlt⟩, ?_⟩
  rcases Nat.eq_zero_or_pos width with rfl | hwidth
  · exact iff_of_true LawfulWidths.ofText_nil (Or.inl rfl)
  · rcases Nat.lt_or_ge width (Widths.ofText shown) with hlt | hle
    · rw [ofText_fit_of_lt hwidth hlt]
      show Widths.ofText kept + (width - Widths.apart kept) = width ↔ _
      have hkept : Widths.apart kept < width := apart_keep_lt hwidth shown
      omega
    · exact iff_of_true (ofText_fit_of_le hwidth hle) (Or.inr (Or.inl hle))

/-- Wide characters: the second one does not fit beside the ellipsis, and leaves a space. -/
theorem columns_fit_iff_wide :
    let text := "日本語".toList
    0 < 4 ∧ 4 < Widths.ofText (collapse text) ∧
      fit text 4 = ['日', ellipsis, ' '] ∧ Widths.ofText (fit text 4) = 4 := by
  have hlt : 4 < Widths.ofText (collapse "日本語".toList) := by decide +kernel
  have hkept : (keep 4 (collapse "日本語".toList)).1 = ['日'] := by decide +kernel
  obtain ⟨-, hcut, hexact⟩ := columns_fit_iff "日本語".toList 4
  rw [hkept] at hcut hexact
  refine ⟨by decide, hlt, ?_, hexact.2 (Or.inr (Or.inr (by decide +kernel)))⟩
  rw [(hcut (by decide) hlt).2.2.1]
  decide +kernel

/-- By any lawful measures a note of controls is too wide for its column. On a terminal so is one of
characters that a selector makes emoji, while a note of letters that are written as one is too
narrow. -/
theorem controls_too_wide :
    (∀ [Widths] [LawfulWidths], Widths.ofText (fit ['\x01', '\x01'] 1) = 3) ∧
      Widths.ofText (fit ['❤', '\uFE0F', '❤', '\uFE0F'] 2) = 3 ∧
      Widths.ofText (fit ['ل', 'ا', 'ل', 'ا', 'ل', 'ا', 'ل', 'ا'] 3) = 2 := by
  refine ⟨fun [Widths] [LawfulWidths] => ?_, by decide +kernel⟩
  have hcontrol : Text.isControl '\x01' = true := by decide
  have hcollapse : collapse ['\x01', '\x01'] = ['\x01', '\x01'] := by decide
  have hnone : Widths.ofChar '\x01' = 0 := by
    rw [Widths.ofChar, LawfulWidths.ofChar?_control hcontrol]
    rfl
  have htwo : Widths.ofText ['\x01', '\x01'] = 2 := by
    rw [LawfulWidths.ofText_control _ hcontrol (by decide),
      LawfulWidths.ofText_control _ hcontrol (by decide), LawfulWidths.ofText_nil]
  have hkept : (keep 1 ['\x01', '\x01']).1 = ['\x01', '\x01'] := by
    simp [keep, hnone]
  rw [ofText_fit_of_lt Nat.one_pos (by rw [hcollapse, htwo]; decide), hcollapse, hkept, htwo]
  simp [Widths.apart, hnone]

end Note

end CommandGrammar
