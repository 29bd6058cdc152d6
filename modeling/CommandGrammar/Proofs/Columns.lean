import CommandGrammar.Text.Columns

/-!
# Measuring on a terminal

The measures of the command line tool keep the laws of widths. Columns are added up from the end of
a text with a look at what follows. So the laws rest on two facts: what makes the position before it
see nothing adds its own columns to any text, and whatever a character takes back was counted
before.

* `Sound`: a way to count that takes back no more than there is;
* `sound_columnsBefore`: every character is counted in such a way;
* `columns_append`: what does not change the columns before it adds its own;
* `columns_control`: what a control counts in a text.
-/

namespace CommandGrammar

namespace Text

/-! ### Taking columns back -/

/-- What holds of the characters of a range one by one holds of each of them. -/
theorem forall_of_range (P : Char → Prop) (first count : Nat)
    (h : ∀ k < count, P (Char.ofNat (first + k))) {c : Char} (hlow : first ≤ c.toNat)
    (hhigh : c.toNat < first + count) : P c := by
  have hk := h (c.toNat - first) (by omega)
  rwa [Nat.add_sub_cancel' hlow, Char.ofNat_toNat] at hk

/-- A letter that may be written below another one has columns of its own to lose. -/
theorem one_le_charColumns {c : Char} (h : isKhmerSubscript c.toNat = true) :
    1 ≤ charColumns c := by
  have hbounds : 0x1780 ≤ c.toNat ∧ c.toNat ≤ 0x17B3 := by
    simp only [isKhmerSubscript, Bool.and_eq_true, decide_eq_true_eq] at h
    exact h.1.1.1
  exact forall_of_range (1 ≤ charColumns ·) 0x1780 52 (by decide +kernel) hbounds.1 (by omega)

/-- The columns that the next character may take back. -/
def Following.owed : Following → Int
  | .ligature .khmerSubscript _ => 1
  | .ligature .tifinaghJoiner _ => 1
  | _ => 0

theorem Following.owed_nonneg (after : Following) : 0 ≤ after.owed := by
  unfold owed
  split
  · decide
  · decide
  · decide

/-- A way to count a character that leaves enough for what may be taken back before it, if there was
enough after it. -/
def Sound (after : Following) (own : Int × Following) : Prop := own.2.owed ≤ after.owed + own.1

instance (after : Following) (own : Int × Following) : Decidable (Sound after own) :=
  inferInstanceAs (Decidable (own.2.owed ≤ after.owed + own.1))

theorem Sound.ite {after : Following} {p : Prop} [Decidable p] {own own' : Int × Following}
    (h : p → Sound after own) (h' : Sound after own') : Sound after (if p then own else own') := by
  split
  · rename_i hp
    exact h hp
  · exact h'

theorem sound_atEnd (c : Char) (after : Following) : Sound after (atEnd c) := by
  have hafter := after.owed_nonneg
  have hown {n : Nat} {before : Following} (h : before.owed ≤ n) : Sound after (n, before) := by
    show before.owed ≤ after.owed + (n : Int)
    omega
  exact .ite (fun _ => hown (n := 1) (by decide)) <| .ite (fun _ => hown (n := 1) (by decide)) <|
    .ite (fun _ => hown (n := 0) (by decide)) <| .ite (fun _ => hown (n := 0) (by decide)) <|
    .ite (fun _ => hown (n := 1) (by decide)) <| .ite (fun _ => hown (n := 1) (by decide)) <|
    .ite (fun _ => hown (n := 1) (by decide)) <| .ite (fun _ => hown (n := 1) (by decide)) <|
    .ite (fun _ => hown (n := 1) (by decide)) <| .ite (fun _ => hown (n := 1) (by decide)) <|
    .ite (fun h => hown (Int.ofNat_le.2 (one_le_charColumns h))) <|
    .ite (fun _ => hown (n := 2) (by decide)) <|
    .ite (fun _ => hown (Int.natCast_nonneg _)) (hown (Int.natCast_nonneg _))

/-- The letters of a sign take back what the sign has. -/
theorem sound_letter? {sign : Ligature} {joined : Bool} {n : Nat} {own : Int × Following}
    (h : sign.letter? joined n = some own) : Sound (.ligature sign joined) own := by
  cases sign with
  | tifinagh =>
    simp only [Ligature.letter?] at h
    split at h
    · obtain rfl := Option.some.inj h
      show (1 : Int) ≤ 0 + 1
      decide
    · split at h
      · obtain rfl := Option.some.inj h
        exact Int.le_refl 0
      · exact nomatch h
  | _ =>
    simp only [Ligature.letter?] at h
    split at h
    · obtain rfl := Option.some.inj h
      exact Int.le_refl 0
    · exact nomatch h

/-- **What a character takes back** was counted after it. -/
theorem sound_columnsBefore (c : Char) (after : Following) :
    Sound after (columnsBefore c after) := by
  have hend := sound_atEnd c after
  cases after with
  | ordinary => exact hend
  | lineFeed => exact .ite (fun _ => by decide) hend
  | emojiSelector joined =>
    cases joined with
    | false => exact .ite (fun _ => by decide) hend
    | true => exact .ite (fun _ => by decide) hend
  | textSelector => exact .ite (fun _ => by decide) hend
  | emoji => exact .ite (fun _ => by decide) hend
  | emojiModifier => exact .ite (fun _ => by decide) (.ite (fun _ => by decide) hend)
  | joinedEmoji => exact .ite (fun _ => by decide) (.ite (fun _ => by decide) (.ite (fun _ => by decide) hend))
  | alef => exact .ite (fun _ => by decide) (.ite (fun _ => by decide) hend)
  | ligature sign joined =>
    have hkept (joined' : Bool) : Sound (.ligature sign joined) (0, .ligature sign joined') := by
      cases sign <;> exact Int.le_refl _
    refine .ite (fun _ => hkept true) (.ite (fun _ => hkept joined) ?_)
    cases hletter : sign.letter? joined c.toNat with
    | none => exact hend
    | some own => exact sound_letter? hletter

/-! ### Texts -/

theorem columnsFrom_cons (c : Char) (cs : Text) :
    columnsFrom (c :: cs)
      = ((columnsFrom cs).1 + (columnsBefore c (columnsFrom cs).2).1,
          (columnsBefore c (columnsFrom cs).2).2) := rfl

/-- In every text there is enough for what may be taken back. -/
theorem owed_columnsFrom (text : Text) : (columnsFrom text).2.owed ≤ (columnsFrom text).1 := by
  induction text with
  | nil => exact Int.le_refl 0
  | cons c cs ih =>
    have hsound : _ ≤ _ := sound_columnsBefore c (columnsFrom cs).2
    rw [columnsFrom_cons]
    dsimp only
    omega

/-- No text takes up less than nothing. -/
theorem columnsFrom_nonneg (text : Text) : 0 ≤ (columnsFrom text).1 :=
  Int.le_trans (columnsFrom text).2.owed_nonneg (owed_columnsFrom text)

/-- What shows the position before it nothing leaves the columns before it as they are. -/
theorem columnsFrom_append {rest : Text} (h : (columnsFrom rest).2 = .ordinary) (text : Text) :
    columnsFrom (text ++ rest)
      = ((columnsFrom text).1 + (columnsFrom rest).1, (columnsFrom text).2) := by
  induction text with
  | nil =>
    show columnsFrom rest = (0 + (columnsFrom rest).1, Following.ordinary)
    rw [Int.zero_add, ← h]
  | cons c cs ih =>
    rw [List.cons_append, columnsFrom_cons, columnsFrom_cons, ih]
    show (_ + _, _) = (_ + _ + _, _)
    rw [Int.add_right_comm]

/-- **What shows the position before it nothing** adds its own columns. -/
theorem columns_append {rest : Text} {n : Nat} (h : columnsFrom rest = ((n : Int), .ordinary))
    (text : Text) : columns (text ++ rest) = columns text + n := by
  have htext := columnsFrom_nonneg text
  rw [columns, columnsFrom_append (by rw [h]), h, columns]
  omega

theorem columnsFrom_spaces (n : Nat) : columnsFrom (spaces n) = ((n : Int), .ordinary) := by
  have hspace : columnsBefore ' ' .ordinary = (1, .ordinary) := by decide +kernel
  induction n with
  | zero => rfl
  | succ n ih =>
    show columnsFrom (' ' :: spaces n) = _
    rw [columnsFrom_cons, ih, hspace]
    rfl

theorem columnsFrom_ellipsis (n : Nat) :
    columnsFrom ('…' :: spaces n) = (((1 + n : Nat) : Int), .ordinary) := by
  have hellipsis : columnsBefore '…' .ordinary = (1, .ordinary) := by decide +kernel
  rw [columnsFrom_cons, columnsFrom_spaces, hellipsis]
  dsimp only
  rw [Int.natCast_add, Int.add_comm]
  rfl

/-! ### Controls -/

/-- What holds of the controls one by one holds of each of them. -/
theorem forall_of_isControl (P : Char → Prop) (hlow : ∀ k < 32, P (Char.ofNat (0 + k)))
    (hhigh : ∀ k < 33, P (Char.ofNat (127 + k))) {c : Char} (h : isControl c = true) : P c := by
  have hrange : c.toNat < 32 ∨ 127 ≤ c.toNat ∧ c.toNat < 160 := by simpa [isControl] using h
  rcases hrange with hc | ⟨hc, hc'⟩
  · exact forall_of_range P 0 32 hlow (Nat.zero_le _) (by omega)
  · exact forall_of_range P 127 33 hhigh hc (by omega)

/-- Whatever follows a control, it counts one column, if it is no carriage return. -/
theorem columnsBefore_control {c : Char} (h : isControl c = true) (after : Following)
    (hreturn : c ≠ '\r') : (columnsBefore c after).1 = 1 := by
  have hcounts (P : Char → Prop) (hlow : ∀ k < 32, P (Char.ofNat (0 + k)))
      (hhigh : ∀ k < 33, P (Char.ofNat (127 + k))) : P c := forall_of_isControl P hlow hhigh h
  revert hreturn
  cases after with
  | emojiSelector joined =>
    cases joined
    all_goals
      exact hcounts (fun c => c ≠ '\r' → (columnsBefore c _).1 = 1) (by decide +kernel)
        (by decide +kernel)
  | ligature sign joined =>
    cases sign
    all_goals
      cases joined
      all_goals
        exact hcounts (fun c => c ≠ '\r' → (columnsBefore c _).1 = 1) (by decide +kernel)
          (by decide +kernel)
  | _ =>
    exact hcounts (fun c => c ≠ '\r' → (columnsBefore c _).1 = 1) (by decide +kernel)
      (by decide +kernel)

theorem columns_control {c : Char} (h : isControl c = true) (hreturn : c ≠ '\r') (rest : Text) :
    columns (c :: rest) = 1 + columns rest := by
  have hrest := columnsFrom_nonneg rest
  rw [columns, columnsFrom_cons, columnsBefore_control h _ hreturn, columns]
  omega

end Text

instance : LawfulWidths where
  ofChar?_control h := if_pos h
  ofText_nil := rfl
  ofText_control rest h hreturn := Text.columns_control h hreturn rest
  ofText_append_spaces text n := Text.columns_append (Text.columnsFrom_spaces n) text
  ofText_append_ellipsis text n := Text.columns_append (Text.columnsFrom_ellipsis n) text

end CommandGrammar
