import CommandGrammar.Text.Basic

/-!
# Blank characters

The blank characters are those with the Unicode property `White_Space`: 25 code points. Trimming
removes them from the ends of a text and `words` reads the runs between them; both are stated for
this set, so a no-break space or an ideographic space separates words as a space does.
-/

namespace CommandGrammar

namespace Text

/-- Whether a character has the property `White_Space`. -/
def isBlank (c : Char) : Bool :=
  let n := c.toNat
  (9 ≤ n && n ≤ 13) || n == 0x20 || n == 0x85 || n == 0xA0 || n == 0x1680
    || (0x2000 ≤ n && n ≤ 0x200A) || n == 0x2028 || n == 0x2029 || n == 0x202F || n == 0x205F
    || n == 0x3000

def trimStart (text : Text) : Text := text.dropWhile isBlank

def trimEnd (text : Text) : Text := dropWhileEnd isBlank text

/-- The text without blanks at either end. -/
def trim (text : Text) : Text := trimEnd (trimStart text)

/-- Whether a text has no character but blanks. -/
def isAllBlank (text : Text) : Bool := text.all isBlank

/-- The non-empty runs of characters between blanks. -/
def words (text : Text) : List Text := (splitWhere isBlank text).filter (fun w => !w.isEmpty)

/-! ### Characters that are no blanks -/

theorem ne_space_of_isBlank {c : Char} (h : isBlank c = false) : c ≠ ' ' := by
  rintro rfl
  exact absurd h (by decide)

theorem ne_tab_of_isBlank {c : Char} (h : isBlank c = false) : c ≠ '\t' := by
  rintro rfl
  exact absurd h (by decide)

/-- What ends in no blank ends in no space. -/
theorem getLast?_concat_ne_space {d : Char} (h : isBlank d = false) (before : Text) :
    (before ++ [d]).getLast? ≠ some ' ' := by
  rw [List.getLast?_concat]
  exact fun hspace => ne_space_of_isBlank h (Option.some.inj hspace)

/-! ### Trimming -/

theorem dropWhile_eq_nil_iff_all (p : Char → Bool) (t : Text) :
    t.dropWhile p = [] ↔ t.all p = true := by
  induction t with
  | nil => simp
  | cons c t ih => by_cases h : p c <;> simp [List.dropWhile, h, ih]

theorem trim_eq_nil_iff (t : Text) : trim t = [] ↔ isAllBlank t = true := by
  simp only [trim, trimEnd, trimStart, dropWhileEnd, isAllBlank, List.reverse_eq_nil_iff,
    dropWhile_eq_nil_iff_all, List.all_reverse]
  constructor
  · intro h
    have := List.takeWhile_append_dropWhile (p := isBlank) (l := t)
    rw [← this, List.all_append, h, Bool.and_true]
    exact List.all_takeWhile
  · intro h
    rw [(dropWhile_eq_nil_iff_all isBlank t).2 h]
    rfl

theorem length_trim_le (text : Text) : (trim text).length ≤ text.length :=
  Nat.le_trans (length_dropWhileEnd_le _ _) (List.dropWhile_suffix _).length_le

/-- A text that begins and ends with characters other than blanks is trimmed. -/
theorem trim_eq_self {c : Char} {rest before : Text} {d : Char} {text : Text}
    (hhead : text = c :: rest) (hc : isBlank c = false) (hlast : text = before ++ [d])
    (hd : isBlank d = false) : trim text = text := by
  have hstart : trimStart text = text := by
    rw [hhead, trimStart, List.dropWhile_cons_of_neg (by simp [hc])]
  rw [trim, hstart, hlast, trimEnd, dropWhileEnd_concat_of_neg hd]

/-- A text without blanks is trimmed. -/
theorem trim_of_forall {text : Text} (h : ∀ c ∈ text, isBlank c = false) : trim text = text := by
  cases hends : text.reverse with
  | nil =>
    rw [List.reverse_eq_nil_iff.1 hends]
    rfl
  | cons d before =>
    have hlast : text = before.reverse ++ [d] := by
      rw [← List.reverse_reverse text, hends, List.reverse_cons]
    cases text with
    | nil => exact nomatch hends
    | cons c rest =>
      have hd : d ∈ c :: rest := by
        rw [hlast]
        exact List.mem_append_right _ List.mem_cons_self
      exact trim_eq_self rfl (h c List.mem_cons_self) hlast (h d hd)

/-- A trimmed text begins and ends with characters other than blanks. -/
theorem exists_ends_of_trim {text : Text} (hne : text ≠ []) (h : trim text = text) :
    (∃ c rest, text = c :: rest ∧ isBlank c = false) ∧
      ∃ before d, text = before ++ [d] ∧ isBlank d = false := by
  obtain ⟨c, rest, rfl⟩ := List.exists_cons_of_ne_nil hne
  have hc : isBlank c = false := by
    cases hblank : isBlank c with
    | false => rfl
    | true =>
      have hshort : (trim (c :: rest)).length ≤ rest.length := by
        rw [trim, trimStart, List.dropWhile_cons_of_pos hblank]
        exact Nat.le_trans (length_dropWhileEnd_le _ _) (List.dropWhile_suffix _).length_le
      rw [h, List.length_cons] at hshort
      omega
  refine ⟨⟨c, rest, rfl, hc⟩, ?_⟩
  obtain ⟨before, d, hlast⟩ : ∃ before d, c :: rest = before ++ [d] :=
    ⟨_, _, (List.dropLast_concat_getLast hne).symm⟩
  refine ⟨before, d, hlast, ?_⟩
  cases hblank : isBlank d with
  | false => rfl
  | true =>
    have hstart : trimStart (c :: rest) = c :: rest := by
      rw [trimStart, List.dropWhile_cons_of_neg (by simp [hc])]
    have hshort : (trim (c :: rest)).length ≤ before.length := by
      rw [trim, hstart, hlast, trimEnd, dropWhileEnd, List.reverse_concat,
        List.dropWhile_cons_of_pos hblank, List.length_reverse]
      exact Nat.le_trans (List.dropWhile_suffix _).length_le (Nat.le_of_eq List.length_reverse)
    rw [h, hlast, List.length_append, List.length_singleton] at hshort
    omega

theorem mem_of_mem_trim {c : Char} {text : Text} (h : c ∈ trim text) : c ∈ text := by
  have hstart : c ∈ trimStart text := mem_of_mem_dropWhileEnd h
  exact (List.dropWhile_suffix isBlank).subset hstart

theorem trim_trim (text : Text) : trim (trim text) = trim text := by
  cases hstart : trimStart text with
  | nil =>
    have hnil : trim text = [] := by
      rw [trim, hstart]
      rfl
    rw [hnil]
    rfl
  | cons c rest =>
    obtain ⟨-, -, -, hc⟩ := exists_of_dropWhile_eq_cons hstart
    cases hend : (c :: rest).reverse.dropWhile isBlank with
    | nil =>
      rw [dropWhile_eq_nil_iff_all, List.all_reverse, List.all_cons, hc] at hend
      exact absurd hend Bool.false_ne_true
    | cons d before =>
      obtain ⟨taken, hsplit, -, hd⟩ := exists_of_dropWhile_eq_cons hend
      have htrim : trim text = before.reverse ++ [d] := by
        rw [trim, hstart, trimEnd, dropWhileEnd, hend, List.reverse_cons]
      have hwhole : c :: rest = before.reverse ++ [d] ++ taken.reverse := by
        rw [← List.reverse_reverse (c :: rest), hsplit]
        simp
      obtain ⟨tail, hhead⟩ : ∃ tail, before.reverse ++ [d] = c :: tail := by
        cases hbefore : before.reverse ++ [d] with
        | nil => simp at hbefore
        | cons e tail =>
          rw [hbefore] at hwhole
          exact ⟨tail, by rw [List.head_eq_of_cons_eq hwhole]⟩
      rw [htrim]
      exact trim_eq_self hhead hc rfl hd

theorem exists_joinWith_eq_concat {first : Text} {others : List Text}
    (h : ∀ piece ∈ first :: others, piece ≠ [] ∧ trim piece = piece) :
    ∃ before d, joinWith [' '] (first :: others) = before ++ [d] ∧ isBlank d = false := by
  induction others generalizing first with
  | nil =>
    have hfirst := h first List.mem_cons_self
    exact (exists_ends_of_trim hfirst.1 hfirst.2).2
  | cons second others ih =>
    obtain ⟨before, d, heq, hd⟩ := ih fun piece hpiece => h piece (List.mem_cons_of_mem _ hpiece)
    refine ⟨first ++ ([' '] ++ before), d, ?_, hd⟩
    rw [joinWith_cons_cons, heq]
    simp only [List.append_assoc]

/-- Trimmed texts with spaces between them are trimmed. -/
theorem trim_joinWith {pieces : List Text} (h : ∀ piece ∈ pieces, piece ≠ [] ∧ trim piece = piece) :
    trim (joinWith [' '] pieces) = joinWith [' '] pieces := by
  cases pieces with
  | nil => rfl
  | cons first others =>
    have hfirst := h first List.mem_cons_self
    obtain ⟨⟨c, rest, hhead, hc⟩, -⟩ := exists_ends_of_trim hfirst.1 hfirst.2
    obtain ⟨before, d, hlast, hd⟩ := exists_joinWith_eq_concat h
    have hwhole : joinWith [' '] (first :: others) = c :: (rest ++ others.flatMap (' ' :: ·)) := by
      rw [joinWith_space, hhead]
      rfl
    exact trim_eq_self hwhole hc hlast hd

end Text

end CommandGrammar
