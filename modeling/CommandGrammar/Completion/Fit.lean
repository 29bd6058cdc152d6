import CommandGrammar.Text.Blank
import CommandGrammar.Text.Width

/-!
# Notes of a fixed width

The notes beside candidates stand in a column, so every one of them is padded or cut to the width of
the column. Runs of blanks count as one space; a text that is cut ends in an ellipsis.
-/

namespace CommandGrammar

namespace Note

/-- What shows that a text was cut. -/
def ellipsis : Char := '…'

/-- A text with single spaces between its words. -/
def collapse (text : Text) : Text := Text.joinWith [' '] (Text.words text)

variable [Widths]

/-- The characters that fit before an ellipsis, and the columns left for it and for padding. -/
def keep (columns : Nat) : Text → Text × Nat
  | [] => ([], columns)
  | c :: cs =>
    if Widths.ofChar c + 1 ≤ columns then
      let (kept, left) := keep (columns - Widths.ofChar c) cs
      (c :: kept, left)
    else ([], columns)

/-- A text in exactly `width` columns, or nothing for no columns at all. -/
def fit (text : Text) (width : Nat) : Text :=
  if width = 0 then []
  else
    let text := collapse text
    if Widths.ofText text ≤ width then text ++ Text.spaces (width - Widths.ofText text)
    else
      let (kept, left) := keep width text
      kept ++ [ellipsis] ++ Text.spaces (left - 1)

/-- Some column is left for the ellipsis. -/
theorem one_le_keep {columns : Nat} (h : 1 ≤ columns) (text : Text) :
    1 ≤ (keep columns text).2 := by
  induction text generalizing columns with
  | nil => exact h
  | cons c cs ih =>
    rw [keep]
    split
    · exact ih (by omega)
    · exact h

end Note

end CommandGrammar
