import CommandGrammar.Text.Basic

/-!
# Display width

How many terminal columns a character or a text takes up is told by tables of the known characters
and of the sequences that are shown as one sign. What fits texts into columns works with any such
measures. The columns of a text need not be those of its characters: a control has no width of its
own but counts in a text, and the members of a sequence count as a whole.

The laws say no more of the measures than what fitting relies on.
-/

namespace CommandGrammar

def Text.isControl (c : Char) : Bool := c.toNat < 0x20 || (0x7F ≤ c.toNat && c.toNat < 0xA0)

/-- The columns of characters and of texts. -/
class Widths where
  /-- The columns of a character by itself, if it has a width. -/
  ofChar? : Char → Option Nat
  ofText : Text → Nat

namespace Widths

variable [Widths]

/-- The columns of a character by itself; a character without a width has none. -/
def ofChar (c : Char) : Nat := (ofChar? c).getD 0

/-- The columns of the characters of a text, each by itself. -/
def apart (text : Text) : Nat := text.foldr (fun c columns => ofChar c + columns) 0

end Widths

/-- Measures for which controls have no width but count in a text, and for which spaces, and an
ellipsis before them, add their own columns to any text. -/
class LawfulWidths [Widths] : Prop where
  ofChar?_control {c : Char} : Text.isControl c = true → Widths.ofChar? c = none
  ofText_nil : Widths.ofText [] = 0
  /-- A carriage return may belong to the line feed after it. -/
  ofText_control {c : Char} (rest : Text) : Text.isControl c = true → c ≠ '\r' →
    Widths.ofText (c :: rest) = 1 + Widths.ofText rest
  ofText_append_spaces (text : Text) (n : Nat) :
    Widths.ofText (text ++ Text.spaces n) = Widths.ofText text + n
  ofText_append_ellipsis (text : Text) (n : Nat) :
    Widths.ofText (text ++ '…' :: Text.spaces n) = Widths.ofText text + (1 + n)

end CommandGrammar
