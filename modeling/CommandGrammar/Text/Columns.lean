import CommandGrammar.CodePoints.Width
import CommandGrammar.Text.Width

/-!
# Columns on a terminal

The measures that the command line tool uses. A character has no width if it is a control, no
columns if it joins or formats its neighbours, two if it is wide and one otherwise. Inside a text a
control counts one column, a carriage return before a line feed none, and the sequences below count
as a whole: an emoji with its presentation selector or its modifier, several emoji joined by U+200D,
an Arabic Lam before an Alef, and the letters of other scripts that are written as one sign.

Columns of a text are added up from its end, since what follows a character decides whether it
begins one of those sequences.
-/

namespace CommandGrammar

namespace Text

/-- The columns of a character outside any sequence; a control has none. -/
def charColumns (c : Char) : Nat :=
  let n := c.toNat
  if isControl c then 0
  else if n < 0x300 && n != 0xAD then 1
  else if n == 0x17D8 then 3
  else if n == 0x115F || n == 0x17A4 then 2
  else if CodePoints.member CodePoints.zeroWidth n then 0
  else if CodePoints.member CodePoints.wide n then 2
  else 1

/-- What the end of a sign written with several letters looks like. -/
inductive Ligature
  | lisuTone
  | khmerSubscript
  | lamed
  | bugineseYa
  | bugineseVowelYa
  | tifinagh
  | tifinaghJoiner
  | orkhonI
deriving DecidableEq, Repr

/-- What the characters after a position begin with, as far as it changes the width before it. -/
inductive Following
  | ordinary
  | lineFeed
  /-- A selector that asks for the emoji form of what precedes it; `joined` if the emoji is
  joined to another one after it. -/
  | emojiSelector (joined : Bool)
  | textSelector
  | emoji
  | emojiModifier
  | joinedEmoji
  | alef
  /-- The end of a sign; `joined` if U+200D stands before it. -/
  | ligature (sign : Ligature) (joined : Bool)
deriving DecidableEq, Repr

/-! ### Classes of letters -/

/-- The Arabic letters of the joining group Alef. -/
def isAlef (n : Nat) : Bool := n == 0x622 || n == 0x623 || n == 0x625 || n == 0x627 || n == 0x671
  || n == 0x672 || n == 0x673 || n == 0x675 || n == 0x773 || n == 0x774

/-- The Arabic letters of the joining group Lam. -/
def isLam (n : Nat) : Bool := n == 0x644 || (0x6B5 ≤ n && n ≤ 0x6B8) || n == 0x76A || n == 0x8A6
  || n == 0x8C7

/-- Whether a character after U+17D2 is written below the one before it. -/
def isKhmerSubscript (n : Nat) : Bool :=
  (0x1780 ≤ n && n ≤ 0x17B3) && n != 0x1783 && n != 0x1788 && n != 0x17A1

def isTifinaghConsonant (n : Nat) : Bool := (0x2D31 ≤ n && n ≤ 0x2D65) || n == 0x2D6F

/-- The marks that do not interrupt a sign. -/
def isIgnorableMark (n : Nat) : Bool := n == 0x34F || n == 0x17B4 || n == 0x17B5
  || (0x180B ≤ n && n ≤ 0x180D) || n == 0x180F || (0xFE00 ≤ n && n ≤ 0xFE0D)
  || (0xE0100 ≤ n && n ≤ 0xE01EF)

/-! ### Sequences -/

/-- The columns that a character adds where nothing after it matters, and what it makes the
position before it see. -/
def atEnd (c : Char) : Int × Following :=
  let n := c.toNat
  if n == 0x0A then (1, .lineFeed)
  else if isControl c then (1, .ordinary)
  else if n == 0xFE0F then (0, .emojiSelector false)
  else if n == 0xFE0E then (0, .textSelector)
  else if isAlef n then (1, .alef)
  else if n == 0xA4FC || n == 0xA4FD then (1, .ligature .lisuTone false)
  else if n == 0x5DC then (1, .ligature .lamed false)
  else if n == 0x1A10 then (1, .ligature .bugineseYa false)
  else if isTifinaghConsonant n then (1, .ligature .tifinagh false)
  else if n == 0x10C03 then (1, .ligature .orkhonI false)
  else if isKhmerSubscript n then (charColumns c, .ligature .khmerSubscript false)
  else if 0x1F3FB ≤ n && n ≤ 0x1F3FF then (2, .emojiModifier)
  else if CodePoints.member CodePoints.emojiPresentation n then (charColumns c, .emoji)
  else (charColumns c, .ordinary)

/-- What a letter adds to the sign it belongs to, if it does; U+17D2 takes one column back for the
letter it puts below another, and so does the first of two consonants for the mark between them. -/
def Ligature.letter? (joined : Bool) (n : Nat) : Ligature → Option (Int × Following)
  | lisuTone => if 0xA4F8 ≤ n && n ≤ 0xA4FB then some (0, .ordinary) else none
  | khmerSubscript => if n == 0x17D2 then some (-1, .ordinary) else none
  | lamed => if joined && n == 0x5D0 then some (0, .ordinary) else none
  | bugineseYa => if joined && n == 0x1A17 then some (0, .ligature bugineseVowelYa false) else none
  | bugineseVowelYa => if n == 0x1A15 then some (0, .ordinary) else none
  | tifinagh =>
    if n == 0x2D7F then some (1, .ligature tifinaghJoiner false)
    else if joined && isTifinaghConsonant n then some (0, .ordinary)
    else none
  | tifinaghJoiner => if isTifinaghConsonant n then some (-1, .ordinary) else none
  | orkhonI => if joined && n == 0x10C32 then some (0, .ordinary) else none

/-- The columns that a character adds before what follows it, and what it makes the position
before it see. -/
def columnsBefore (c : Char) (after : Following) : Int × Following :=
  let n := c.toNat
  match after with
  | .lineFeed => if n == 0x0D then (0, .ordinary) else atEnd c
  | .emojiSelector joined =>
    if CodePoints.member CodePoints.emojiSelectable n
        || CodePoints.member CodePoints.emojiPresentation n then
      (if joined then 0 else 2, .emoji)
    else atEnd c
  | .textSelector =>
    if CodePoints.member CodePoints.emojiPresentation n && !(0x1F200 ≤ n && n ≤ 0x1F2FF) then
      (1, .ordinary)
    else atEnd c
  | .emoji => if n == 0x200D then (0, .joinedEmoji) else atEnd c
  | .emojiModifier =>
    if n == 0x200D then (0, .joinedEmoji)
    else if CodePoints.member CodePoints.emojiModifierBase n then (0, .emoji)
    else atEnd c
  | .joinedEmoji =>
    if n == 0xFE0F then (0, .emojiSelector true)
    else if 0x1F3FB ≤ n && n ≤ 0x1F3FF then (0, .emojiModifier)
    else if CodePoints.member CodePoints.emojiPresentation n then (0, .emoji)
    else atEnd c
  | .alef =>
    if isLam n then (0, .ordinary)
    else if n ≥ 0x300 && CodePoints.member CodePoints.zeroWidth n && n != 0x200C then (0, .alef)
    else atEnd c
  | .ligature sign joined =>
    if n == 0x200D then (0, .ligature sign true)
    else if isIgnorableMark n then (0, .ligature sign joined)
    else (sign.letter? joined n).getD (atEnd c)
  | .ordinary => atEnd c

/-- The columns of a text and what its beginning makes the position before it see. -/
def columnsFrom : Text → Int × Following
  | [] => (0, .ordinary)
  | c :: cs =>
    let (total, after) := columnsFrom cs
    let (own, before) := columnsBefore c after
    (total + own, before)

/-- The number of columns a text takes up. -/
def columns (text : Text) : Nat := (columnsFrom text).1.toNat

example : columns "日本語".toList = 6 := by decide +kernel
example : columns ['e', '\u0301'] = 1 := by decide +kernel
example : columns ['\r', '\n'] = 1 := by decide +kernel
example : columns ['❤', '\uFE0F'] = 2 := by decide +kernel
example : columns ['ⵏ', '\u2D7F', 'ⴾ'] = 1 := by decide +kernel

end Text

/-- Measures for a terminal. -/
instance terminalWidths : Widths where
  ofChar? c := if Text.isControl c then none else some (Text.charColumns c)
  ofText := Text.columns

end CommandGrammar
