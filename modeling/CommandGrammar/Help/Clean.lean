import CommandGrammar.Text.Blank

/-!
# Cleaning rendered text

Help and manual pages come with what a terminal would have interpreted: escape sequences for
colours and cursor moves, a character overstruck with a backspace and another one for bold and
underlined text, and line ends of several kinds. Cleaning leaves plain lines.

* `stripEscapes` drops `ESC [`, parameters, intermediate characters and a final one.
* `stripOverstrike` drops, round after round, every character before a backspace together with
  the backspace; what is then left of backspaces stands at the beginning and erases nothing.
* `clean` does both and ends every line with a line feed.
-/

namespace CommandGrammar

namespace Page

/-! ### Escape sequences -/

def isParameter (c : Char) : Bool := ('0' ≤ c && c ≤ '9') || c == ';' || c == '?'

/-- Whether a character stands between parameters and the final character. -/
def isIntermediate (c : Char) : Bool := ' ' ≤ c && c ≤ '/'

/-- Whether a character ends an escape sequence. -/
def isFinal (c : Char) : Bool := '@' ≤ c && c ≤ '~'

/-- What follows the escape sequence at the beginning of a text. -/
def afterEscape? : Text → Option Text
  | '\x1b' :: '[' :: rest =>
    match (rest.dropWhile isParameter).dropWhile isIntermediate with
    | c :: rest => if isFinal c then some rest else none
    | [] => none
  | _ => none

/-- Walks over a text; `skip` characters still belong to an escape sequence. -/
def stripEscapesFrom : Nat → Text → Text
  | _, [] => []
  | skip + 1, _ :: cs => stripEscapesFrom skip cs
  | 0, c :: cs =>
    match afterEscape? (c :: cs) with
    | some rest => stripEscapesFrom (cs.length - rest.length) cs
    | none => c :: stripEscapesFrom 0 cs

def stripEscapes (raw : Text) : Text := stripEscapesFrom 0 raw

/-! ### Overstriking -/

/-- The character that moves the carriage back. -/
def backspace : Char := '\x08'

/-- A text without the characters followed by a backspace and those backspaces, read once from
left to right. -/
def erasePairs : Text → Text
  | [] => []
  | [c] => [c]
  | c :: d :: cs =>
    if c != backspace && d == backspace then erasePairs cs else c :: erasePairs (d :: cs)

/-- Erases pairs until a round changes nothing, and then the backspaces left over. -/
def eraseRounds : Nat → Text → Text
  | 0, text => text.filter (· != backspace)
  | rounds + 1, text =>
    if text.contains backspace then
      let next := erasePairs text
      if next = text then text.filter (· != backspace) else eraseRounds rounds next
    else text

/-- A text as it looks once every backspace has erased the character before it; a round that
changes a text makes it shorter, so there are not more of them than characters. -/
def stripOverstrike (raw : Text) : Text := eraseRounds raw.length raw

/-! ### Lines -/

def unifyLineEnds (text : Text) : Text :=
  Text.replaceAll ['\r'] ['\n'] (Text.replaceAll ['\r', '\n'] ['\n'] text)

/-- A page as plain lines. -/
def clean (raw : Text) : Text := unifyLineEnds (stripOverstrike (stripEscapes raw))

example : stripOverstrike "N\x08NA\x08A".toList = "NA".toList := by decide
example : stripOverstrike "\x08abc".toList = "abc".toList := by decide
example : clean "\x1b[1m-v\x1b[0m\r\n".toList = "-v\n".toList := by decide

/-! ### Rounds shorten -/

theorem length_erasePairs_le (text : Text) : (erasePairs text).length ≤ text.length := by
  fun_induction erasePairs text with
  | case1 => exact Nat.le_refl _
  | case2 => exact Nat.le_refl _
  | case3 c d cs h ih =>
    simp only [List.length_cons]
    omega
  | case4 c d cs h ih =>
    simp only [List.length_cons] at ih ⊢
    omega

/-! ### Texts without escapes and backspaces -/

theorem stripEscapes_of_not_mem {text : Text} (h : '\x1b' ∉ text) : stripEscapes text = text := by
  unfold stripEscapes
  induction text with
  | nil => rfl
  | cons c cs ih =>
    rw [List.mem_cons, not_or] at h
    have hnone : afterEscape? (c :: cs) = none := by
      unfold afterEscape?
      split
      · exact absurd (List.head_eq_of_cons_eq ‹_›).symm h.1
      · rfl
    rw [stripEscapesFrom, hnone, ih h.2]

theorem stripOverstrike_of_not_mem {text : Text} (h : backspace ∉ text) :
    stripOverstrike text = text := by
  have hcontains : text.contains backspace = false := by
    rw [Bool.eq_false_iff, Ne, List.contains_iff_mem]
    exact h
  unfold stripOverstrike
  cases text with
  | nil => rfl
  | cons c cs => rw [List.length_cons, eraseRounds, hcontains, if_neg Bool.false_ne_true]

theorem clean_of_not_mem {text : Text} (hescape : '\x1b' ∉ text) (hbackspace : backspace ∉ text) :
    clean text = unifyLineEnds text := by
  unfold clean
  rw [stripEscapes_of_not_mem hescape, stripOverstrike_of_not_mem hbackspace]

theorem unifyLineEnds_of_not_mem {text : Text} (h : '\r' ∉ text) : unifyLineEnds text = text := by
  have hpair : ¬ ['\r', '\n'] <:+: text := fun hi => h (hi.subset List.mem_cons_self)
  have hsingle : ¬ ['\r'] <:+: text := fun hi => h (hi.subset List.mem_cons_self)
  unfold unifyLineEnds
  rw [Text.replaceAll_of_not_infix hpair, Text.replaceAll_of_not_infix hsingle]

theorem mem_of_mem_unifyLineEnds {c : Char} {text : Text} (h : c ∈ unifyLineEnds text) :
    c ≠ '\r' ∧ (c = '\n' ∨ c ∈ text) := by
  constructor
  · rintro rfl
    exact Text.not_mem_replaceAll (by decide) _ h
  · rcases Text.mem_of_mem_replaceAll h with h | h
    · exact Or.inl (List.mem_singleton.1 h)
    · exact (Text.mem_of_mem_replaceAll h).imp_left List.mem_singleton.1

end Page

end CommandGrammar
