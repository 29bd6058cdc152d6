/-!
# Text as a list of characters

Command-line words, flag spellings, help pages and documents are all `Text`: a list of characters.
Prefixes, suffixes and concatenation are then the prefixes, suffixes and concatenation of lists,
and every reader in this library is a recursion on the characters still to be read.

* `dropPrefix?` and `dropSuffix?` take a known piece off one end;
* `splitOn` and `joinWith` cut at a separator and put one between pieces;
* `replaceAll` replaces a piece from left to right, never looking at what it has just written;
* `distinct` keeps the first occurrence of every item.
-/

namespace CommandGrammar

/-- The characters of a word, a line or a page, in reading order. -/
abbrev Text := List Char

namespace Text

/-! ### Ends of a text -/

/-- The rest of a text after a given beginning, if it begins so. -/
def dropPrefix? : Text → Text → Option Text
  | [], text => some text
  | _ :: _, [] => none
  | p :: ps, c :: cs => if p = c then dropPrefix? ps cs else none

/-- The part of a text before a given ending, if it ends so. -/
def dropSuffix? (ending text : Text) : Option Text :=
  (dropPrefix? ending.reverse text.reverse).map List.reverse

def startsWith (piece text : Text) : Bool := (dropPrefix? piece text).isSome

def endsWith (piece text : Text) : Bool := (dropSuffix? piece text).isSome

theorem dropPrefix?_eq_some_iff {p t r : Text} : dropPrefix? p t = some r ↔ t = p ++ r := by
  induction p generalizing t with
  | nil => simp [dropPrefix?, eq_comm]
  | cons a p ih =>
    cases t with
    | nil => simp [dropPrefix?]
    | cons c t => by_cases h : a = c <;> simp [dropPrefix?, h, ih, eq_comm]

theorem dropSuffix?_eq_some_iff {e t r : Text} : dropSuffix? e t = some r ↔ t = r ++ e := by
  simp only [dropSuffix?, Option.map_eq_some_iff, dropPrefix?_eq_some_iff]
  constructor
  · rintro ⟨a, ha, rfl⟩
    have := congrArg List.reverse ha
    simpa using this
  · rintro rfl
    exact ⟨r.reverse, by simp, by simp⟩

theorem startsWith_iff {p t : Text} : startsWith p t = true ↔ p <+: t := by
  rw [startsWith, Option.isSome_iff_exists]
  constructor
  · rintro ⟨r, hr⟩
    exact ⟨r, (dropPrefix?_eq_some_iff.1 hr).symm⟩
  · rintro ⟨r, hr⟩
    exact ⟨r, dropPrefix?_eq_some_iff.2 hr.symm⟩

/-- A text without the longest ending whose characters all satisfy `p`. -/
def dropWhileEnd (p : Char → Bool) (text : Text) : Text :=
  (text.reverse.dropWhile p).reverse

theorem length_dropWhileEnd_le (p : Char → Bool) (text : Text) :
    (dropWhileEnd p text).length ≤ text.length := by
  rw [dropWhileEnd, List.length_reverse]
  exact Nat.le_trans (List.dropWhile_suffix p).length_le (Nat.le_of_eq List.length_reverse)

theorem dropWhileEnd_concat_of_neg {p : Char → Bool} {c : Char} (h : p c = false) (text : Text) :
    dropWhileEnd p (text ++ [c]) = text ++ [c] := by
  rw [dropWhileEnd, List.reverse_concat, List.dropWhile_cons_of_neg (by simp [h]),
    List.reverse_cons, List.reverse_reverse]

theorem dropWhileEnd_concat_of_pos {p : Char → Bool} {c : Char} (h : p c = true) (text : Text) :
    dropWhileEnd p (text ++ [c]) = dropWhileEnd p text := by
  rw [dropWhileEnd, List.reverse_concat, List.dropWhile_cons_of_pos h]
  rfl

theorem mem_of_mem_dropWhileEnd {p : Char → Bool} {c : Char} {text : Text}
    (h : c ∈ dropWhileEnd p text) : c ∈ text :=
  List.mem_reverse.1 ((List.dropWhile_suffix p).subset (List.mem_reverse.1 h))

theorem any_eq_false_iff {p : Char → Bool} {text : Text} :
    text.any p = false ↔ ∀ c ∈ text, p c = false := by
  simp only [List.any_eq_false, Bool.not_eq_true]

/-- What satisfies a test and is followed by what does not is taken whole. -/
theorem takeWhile_dropWhile_append {p : Char → Bool} {taken rest : Text}
    (htaken : ∀ c ∈ taken, p c = true) (hrest : ∀ c ∈ rest.head?, p c = false) :
    (taken ++ rest).takeWhile p = taken ∧ (taken ++ rest).dropWhile p = rest := by
  rw [List.takeWhile_append_of_pos htaken, List.dropWhile_append_of_pos htaken]
  cases rest with
  | nil => exact ⟨List.append_nil taken, rfl⟩
  | cons c rest =>
    have hstop : ¬ p c = true := by
      rw [hrest c rfl]
      exact Bool.false_ne_true
    rw [List.takeWhile_cons_of_neg hstop, List.dropWhile_cons_of_neg hstop]
    exact ⟨List.append_nil taken, rfl⟩

/-- The first character that fails a test follows those that pass it. -/
theorem exists_of_dropWhile_eq_cons {p : Char → Bool} {text : Text} {c : Char} {rest : Text}
    (h : text.dropWhile p = c :: rest) :
    ∃ taken, text = taken ++ c :: rest ∧ (∀ d ∈ taken, p d = true) ∧ p c = false := by
  refine ⟨text.takeWhile p, ?_, List.all_eq_true.1 List.all_takeWhile, ?_⟩
  · rw [← h, List.takeWhile_append_dropWhile]
  · have hhead := List.head?_dropWhile_not p text
    rw [h] at hhead
    exact hhead

/-- A text without every copy of `piece` at its end; an empty piece takes nothing. -/
def dropEndings (piece text : Text) : Text :=
  if piece.isEmpty then text else go text.length text
where
  /-- Takes at most `fuel` copies; a text cannot end in more copies than it has characters. -/
  go : Nat → Text → Text
    | 0, text => text
    | fuel + 1, text =>
      match dropSuffix? piece text with
      | some shorter => go fuel shorter
      | none => text

/-! ### Cutting and joining -/

/-- The pieces between the characters that satisfy `p`; a text has one piece more than cuts. -/
def splitWhere (p : Char → Bool) : Text → List Text
  | [] => [[]]
  | c :: cs =>
    if p c then [] :: splitWhere p cs
    else
      match splitWhere p cs with
      | [] => [[c]]
      | piece :: pieces => (c :: piece) :: pieces

theorem splitWhere_eq_self {p : Char → Bool} {text : Text} (h : ∀ c ∈ text, p c = false) :
    splitWhere p text = [text] := by
  induction text with
  | nil => rfl
  | cons c cs ih =>
    rw [splitWhere, h c List.mem_cons_self, ih fun d hd => h d (List.mem_cons_of_mem c hd)]
    rfl

/-- No piece contains a character at which the text is cut. -/
theorem forall_mem_of_mem_splitWhere {p : Char → Bool} {text : Text} :
    ∀ piece ∈ splitWhere p text, ∀ c ∈ piece, p c = false := by
  induction text with
  | nil => simp [splitWhere]
  | cons c cs ih =>
    rw [splitWhere]
    split
    · exact List.forall_mem_cons.2 ⟨List.forall_mem_nil _, ih⟩
    · rename_i hc
      have hc' : p c = false := Bool.eq_false_iff.2 hc
      split
      · simp [hc']
      · rename_i first pieces hpieces
        rw [hpieces, List.forall_mem_cons] at ih
        exact List.forall_mem_cons.2 ⟨List.forall_mem_cons.2 ⟨hc', ih.1⟩, ih.2⟩

theorem mem_of_mem_splitWhere {p : Char → Bool} {text piece : Text} (h : piece ∈ splitWhere p text)
    {c : Char} (hc : c ∈ piece) : c ∈ text := by
  induction text generalizing piece with
  | nil =>
    rw [List.mem_singleton.1 h] at hc
    exact hc
  | cons d cs ih =>
    rw [splitWhere] at h
    split at h
    · rcases List.mem_cons.1 h with rfl | h
      · exact absurd hc List.not_mem_nil
      · exact List.mem_cons_of_mem d (ih h hc)
    · split at h
      · rw [List.mem_singleton.1 h] at hc
        rw [List.mem_singleton.1 hc]
        exact List.mem_cons_self
      · rename_i first pieces hpieces
        rw [hpieces] at ih
        rcases List.mem_cons.1 h with rfl | h
        · rcases List.mem_cons.1 hc with rfl | hc
          · exact List.mem_cons_self
          · exact List.mem_cons_of_mem d (ih List.mem_cons_self hc)
        · exact List.mem_cons_of_mem d (ih (List.mem_cons_of_mem first h) hc)

/-- The part before the first character that satisfies `p`, and the part after it. -/
def cutAt? (p : Char → Bool) (text : Text) : Option (Text × Text) :=
  match text.dropWhile (fun c => !p c) with
  | [] => none
  | _ :: rest => some (text.takeWhile (fun c => !p c), rest)

/-- The pieces one after the other with a separator between neighbours. -/
def joinWith (separator : Text) : List Text → Text
  | [] => []
  | [piece] => piece
  | piece :: pieces => piece ++ separator ++ joinWith separator pieces

theorem joinWith_cons_cons (separator first second : Text) (others : List Text) :
    joinWith separator (first :: second :: others)
      = first ++ (separator ++ joinWith separator (second :: others)) :=
  List.append_assoc _ _ _

/-- Descriptors after the first one stand after a space each. -/
theorem joinWith_space (first : Text) (others : List Text) :
    joinWith [' '] (first :: others) = first ++ others.flatMap (' ' :: ·) := by
  induction others generalizing first with
  | nil => exact (List.append_nil first).symm
  | cons second others ih =>
    rw [joinWith_cons_cons, ih]
    rfl

theorem mem_of_mem_joinWith {separator : Text} {pieces : List Text} {c : Char}
    (h : c ∈ joinWith separator pieces) : c ∈ separator ∨ ∃ piece ∈ pieces, c ∈ piece := by
  induction pieces with
  | nil => exact absurd h List.not_mem_nil
  | cons first others ih =>
    have hothers : c ∈ separator ∨ (∃ piece ∈ others, c ∈ piece) →
        c ∈ separator ∨ ∃ piece ∈ first :: others, c ∈ piece :=
      Or.imp_right fun ⟨piece, hpiece, hc⟩ => ⟨piece, List.mem_cons_of_mem first hpiece, hc⟩
    cases others with
    | nil => exact Or.inr ⟨first, List.mem_cons_self, h⟩
    | cons second others =>
      rw [joinWith_cons_cons, List.mem_append, List.mem_append] at h
      rcases h with h | h | h
      · exact Or.inr ⟨first, List.mem_cons_self, h⟩
      · exact Or.inl h
      · exact hothers (ih h)

/-- The text with every copy of a non-empty `old` replaced, from left to right. -/
def replaceAll (old new : Text) (text : Text) : Text :=
  if old.isEmpty then text else go 0 text
where
  /-- Walks over the text; `skip` characters still belong to a copy already replaced. -/
  go : Nat → Text → Text
    | _, [] => []
    | skip + 1, _ :: cs => go skip cs
    | 0, c :: cs =>
      if startsWith old (c :: cs) then new ++ go (old.length - 1) cs else c :: go 0 cs

theorem replaceAll_of_not_infix {old text : Text} (h : ¬ old <:+: text) (new : Text) :
    replaceAll old new text = text := by
  have hgo : ∀ text : Text, ¬ old <:+: text → replaceAll.go old new 0 text = text := by
    intro text h
    induction text with
    | nil => rfl
    | cons c rest ih =>
      rw [List.infix_cons_iff, not_or] at h
      have hstarts : startsWith old (c :: rest) = false := by
        rw [Bool.eq_false_iff, Ne, startsWith_iff]
        exact h.1
      rw [replaceAll.go, hstarts, if_neg Bool.false_ne_true, ih h.2]
  unfold replaceAll
  split
  · rfl
  · exact hgo text h

theorem replaceAll.go_eq_drop (old new : Text) (skip : Nat) (text : Text) :
    replaceAll.go old new skip text = replaceAll.go old new 0 (text.drop skip) := by
  induction text generalizing skip with
  | nil => rw [List.drop_nil]; cases skip <;> rfl
  | cons c cs ih =>
    cases skip with
    | zero => rfl
    | succ skip => exact ih skip

/-- A copy at the beginning is replaced. -/
theorem replaceAll_append {old : Text} (h : old ≠ []) (new rest : Text) :
    replaceAll old new (old ++ rest) = new ++ replaceAll old new rest := by
  cases old with
  | nil => exact absurd rfl h
  | cons a old =>
    have hstarts : startsWith (a :: old) (a :: (old ++ rest)) = true :=
      startsWith_iff.2 ⟨rest, rfl⟩
    show replaceAll.go (a :: old) new 0 (a :: (old ++ rest)) = _
    rw [replaceAll.go, if_pos hstarts, replaceAll.go_eq_drop, List.length_cons, Nat.add_sub_cancel,
      List.drop_left]
    rfl

/-- What begins no copy stays. -/
theorem replaceAll_cons {old : Text} {c : Char} {cs : Text} (h : ¬ old <+: c :: cs) (new : Text) :
    replaceAll old new (c :: cs) = c :: replaceAll old new cs := by
  cases old with
  | nil => exact absurd List.nil_prefix h
  | cons a old =>
    have hstarts : startsWith (a :: old) (c :: cs) = false := by
      rw [Bool.eq_false_iff, Ne, startsWith_iff]
      exact h
    show replaceAll.go (a :: old) new 0 (c :: cs) = _
    rw [replaceAll.go, hstarts, if_neg Bool.false_ne_true]
    rfl

theorem mem_of_mem_replaceAll {old new : Text} {d : Char} {text : Text}
    (h : d ∈ replaceAll old new text) : d ∈ new ∨ d ∈ text := by
  have hgo : ∀ (skip : Nat) (text : Text), d ∈ replaceAll.go old new skip text →
      d ∈ new ∨ d ∈ text := by
    intro skip text
    fun_induction replaceAll.go old new skip text with
    | case1 => exact Or.inr
    | case2 skip c cs ih => exact fun h => (ih h).imp_right (List.mem_cons_of_mem c)
    | case3 c cs hstarts ih =>
      intro h
      rcases List.mem_append.1 h with h | h
      · exact Or.inl h
      · exact (ih h).imp_right (List.mem_cons_of_mem c)
    | case4 c cs hstarts ih =>
      intro h
      rcases List.mem_cons.1 h with h | h
      · exact Or.inr (h ▸ List.mem_cons_self)
      · exact (ih h).imp_right (List.mem_cons_of_mem c)
  unfold replaceAll at h
  split at h
  · exact Or.inr h
  · exact hgo 0 text h

/-- A character that is replaced everywhere is gone, unless it is written again. -/
theorem not_mem_replaceAll {c : Char} {new : Text} (h : c ∉ new) (text : Text) :
    c ∉ replaceAll [c] new text := by
  induction text with
  | nil => exact List.not_mem_nil
  | cons d cs ih =>
    by_cases hd : c = d
    · have hcopy : replaceAll [c] new (c :: cs) = new ++ replaceAll [c] new cs :=
        replaceAll_append (List.cons_ne_nil c []) new cs
      rw [← hd, hcopy, List.mem_append, not_or]
      exact ⟨h, ih⟩
    · have hprefix : ¬ [c] <+: d :: cs := fun hp => hd (List.cons_prefix_cons.1 hp).1
      rw [replaceAll_cons hprefix, List.mem_cons, not_or]
      exact ⟨hd, ih⟩

/-- The lines of a text: each ends before a line feed, a carriage return before the line feed is
dropped with it, and a final line feed opens no further line. -/
def lines (text : Text) : List Text :=
  (match (splitWhere (· == '\n') text).reverse with
    | [] => []
    | [] :: earlier => (earlier.map dropReturn).reverse
    | last :: earlier => (last :: earlier.map dropReturn).reverse)
where
  /-- A line without the carriage return before its line feed. -/
  dropReturn (line : Text) : Text := (dropSuffix? ['\r'] line).getD line

theorem splitWhere_append {p : Char → Bool} {piece : Text} (h : ∀ c ∈ piece, p c = false)
    {stop : Char} (hstop : p stop = true) (rest : Text) :
    splitWhere p (piece ++ stop :: rest) = piece :: splitWhere p rest := by
  induction piece with
  | nil =>
    show splitWhere p (stop :: rest) = _
    rw [splitWhere, if_pos hstop]
  | cons c cs ih =>
    show splitWhere p (c :: (cs ++ stop :: rest)) = _
    rw [splitWhere, h c List.mem_cons_self, ih fun d hd => h d (List.mem_cons_of_mem c hd)]
    rfl

theorem mem_of_mem_dropReturn {line : Text} {c : Char} (h : c ∈ lines.dropReturn line) :
    c ∈ line := by
  unfold lines.dropReturn at h
  cases hdrop : dropSuffix? ['\r'] line with
  | none => rwa [hdrop] at h
  | some shorter =>
    rw [hdrop] at h
    rw [dropSuffix?_eq_some_iff.1 hdrop]
    exact List.mem_append_left _ h

theorem exists_of_mem_lines {text line : Text} (h : line ∈ lines text) :
    ∃ piece ∈ splitWhere (· == '\n') text, ∀ c ∈ line, c ∈ piece := by
  have hreturn {earlier : List Text} (hsub : ∀ p ∈ earlier, p ∈ splitWhere (· == '\n') text)
      (h : line ∈ (earlier.map lines.dropReturn).reverse) :
      ∃ piece ∈ splitWhere (· == '\n') text, ∀ c ∈ line, c ∈ piece := by
    obtain ⟨piece, hp, rfl⟩ := List.mem_map.1 (List.mem_reverse.1 h)
    exact ⟨piece, hsub piece hp, fun _ => mem_of_mem_dropReturn⟩
  have hmem (piece : Text) : piece ∈ splitWhere (· == '\n') text
      ↔ piece ∈ (splitWhere (· == '\n') text).reverse := List.mem_reverse.symm
  unfold lines at h
  split at h
  · exact absurd h List.not_mem_nil
  · rename_i earlier hsplit
    rw [hsplit] at hmem
    exact hreturn (fun p hp => (hmem p).2 (List.mem_cons_of_mem _ hp)) h
  · rename_i last earlier _ hsplit
    rw [hsplit] at hmem
    rw [List.reverse_cons, List.mem_append, List.mem_singleton] at h
    rcases h with h | rfl
    · exact hreturn (fun p hp => (hmem p).2 (List.mem_cons_of_mem _ hp)) h
    · exact ⟨line, (hmem line).2 List.mem_cons_self, fun _ => id⟩

/-- A line consists of characters of its text, none of which ends a line. -/
theorem mem_of_mem_lines {text line : Text} (h : line ∈ lines text) {c : Char} (hc : c ∈ line) :
    c ∈ text ∧ c ≠ '\n' := by
  obtain ⟨piece, hp, hsub⟩ := exists_of_mem_lines h
  exact ⟨mem_of_mem_splitWhere hp (hsub c hc),
    beq_eq_false_iff_ne.1 (forall_mem_of_mem_splitWhere piece hp c (hsub c hc))⟩

theorem dropReturn_of_not_mem {line : Text} (h : '\r' ∉ line) : lines.dropReturn line = line := by
  unfold lines.dropReturn
  cases hdrop : dropSuffix? ['\r'] line with
  | none => rfl
  | some shorter =>
    have hlast : line = shorter ++ ['\r'] := dropSuffix?_eq_some_iff.1 hdrop
    refine absurd ?_ h
    rw [hlast]
    exact List.mem_append_right shorter List.mem_cons_self

/-- Texts written one per line are the lines of what is written. -/
theorem lines_flatMap {rows : List Text} (h : ∀ row ∈ rows, '\n' ∉ row ∧ '\r' ∉ row) :
    lines (rows.flatMap (· ++ ['\n'])) = rows := by
  have hsplit : splitWhere (· == '\n') (rows.flatMap (· ++ ['\n'])) = rows ++ [[]] := by
    induction rows with
    | nil => rfl
    | cons row rows ih =>
      have hrow : ∀ c ∈ row, (c == '\n') = false := by
        intro c hc
        rw [beq_eq_false_iff_ne]
        exact fun heq => (h row List.mem_cons_self).1 (heq ▸ hc)
      rw [List.flatMap_cons, List.append_assoc, List.singleton_append,
        splitWhere_append hrow rfl, ih fun r hr => h r (List.mem_cons_of_mem row hr)]
      rfl
  have hreturn : ∀ row ∈ rows, lines.dropReturn row = row :=
    fun row hrow => dropReturn_of_not_mem (h row hrow).2
  unfold lines
  rw [hsplit, List.reverse_concat]
  show (rows.reverse.map lines.dropReturn).reverse = rows
  rw [List.map_reverse, List.reverse_reverse, List.map_congr_left hreturn, List.map_id']

def spaces (n : Nat) : Text := List.replicate n ' '

theorem mem_spaces {n : Nat} {c : Char} (h : c ∈ spaces n) : c = ' ' := (List.mem_replicate.1 h).2

theorem dropWhile_spaces (n : Nat) {text : Text} (h : text.head? ≠ some ' ') :
    (spaces n ++ text).dropWhile (· == ' ') = text := by
  refine (takeWhile_dropWhile_append (fun c hc => ?_) fun c hc => ?_).2
  · rw [mem_spaces hc]
    rfl
  · rw [beq_eq_false_iff_ne]
    rintro rfl
    exact h hc

/-! ### Lists of texts -/

/-- The items of a list without the later copies of any of them. -/
def distinct (items : List Text) : List Text :=
  items.foldl (fun kept item => if kept.contains item then kept else kept ++ [item]) []

/-- The order of texts by code points, first difference first. -/
def before (a b : Text) : Bool :=
  match a, b with
  | [], [] => false
  | [], _ :: _ => true
  | _ :: _, [] => false
  | x :: xs, y :: ys => if x.toNat < y.toNat then true else if x = y then before xs ys else false

/-- A list with an item put before the first one that does not come before it; an equal item is
kept once. -/
def insertSorted (item : Text) : List Text → List Text
  | [] => [item]
  | x :: xs =>
    if before item x then item :: x :: xs
    else if item = x then x :: xs
    else x :: insertSorted item xs

/-- The distinct items in increasing order. -/
def sorted (items : List Text) : List Text := items.foldr insertSorted []

end Text

end CommandGrammar
