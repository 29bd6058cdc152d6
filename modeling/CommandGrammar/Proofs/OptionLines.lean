import Mathlib.Data.List.Infix
import CommandGrammar.Help.OptionLine

/-!
# How option lines are read

Every reader stops right behind a character that can end a spelling, which is neither a space nor a
tab nor a comma. So a list of spellings goes on over ever shorter ends of a line, and how an end is
read depends on nothing before it.

* `ends_of_mem_goOn`: a list of spellings never stands still;
* `goOn_or`, `goOn_comma`, `goOn_space`, `goOn_of_ne`: how it goes on, by the next character;
* `readFrom?_eq`: an end of a line is read as the first readable end the list goes on to;
* `stop_of_reading?`: a list of spellings stops before a description.
-/

namespace CommandGrammar

namespace OptionLine

/-! ### What readers read over -/

/-- Whether a character can end a spelling: it is no space, no tab and no comma. -/
def isInk (c : Char) : Bool := !isMargin c && c != ','

/-- Whether every character of a class can end a spelling. -/
def InkOnly (p : Char → Bool) : Prop := ∀ c, p c = true → isInk c = true

theorem isInk_eq_false_iff {c : Char} : isInk c = false ↔ c = ' ' ∨ c = '\t' ∨ c = ',' := by
  rw [isInk, Bool.and_eq_false_iff, Bool.not_eq_false', isMargin, Bool.or_eq_true, beq_iff_eq,
    beq_iff_eq, bne_eq_false_iff_eq, or_assoc]

theorem inkOnly_iff {p : Char → Bool} :
    InkOnly p ↔ p ' ' = false ∧ p '\t' = false ∧ p ',' = false := by
  constructor
  · intro h
    refine ⟨?_, ?_, ?_⟩ <;>
    · rw [Bool.eq_false_iff]
      exact fun hp => absurd (h _ hp) (by decide)
  · rintro ⟨hspace, htab, hcomma⟩ c hc
    rw [← Bool.not_eq_false, isInk_eq_false_iff]
    rintro (rfl | rfl | rfl) <;> simp_all

theorem inkOnly_isFlagHead : InkOnly isFlagHead := inkOnly_iff.2 (by decide)

theorem inkOnly_isFlagBody : InkOnly isFlagBody := inkOnly_iff.2 (by decide)

theorem inkOnly_isJoined : InkOnly isJoined := inkOnly_iff.2 (by decide)

theorem inkOnly_isUpper : InkOnly isUpper := inkOnly_iff.2 (by decide)

theorem inkOnly_isLower : InkOnly isLower := inkOnly_iff.2 (by decide)

theorem inkOnly_isCapital : InkOnly isCapital := inkOnly_iff.2 (by decide)

/-- The first characters of an operand, and those of its placeholder. -/
theorem inkOnly_operand :
    InkOnly (fun c => isLower c || isDigit c || c == '_') ∧
      InkOnly (fun c => isUpper c || isDigit c || c == '_') :=
  ⟨inkOnly_iff.2 (by decide), inkOnly_iff.2 (by decide)⟩

/-- Between the beginnings of two ends of a text stands something, and it can end a spelling. -/
def Ends (cs rest : Text) : Prop := ∃ before c, cs = before ++ c :: rest ∧ isInk c = true

theorem Ends.cons {cs rest : Text} (h : Ends cs rest) (c : Char) : Ends (c :: cs) rest := by
  obtain ⟨before, d, hcs, hd⟩ := h
  exact ⟨c :: before, d, congrArg (List.cons c) hcs, hd⟩

theorem Ends.append {cs rest : Text} (h : Ends cs rest) (before : Text) :
    Ends (before ++ cs) rest := by
  induction before with
  | nil => exact h
  | cons c before ih => exact ih.cons c

theorem Ends.length_lt {cs rest : Text} (h : Ends cs rest) : rest.length < cs.length := by
  obtain ⟨before, c, rfl, -⟩ := h
  rw [List.length_append, List.length_cons]
  omega

theorem Ends.isSuffix {cs rest : Text} (h : Ends cs rest) : rest <:+ cs := by
  obtain ⟨before, c, rfl, -⟩ := h
  exact ⟨before ++ [c], by simp⟩

theorem Ends.exists_cons {cs rest : Text} (h : Ends cs rest) :
    ∃ c tail, cs = c :: tail ∧ (isInk c = false → Ends tail rest) := by
  obtain ⟨before, c, rfl, hc⟩ := h
  cases before with
  | nil => exact ⟨c, rest, rfl, fun hblank => absurd (hc.symm.trans hblank) (by decide)⟩
  | cons d before => exact ⟨d, before ++ c :: rest, rfl, fun _ => ⟨before, c, rfl, hc⟩⟩

theorem Ends.trans {cs rest rest' : Text} (h : Ends cs rest) (h' : Ends rest rest') :
    Ends cs rest' := by
  obtain ⟨before, c, rfl, -⟩ := h
  exact (h'.cons c).append before

theorem exists_of_mem_runs {p : Char → Bool} {cs e : Text} (h : e ∈ runs p cs) :
    ∃ taken, cs = taken ++ e ∧ ∀ c ∈ taken, p c = true := by
  induction cs with
  | nil =>
    refine ⟨[], ?_, List.forall_mem_nil _⟩
    rw [List.mem_singleton.1 h]
    rfl
  | cons c cs ih =>
    rw [runs] at h
    split at h
    · rename_i hc
      rcases List.mem_append.1 h with h | h
      · obtain ⟨taken, hcs, htaken⟩ := ih h
        exact ⟨c :: taken, congrArg (List.cons c) hcs, List.forall_mem_cons.2 ⟨hc, htaken⟩⟩
      · exact ⟨[], (List.mem_singleton.1 h).symm, List.forall_mem_nil _⟩
    · exact ⟨[], (List.mem_singleton.1 h).symm, List.forall_mem_nil _⟩

/-- A run after a character that can end a spelling. -/
theorem ends_cons_of_mem_runs {p : Char → Bool} (hp : InkOnly p) {c : Char} (hc : isInk c = true)
    {cs e : Text} (h : e ∈ runs p cs) : Ends (c :: cs) e := by
  obtain ⟨taken, rfl, htaken⟩ := exists_of_mem_runs h
  rcases List.eq_nil_or_concat taken with rfl | ⟨before, d, rfl⟩
  · exact ⟨[], c, rfl, hc⟩
  · have hd : isInk d = true := hp d (htaken d (by simp))
    exact ⟨c :: before, d, by simp, hd⟩

theorem ends_of_mem_flagBody {cs e : Text} (h : e ∈ flagBody cs) : Ends cs e := by
  cases cs with
  | nil => exact absurd h List.not_mem_nil
  | cons c cs =>
    rw [flagBody] at h
    split at h
    · rename_i hc
      exact ends_cons_of_mem_runs inkOnly_isFlagBody (inkOnly_isFlagHead c hc) h
    · exact absurd h List.not_mem_nil

theorem ends_of_mem_assigned {cs e : Text} (h : e ∈ assigned cs) : Ends cs e := by
  unfold assigned at h
  split at h
  · split at h
    · rename_i hc
      exact (ends_cons_of_mem_runs inkOnly_operand.2 (inkOnly_isUpper _ hc) h).cons '='
    · exact absurd h List.not_mem_nil
  · exact absurd h List.not_mem_nil

theorem ends_of_mem_operand {cs e : Text} (h : e ∈ operand cs) : Ends cs e := by
  cases cs with
  | nil => exact absurd h List.not_mem_nil
  | cons c cs =>
    rw [operand] at h
    split at h
    · obtain ⟨name, hname⟩ :=
        List.dropWhile_suffix (fun c => isLower c || isDigit c || c == '_') (l := cs)
      rw [← hname]
      exact ((ends_of_mem_assigned h).append name).cons c
    · exact absurd h List.not_mem_nil

theorem ends_of_mem_flag {cs e : Text} (h : e ∈ flag cs) : Ends cs e := by
  unfold flag at h
  split at h
  · exact ((ends_of_mem_flagBody h).cons '-').cons '-'
  · exact (ends_of_mem_flagBody h).cons '-'
  · exact ends_of_mem_operand h

theorem eq_append_of_mem_bracketed {closing : Char} {cs e : Text} (h : e ∈ bracketed closing cs) :
    ∃ inside, cs = inside ++ closing :: e ∧ closing ∉ inside := by
  unfold bracketed at h
  split at h
  · rename_i d rest hdrop
    obtain ⟨inside, hcs, hinside, hd⟩ := Text.exists_of_dropWhile_eq_cons hdrop
    rw [bne_eq_false_iff_eq] at hd
    rw [List.mem_singleton.1 h, ← hd]
    exact ⟨inside, hcs, fun hmem => bne_iff_ne.1 (hinside d hmem) hd⟩
  · exact absurd h List.not_mem_nil

theorem ends_of_mem_inBrackets {cs e : Text} (h : e ∈ inBrackets cs) : Ends cs e := by
  unfold inBrackets at h
  split at h
  case h_4 => exact absurd h List.not_mem_nil
  all_goals
    obtain ⟨inside, rfl, -⟩ := eq_append_of_mem_bracketed h
    exact Ends.cons ⟨inside, _, rfl, by decide⟩ _

theorem ends_of_mem_capitals {cs e : Text} (h : e ∈ capitals cs) : Ends cs e := by
  cases cs with
  | nil => exact absurd h List.not_mem_nil
  | cons c cs =>
    rw [capitals] at h
    split at h
    · rename_i hc
      obtain ⟨rest, hrest, h⟩ := List.mem_flatMap.1 h
      have hrun := ends_cons_of_mem_runs inkOnly_isCapital (inkOnly_isUpper c hc) hrest
      split at h
      · rename_i shorter hdots
        rcases List.mem_cons.1 h with rfl | h
        · have hrest := Text.dropPrefix?_eq_some_iff.1 hdots
          exact hrun.trans ⟨['.', '.'], '.', hrest, by decide⟩
        · rw [List.mem_singleton.1 h]
          exact hrun
      · rw [List.mem_singleton.1 h]
        exact hrun
    · exact absurd h List.not_mem_nil

theorem ends_of_mem_placeholder {cs e : Text} (h : e ∈ placeholder cs) : Ends cs e := by
  unfold placeholder at h
  split at h
  · exact ends_cons_of_mem_runs inkOnly_isJoined (by decide) h
  · rcases List.mem_append.1 h with h | h
    · exact (ends_of_mem_capitals h).cons ' '
    · exact (ends_of_mem_inBrackets h).cons ' '
  · exact ends_of_mem_inBrackets h

theorem ends_of_mem_nextFlag {cs e : Text} (h : e ∈ nextFlag cs) : Ends cs e := by
  unfold nextFlag at h
  split at h
  · exact ((ends_of_mem_flag h).cons ' ').cons ','
  · exact (ends_of_mem_flag h).cons ','
  · rcases List.mem_append.1 h with h | h
    · split at h
      · rename_i hor
        rw [Text.dropPrefix?_eq_some_iff.1 hor]
        exact ((ends_of_mem_flag h).append _).cons ' '
      · exact absurd h List.not_mem_nil
    · exact (ends_of_mem_flag h).cons ' '
  · exact absurd h List.not_mem_nil

/-- A list of spellings goes on over something, which can end a spelling. -/
theorem ends_of_mem_goOn {cs e : Text} (h : e ∈ goOn cs) : Ends cs e := by
  rcases List.mem_append.1 h with h | h
  · exact ends_of_mem_placeholder h
  · exact ends_of_mem_nextFlag h

/-- Induction over the places to which a list of spellings may go on. -/
theorem goOn_induction {P : Text → Prop} (step : ∀ cs, (∀ e ∈ goOn cs, P e) → P cs) (cs : Text) :
    P cs := by
  induction hlen : cs.length using Nat.strong_induction_on generalizing cs with
  | _ n ih =>
    refine step cs fun e he => ih e.length ?_ e rfl
    rw [← hlen]
    exact (ends_of_mem_goOn he).length_lt

/-! ### Where no reader begins -/

section Heads

variable {cs : Text}

/-- Whether a text does not begin with a character that can end a spelling. -/
def Blunt (cs : Text) : Prop := ∀ c ∈ cs.head?, isInk c = false

theorem Blunt.not {p : Char → Bool} (hp : InkOnly p) (h : Blunt cs) :
    ∀ c ∈ cs.head?, p c = false := by
  intro c hc
  rw [Bool.eq_false_iff]
  exact fun hpc => Bool.false_ne_true ((h c hc).symm.trans (hp c hpc))

theorem blunt_or_exists (cs : Text) : Blunt cs ∨ ∃ c tail, cs = c :: tail ∧ isInk c = true := by
  cases cs with
  | nil => exact Or.inl fun _ hc => nomatch hc
  | cons c cs =>
    cases hc : isInk c with
    | true => exact Or.inr ⟨c, cs, rfl, hc⟩
    | false =>
      refine Or.inl ?_
      rintro d ⟨⟩
      exact hc

theorem runs_of_blunt {p : Char → Bool} (hp : InkOnly p) (h : Blunt cs) : runs p cs = [cs] := by
  cases cs with
  | nil => rfl
  | cons c cs => rw [runs, h.not hp c rfl, if_neg Bool.false_ne_true]

theorem flagBody_of_blunt (h : Blunt cs) : flagBody cs = [] := by
  cases cs with
  | nil => rfl
  | cons c cs => rw [flagBody, h.not inkOnly_isFlagHead c rfl, if_neg Bool.false_ne_true]

theorem assigned_of_blunt (h : Blunt cs) : assigned ('=' :: cs) = [] := by
  cases cs with
  | nil => rfl
  | cons c cs => rw [assigned, h.not inkOnly_isUpper c rfl, if_neg Bool.false_ne_true]

theorem assigned_of_ne (h : cs.head? ≠ some '=') : assigned cs = [] := by
  unfold assigned
  split
  · exact absurd rfl h
  · rfl

theorem operand_of_blunt (h : Blunt cs) : operand cs = [] := by
  cases cs with
  | nil => rfl
  | cons c cs => rw [operand, h.not inkOnly_isLower c rfl, if_neg Bool.false_ne_true]

theorem capitals_of_blunt (h : Blunt cs) : capitals cs = [] := by
  cases cs with
  | nil => rfl
  | cons c cs => rw [capitals, h.not inkOnly_isUpper c rfl, if_neg Bool.false_ne_true]

theorem flag_of_blunt (h : Blunt cs) : flag cs = [] := by
  cases cs with
  | nil => rfl
  | cons c cs => rcases isInk_eq_false_iff.1 (h c rfl) with rfl | rfl | rfl <;> rfl

theorem flag_dash (h : cs.head? ≠ some '-') : flag ('-' :: cs) = flagBody cs := by
  cases cs with
  | nil => rfl
  | cons c cs =>
    rw [flag]
    rintro _ ⟨rfl, rfl⟩
    exact h rfl

theorem flag_of_not_dash (h : cs.head? ≠ some '-') : flag cs = operand cs := by
  cases cs with
  | nil => rfl
  | cons c cs =>
    have hc : c ≠ '-' := fun hc => h (congrArg some hc)
    unfold flag
    split
    · simp_all
    · simp_all
    · rfl

end Heads

/-! ### Brackets -/

/-- An opening bracket with its closing one. -/
inductive Bracket : Char → Char → Prop
  | square : Bracket '[' ']'
  | angle : Bracket '<' '>'
  | curly : Bracket '\x7b' '\x7d'

theorem Bracket.isInk_opening {opening closing : Char} (h : Bracket opening closing) :
    isInk opening = true := by
  cases h <;> decide

theorem inBrackets_opening {opening closing : Char} (h : Bracket opening closing) (cs : Text) :
    inBrackets (opening :: cs) = bracketed closing cs := by
  cases h <;> rfl

theorem inBrackets_of_ne {cs : Text}
    (h : ∀ opening closing, Bracket opening closing → cs.head? ≠ some opening) :
    inBrackets cs = [] := by
  unfold inBrackets
  split
  · exact absurd rfl (h _ _ .square)
  · exact absurd rfl (h _ _ .angle)
  · exact absurd rfl (h _ _ .curly)
  · rfl

theorem bracketed_of_not_mem {closing : Char} {cs : Text} (h : closing ∉ cs) :
    bracketed closing cs = [] := by
  have hnil : cs.dropWhile (· != closing) = [] := by
    rw [Text.dropWhile_eq_nil_iff_all, List.all_eq_true]
    exact fun c hc => bne_iff_ne.2 fun heq => h (heq ▸ hc)
  unfold bracketed
  rw [hnil]

theorem bracketed_pass {closing : Char} {taken : Text} (h : closing ∉ taken) (cs : Text) :
    bracketed closing (taken ++ cs) = bracketed closing cs := by
  have hdrop : (taken ++ cs).dropWhile (· != closing) = cs.dropWhile (· != closing) :=
    List.dropWhile_append_of_pos fun c hc => bne_iff_ne.2 fun heq => h (heq ▸ hc)
  unfold bracketed
  rw [hdrop]

theorem bracketed_closing (closing : Char) (cs : Text) :
    bracketed closing (closing :: cs) = [cs] := by
  have hdrop : (closing :: cs).dropWhile (· != closing) = closing :: cs :=
    List.dropWhile_cons_of_neg (by simp)
  unfold bracketed
  rw [hdrop]

/-- The word between two spellings. -/
def orWord : Text := " or ".toList

/-! ### Separators -/

theorem goOn_or (cs : Text) : goOn (orWord ++ cs) = flag cs := List.append_nil (flag cs)

theorem goOn_comma_space (cs : Text) : goOn ([',', ' '] ++ cs) = flag cs := rfl

theorem goOn_comma {cs : Text} (h : cs.head? ≠ some ' ') : goOn (',' :: cs) = flag cs := by
  show nextFlag (',' :: cs) = _
  unfold nextFlag
  split <;> simp_all

theorem goOn_space {cs : Text} (h : ∀ tail, cs = "or ".toList ++ tail → flag tail = []) :
    goOn (' ' :: cs) = capitals cs ++ inBrackets cs ++ flag cs := by
  have hgoOn : goOn (' ' :: cs) = capitals cs ++ inBrackets cs ++ nextFlag (' ' :: cs) := rfl
  rw [hgoOn, nextFlag]
  split
  · rename_i tail htail
    rw [h tail (Text.dropPrefix?_eq_some_iff.1 htail)]
    rfl
  · rfl

theorem goOn_equals (cs : Text) : goOn ('=' :: cs) = runs isJoined cs := List.append_nil _

theorem goOn_of_ne {c : Char} {cs : Text} (hspace : c ≠ ' ') (hcomma : c ≠ ',')
    (hequals : c ≠ '=') : goOn (c :: cs) = inBrackets (c :: cs) := by
  have hplaceholder : placeholder (c :: cs) = inBrackets (c :: cs) := by
    unfold placeholder
    split
    · exact absurd (List.head_eq_of_cons_eq ‹_›) hequals
    · exact absurd (List.head_eq_of_cons_eq ‹_›) hspace
    · rfl
  have hnext : nextFlag (c :: cs) = [] := by
    unfold nextFlag
    split
    · exact absurd (List.head_eq_of_cons_eq ‹_›) hcomma
    · exact absurd (List.head_eq_of_cons_eq ‹_›) hcomma
    · exact absurd (List.head_eq_of_cons_eq ‹_›) hspace
    · rfl
  unfold goOn
  rw [hplaceholder, hnext, List.append_nil]

theorem goOn_opening {opening closing : Char} (hb : Bracket opening closing) (cs : Text) :
    goOn (opening :: cs) = bracketed closing cs ∧
      goOn (' ' :: opening :: cs) = bracketed closing cs := by
  cases hb <;> exact ⟨List.append_nil _, List.append_nil _⟩

/-! ### The reading of an end of a line -/

theorem findSome?_congr {α β : Type} {f g : α → Option β} {l : List α}
    (h : ∀ a ∈ l, f a = g a) : l.findSome? f = l.findSome? g := by
  show l.findSome? (id ∘ f) = l.findSome? (id ∘ g)
  rw [← List.findSome?_map, ← List.findSome?_map, List.map_congr_left h]

def readFrom? (cs : Text) : Option Reading := (readings cs).head?.join

theorem getElem?_readings (before cs : Text) :
    (readings (before ++ cs))[before.length]? = some (readFrom? cs) := by
  induction before with
  | nil =>
    show (readings cs)[0]? = _
    unfold readFrom?
    cases cs <;> simp [readings]
  | cons c before ih =>
    rw [← ih]
    simp [readings]

/-- The readings are looked up at the ends they are those of. -/
theorem firstReading?_eq {cs : Text} {ends : List Text} (h : ∀ e ∈ ends, e <:+ cs) :
    firstReading? cs.length (readings cs) ends = ends.findSome? readFrom? := by
  unfold firstReading?
  have hlookup : ∀ e ∈ ends,
      ((readings cs)[cs.length - e.length]?).getD none = readFrom? e := by
    intro e he
    obtain ⟨before, rfl⟩ := h e he
    rw [List.length_append, Nat.add_sub_cancel, getElem?_readings]
    rfl
  exact findSome?_congr hlookup

/-- A list of spellings goes on if it can, and otherwise a description has to follow. -/
theorem readFrom?_eq (cs : Text) :
    readFrom? cs = ((goOn cs).findSome? readFrom?).or ((description? cs).map (Reading.mk cs)) := by
  cases cs with
  | nil => rfl
  | cons c cs =>
    have hsuffix : ∀ e ∈ goOn (c :: cs), e <:+ cs := by
      intro e he
      have hends := ends_of_mem_goOn he
      exact (List.suffix_cons_iff.1 hends.isSuffix).resolve_left fun heq =>
        absurd hends.length_lt (by rw [heq]; exact Nat.lt_irrefl _)
    rw [← firstReading?_eq hsuffix]
    show Option.join (some _) = _
    cases firstReading? cs.length (readings cs) (goOn (c :: cs)) <;> rfl

theorem reading?_eq (body : Text) : reading? body = (flag body).findSome? readFrom? := by
  rw [← firstReading?_eq fun e he => (ends_of_mem_flag he).isSuffix]
  unfold reading?
  split
  · rename_i h
    rw [h]
    rfl
  · rfl

/-- A list of spellings stops before a description, at its beginning or after something that can
end a spelling. -/
theorem stop_of_readFrom? {cs : Text} {r : Reading} (h : readFrom? cs = some r) :
    (r.after = cs ∨ Ends cs r.after) ∧ description? r.after = some r.description := by
  induction cs using goOn_induction generalizing r with
  | step cs ih =>
    rw [readFrom?_eq] at h
    rcases Option.or_eq_some_iff.1 h with h | ⟨-, h⟩
    · obtain ⟨e, he, hread⟩ := List.exists_of_findSome?_eq_some h
      obtain ⟨hstop, hdescription⟩ := ih e he hread
      have hends := ends_of_mem_goOn he
      refine ⟨Or.inr ?_, hdescription⟩
      rcases hstop with hstop | hstop
      · rw [hstop]
        exact hends
      · exact hends.trans hstop
    · obtain ⟨d, hd, rfl⟩ := Option.map_eq_some_iff.1 h
      exact ⟨Or.inl rfl, hd⟩

theorem stop_of_reading? {body : Text} {r : Reading} (h : reading? body = some r) :
    Ends body r.after ∧ description? r.after = some r.description := by
  rw [reading?_eq] at h
  obtain ⟨e, he, hread⟩ := List.exists_of_findSome?_eq_some h
  obtain ⟨hstop, hdescription⟩ := stop_of_readFrom? hread
  have hends := ends_of_mem_flag he
  refine ⟨?_, hdescription⟩
  rcases hstop with hstop | hstop
  · rw [hstop]
    exact hends
  · exact hends.trans hstop

end OptionLine

end CommandGrammar
