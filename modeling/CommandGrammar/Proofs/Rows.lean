import CommandGrammar.Help.Table
import CommandGrammar.Proofs.Backtracking

/-!
# Rows of tables are option lines

* `exists_of_read?`: how an option line is composed;
* `behindJoined_commas`: what stands behind a joined bracket, before and after commas are written;
* `read?_rowLine`: a row is read as the entry it shows;
* `indentOf_rowLine`: a row is no deeper than the row before it.
-/

namespace CommandGrammar

namespace OptionLine

/-! ### Option lines -/

theorem before_append (text rest : Text) : before (text ++ rest) rest = text := by
  rw [before, List.length_append, Nat.add_sub_cancel, List.take_left]

/-- The parts of a line that lists an option. -/
theorem exists_of_read? {line : Text} {l : OptionLine} (h : read? line = some l) :
    ∃ rest r, line.dropWhile isMargin = l.flags ++ rest ∧ reading? (l.flags ++ rest) = some r ∧
      r.after = rest ∧ Ends l.flags [] ∧
      l.description = r.description.map fun text =>
        (columnAfter 0 (before line text), Text.trim text) := by
  unfold read? at h
  dsimp only at h
  split at h
  · exact absurd h (Option.some_ne_none l).symm
  · rename_i r hread
    split at h
    · exact absurd h (Option.some_ne_none l).symm
    · obtain rfl := Option.some.inj h
      obtain ⟨start, c, hbody, hc⟩ := (stop_of_reading? hread).1
      have hsplit : line.dropWhile isMargin = (start ++ [c]) ++ r.after := by
        rw [hbody]
        simp
      have hflags : before (line.dropWhile isMargin) r.after = start ++ [c] := by
        rw [hsplit, before_append]
      refine ⟨r.after, r, ?_, ?_, rfl, ?_, rfl⟩
      · rw [hflags, hsplit]
      · rw [hflags, ← hsplit]
        exact hread
      · rw [hflags]
        exact ⟨start, c, rfl, hc⟩

theorem isBlank_of_isLower {c : Char} (h : isLower c = true) : Text.isBlank c = false := by
  rw [isLower, Bool.and_eq_true, decide_eq_true_eq, decide_eq_true_eq] at h
  have hlow : 97 ≤ c.toNat := UInt32.le_iff_toNat_le.1 h.1
  have hhigh : c.toNat ≤ 122 := UInt32.le_iff_toNat_le.1 h.2
  unfold Text.isBlank
  simp only [Bool.or_eq_false_iff, Bool.and_eq_false_iff, decide_eq_false_iff_not,
    beq_eq_false_iff_ne]
  omega

/-- A flag begins with a character that is neither blank nor a comma. -/
theorem exists_cons_of_mem_flag {cs e : Text} (h : e ∈ flag cs) :
    ∃ c tail, cs = c :: tail ∧ isInk c = true ∧ Text.isBlank c = false := by
  by_cases hcs : cs.head? = some '-'
  · obtain ⟨tail, rfl⟩ := List.head?_eq_some_iff.1 hcs
    exact ⟨'-', tail, rfl, by decide, by decide⟩
  · rw [flag_of_not_dash hcs] at h
    cases cs with
    | nil => exact absurd h List.not_mem_nil
    | cons c cs =>
      rw [operand] at h
      split at h
      · rename_i hc
        exact ⟨c, cs, rfl, inkOnly_isLower c hc, isBlank_of_isLower hc⟩
      · exact absurd h List.not_mem_nil

/-! ### Columns -/

theorem le_columnAfter (column : Nat) (text : Text) :
    column + text.length ≤ columnAfter column text := by
  induction text generalizing column with
  | nil => exact Nat.le_refl column
  | cons c text ih =>
    have hnext := ih (if c == '\t' then (column / tabWidth + 1) * tabWidth else column + 1)
    refine Nat.le_trans ?_ hnext
    rw [List.length_cons]
    split
    · unfold tabWidth
      omega
    · omega

/-! ### Commas for words -/

theorem respelling_commas_nil : Respelling [] commas where
  border := ⟨fun _ hc => (nomatch hc), fun _ heq => (nomatch heq)⟩
  nil := rfl
  keep := commas_cons
  or := fun cs => Or.inr (commas_or cs)

/-- What stands behind a joined bracket is written with commas as well. -/
theorem behindJoined_commas (cs : Text) : behindJoined (commas cs) = commas (behindJoined cs) := by
  have hre := respelling_commas_nil
  induction cs using or_induction with
  | nil => rfl
  | or cs ih =>
    have hword : ∀ c ∈ orWord, c ≠ '=' := by
      rintro c hc rfl
      exact absurd hc (by decide)
    have hcomma : ∀ c ∈ [',', ' '], c ≠ '=' := by
      rintro c hc rfl
      exact absurd hc (by decide)
    rw [commas_or, behindJoined_append hcomma, behindJoined_append hword, ih]
  | cons c cs hkeep ih =>
    have hangle : ((commas cs).dropWhile isPlainJoined).head? = some '<'
        ↔ (cs.dropWhile isPlainJoined).head? = some '<' := by
      rw [hre.dropWhile inkOnly_isPlainJoined]
      exact hre.head?_eq_some_iff (by decide)
    rw [hre.keep hkeep, behindJoined, behindJoined]
    by_cases hc : c = '=' ∧ (cs.dropWhile isPlainJoined).head? = some '<'
    · obtain ⟨tail, htail⟩ := List.head?_eq_some_iff.1 hc.2
      rw [if_pos hc, if_pos ⟨hc.1, hangle.2 hc.2⟩, hre.dropWhile inkOnly_isPlainJoined, htail,
        hre.keep_of_ne (by decide)]
      rfl
    · rw [if_neg hc, if_neg fun hc' => hc ⟨hc'.1, hangle.1 hc'.2⟩, ih]

/-! ### Rows -/

def rowLine (width : Nat) (e : OptionEntry) : Text :=
  Text.spaces 2 ++ e.flags ++ Text.spaces (width - e.flags.length) ++ Text.spaces 2 ++ e.description

theorem goOn_two_spaces (cs : Text) : goOn (' ' :: ' ' :: cs) = [] := rfl

/-- What stands after two spaces or more, if it is not blank, is not read as spellings. -/
theorem readFrom?_spaces {n : Nat} (hn : 2 ≤ n) {text : Text}
    (htext : ∀ c ∈ text.head?, Text.isBlank c = false) :
    readFrom? (Text.spaces n ++ text)
      = some ⟨Text.spaces n ++ text, if text = [] then none else some text⟩ := by
  have hgoOn : goOn (Text.spaces n ++ text) = [] := by
    obtain ⟨m, rfl⟩ := Nat.exists_eq_add_of_le' hn
    exact goOn_two_spaces _
  rw [readFrom?_eq, hgoOn, description?_spaces hn htext]
  rfl

/-- Whether behind a joined bracket no word between spellings stands next to another gap, after a
tab or before a second space. -/
def WordsApart (flags : Text) : Prop :=
  ¬ orWord ++ [' '] <:+: behindJoined flags ∧ ¬ '\t' :: orWord <:+: behindJoined flags

instance (flags : Text) : Decidable (WordsApart flags) := inferInstanceAs (Decidable (_ ∧ _))

/-- Whether behind a joined bracket no bracket of the flags is closed only in the description. -/
def BracketsApart (e : OptionEntry) : Prop :=
  ∀ opening closing, Bracket opening closing → closing ∈ e.description →
    ∀ after, opening :: after <:+ behindJoined e.flags → closing ∈ after

/-- What a table shows of an entry: the flags were read from an option line and written with commas
throughout, and the description has no blanks at its ends; neither holds what a reader that turns
back would take for something else in the row. -/
structure Shown (e : OptionEntry) : Prop where
  flags : ∃ raw rest r, e.flags = commas raw ∧ Ends raw [] ∧ WordsApart raw ∧
    reading? (raw ++ rest) = some r ∧ r.after = rest
  wordless : ¬ orWord <:+: e.flags
  trimmed : Text.trim e.description = e.description
  closed : BracketsApart e

theorem head?_of_trim {text : Text} (h : Text.trim text = text) :
    ∀ c ∈ text.head?, Text.isBlank c = false := by
  intro c hc
  obtain ⟨tail, rfl⟩ := List.head?_eq_some_iff.1 hc
  obtain ⟨⟨d, rest, heq, hd⟩, -⟩ := Text.exists_ends_of_trim (List.cons_ne_nil c tail) h
  rw [List.head_eq_of_cons_eq heq]
  exact hd

/-- Brackets stand in a text as they do with commas. -/
theorem exists_commas_eq {opening closing : Char} (hb : Bracket opening closing)
    (before after : Text) :
    ∃ before', commas (before ++ opening :: after) = before' ++ opening :: commas after := by
  have hopening : opening ∉ orWord := by cases hb <;> decide
  generalize hcs : before ++ opening :: after = cs
  induction cs using or_induction generalizing before with
  | nil => simp at hcs
  | or cs ih =>
    rcases List.append_eq_append_iff.1 hcs with ⟨a, hor, hrest⟩ | ⟨a, rfl, hrest⟩
    · cases a with
      | nil =>
        obtain ⟨before', heq⟩ := ih [] hrest
        exact ⟨[',', ' '] ++ before', by rw [commas_or, heq, List.append_assoc]⟩
      | cons c a =>
        rw [hor, ← List.head_eq_of_cons_eq hrest] at hopening
        exact absurd (List.mem_append_right before List.mem_cons_self) hopening
    · obtain ⟨before', heq⟩ := ih a hrest.symm
      exact ⟨[',', ' '] ++ before', by rw [commas_or, heq, List.append_assoc]⟩
  | cons c cs hkeep ih =>
    cases before with
    | nil =>
      obtain ⟨rfl, rfl⟩ := List.cons.inj hcs
      exact ⟨[], commas_cons hkeep⟩
    | cons d before =>
      obtain ⟨rfl, htail⟩ := List.cons.inj hcs
      obtain ⟨before', heq⟩ := ih before htail
      exact ⟨d :: before', by rw [commas_cons hkeep, heq]; rfl⟩

theorem Shown.stable {e : OptionEntry} (h : Shown e) {raw : Text} (hraw : e.flags = commas raw)
    (hends : Ends raw []) (hwords : WordsApart raw) (n : Nat) :
    Stable (Text.spaces n ++ e.description) (behindJoined raw) where
  ends := nil_or_ends_of_isSuffix (Or.inr hends) (behindJoined_isSuffix_self raw)
  wide := hwords.1
  tab := hwords.2
  closed := by
    intro cs hcs opening closing hb after hbracket hafter hmem
    have hsuffix : opening :: after <:+ behindJoined raw := by
      rcases hbracket with rfl | rfl
      · exact hcs
      · exact (List.suffix_cons _ _).trans hcs
    obtain ⟨before, hbefore⟩ := hsuffix
    obtain ⟨before', hcommas⟩ := exists_commas_eq hb before after
    rw [hbefore, ← behindJoined_commas, ← hraw] at hcommas
    have hclosing : closing ∉ commas after := by
      intro hc
      rcases Text.mem_of_mem_replaceAll hc with hc | hc
      · exact absurd hc (by cases hb <;> decide)
      · exact hafter hc
    rcases List.mem_append.1 hmem with hc | hc
    · exact absurd (Text.mem_spaces hc) (by cases hb <;> decide)
    · exact hclosing (h.closed opening closing hb hc _ ⟨before', hcommas.symm⟩)

theorem isMargin_of_isInk {c : Char} (h : isInk c = true) : isMargin c = false := by
  rw [isInk, Bool.and_eq_true, Bool.not_eq_true'] at h
  exact h.1

theorem rowLine_eq (width : Nat) (e : OptionEntry) :
    rowLine width e = Text.spaces 2 ++
      (e.flags ++ (Text.spaces (width - e.flags.length + 2) ++ e.description)) := by
  have hspaces : Text.spaces (width - e.flags.length + 2)
      = Text.spaces (width - e.flags.length) ++ Text.spaces 2 :=
    List.replicate_append_replicate.symm
  unfold rowLine
  rw [hspaces]
  simp only [List.append_assoc]

theorem Shown.exists_cons {e : OptionEntry} (h : Shown e) :
    ∃ c tail, e.flags = c :: tail ∧ isInk c = true ∧ Text.isBlank c = false := by
  obtain ⟨raw, rest, r, hflags, hends, -, hread, -⟩ := h.flags
  rw [reading?_eq] at hread
  obtain ⟨e', he', -⟩ := List.exists_of_findSome?_eq_some hread
  obtain ⟨c, tail, hcs, hc, hblank⟩ := exists_cons_of_mem_flag he'
  obtain ⟨d, raw, rfl, -⟩ := hends.exists_cons
  obtain rfl : d = c := List.head_eq_of_cons_eq hcs
  exact ⟨d, commas raw, hflags.trans (respelling_commas_nil.keep_ink hc raw), hc, hblank⟩

theorem Shown.reading? {e : OptionEntry} (h : Shown e) {n : Nat} (hn : 2 ≤ n) :
    reading? (e.flags ++ (Text.spaces n ++ e.description))
      = some ⟨Text.spaces n ++ e.description,
          if e.description = [] then none else some e.description⟩ := by
  obtain ⟨raw, rest, r, hflags, hends, hwords, hread, hr⟩ := h.flags
  have hhead := head?_of_trim h.trimmed
  have hborder : Border (Text.spaces n ++ e.description) :=
    border_of_description? (by rw [description?_spaces hn hhead]; rfl)
  rw [hflags]
  exact reading?_respelled (respelling_commas hborder) (readFrom?_spaces hn hhead) hends
    (h.stable hflags hends hwords n) hread hr

theorem takeWhile_dropWhile_rowLine {p : Char → Bool} (hspace : p ' ' = true) {e : OptionEntry}
    {c : Char} {tail : Text} (hflags : e.flags = c :: tail) (hc : p c = false) (width : Nat) :
    (rowLine width e).takeWhile p = Text.spaces 2 ∧
      (rowLine width e).dropWhile p
        = e.flags ++ (Text.spaces (width - e.flags.length + 2) ++ e.description) := by
  rw [rowLine_eq]
  refine Text.takeWhile_dropWhile_append (fun d hd => ?_) ?_
  · rw [Text.mem_spaces hd]
    exact hspace
  · rw [hflags]
    rintro _ ⟨⟩
    exact hc

/-- **A row is read as the entry it shows.** -/
theorem read?_rowLine {e : OptionEntry} (h : Shown e) (width : Nat) :
    ∃ l, read? (rowLine width e) = some l ∧ l.indent = 2 ∧ (OpenEntry.ofLine l).close = e ∧
      ∀ d ∈ l.description, 2 < d.1 := by
  obtain ⟨c, tail, hflags, hc, -⟩ := h.exists_cons
  have hmargin := takeWhile_dropWhile_rowLine (by decide) hflags (isMargin_of_isInk hc) width
  have hread := h.reading? (Nat.le_add_left 2 (width - e.flags.length))
  unfold read?
  dsimp only
  rw [hmargin.1, hmargin.2, hread]
  refine ⟨_, if_neg (by decide), rfl, ?_, ?_⟩
  · have hcommas : commas e.flags = e.flags := Text.replaceAll_of_not_infix h.wordless _
    unfold OpenEntry.ofLine OpenEntry.close
    dsimp only
    rw [before_append]
    by_cases hnil : e.description = []
    · rw [if_pos hnil]
      exact congrArg₂ OptionEntry.mk hcommas hnil.symm
    · rw [if_neg hnil]
      exact congrArg₂ OptionEntry.mk hcommas h.trimmed
  · by_cases hnil : e.description = []
    · rw [if_pos hnil]
      exact fun _ hd => nomatch hd
    · rw [if_neg hnil]
      rintro _ ⟨⟩
      have hbefore : before (rowLine width e) e.description
          = Text.spaces 2 ++ e.flags ++ Text.spaces (width - e.flags.length) ++ Text.spaces 2 :=
        before_append _ _
      have hlength : 2 < (before (rowLine width e) e.description).length := by
        rw [hbefore, hflags]
        simp only [List.length_append, List.length_cons, Text.spaces, List.length_replicate]
        omega
      refine Nat.lt_of_lt_of_le hlength ?_
      rw [← Nat.zero_add (List.length _)]
      exact le_columnAfter 0 _

theorem indentOf_rowLine {e : OptionEntry} (h : Shown e) (width : Nat) :
    indentOf (rowLine width e) = 2 ∧ Text.isAllBlank (rowLine width e) = false := by
  obtain ⟨c, tail, hflags, -, hc⟩ := h.exists_cons
  have hblank := takeWhile_dropWhile_rowLine (by decide) hflags hc width
  constructor
  · unfold indentOf
    rw [hblank.1]
    decide
  · rw [← Bool.not_eq_true, Text.isAllBlank, ← Text.dropWhile_eq_nil_iff_all, hblank.2, hflags]
    exact List.cons_ne_nil _ _

end OptionLine

end CommandGrammar
