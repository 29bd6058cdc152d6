import CommandGrammar.Proofs.Gaps
import CommandGrammar.Proofs.Tables

/-!
# Entries as descriptors

An entry of a page is declared by its flags, two spaces and its description. What reads the
declaration takes the first gap as the end of the flags; what reads the page does not, for it takes
a placeholder in brackets as it stands, whatever is inside. So an entry is split again as it was
found exactly if its flags have no gap, and a gap can only be in brackets.

* `tight_of_mem_goOn`: what a list of spellings goes on over has a gap only with a bracket;
* `tight_of_read?`: so have the flags of an option line, and they end in no blank;
* `Tight.commas`: commas for the words between spellings change nothing in this;
* `splitHelp_descriptor_iff`: when the descriptor of an entry is split as it was found.
-/

namespace CommandGrammar

namespace OptionLine

open Descriptor

/-! ### Readers outside of brackets -/

/-- A text of at least one character and without blanks. -/
def Solid (text : Text) : Prop := text ≠ [] ∧ ∀ c ∈ text, Text.isBlank c = false

/-- Whether no character of a class is blank. -/
def SolidOnly (p : Char → Bool) : Prop := ∀ c, p c = true → Text.isBlank c = false

theorem isBlank_of_visible {c : Char} (hlow : 33 ≤ c.toNat) (hhigh : c.toNat ≤ 126) :
    Text.isBlank c = false := by
  unfold Text.isBlank
  simp only [Bool.or_eq_false_iff, Bool.and_eq_false_iff, decide_eq_false_iff_not,
    beq_eq_false_iff_ne]
  omega

theorem solidOnly_isUpper : SolidOnly isUpper := by
  intro c hc
  rw [isUpper, Bool.and_eq_true, decide_eq_true_eq, decide_eq_true_eq] at hc
  have hlow : 65 ≤ c.toNat := UInt32.le_iff_toNat_le.1 hc.1
  have hhigh : c.toNat ≤ 90 := UInt32.le_iff_toNat_le.1 hc.2
  exact isBlank_of_visible (by omega) (by omega)

theorem solidOnly_isDigit : SolidOnly isDigit := by
  intro c hc
  rw [isDigit, Bool.and_eq_true, decide_eq_true_eq, decide_eq_true_eq] at hc
  have hlow : 48 ≤ c.toNat := UInt32.le_iff_toNat_le.1 hc.1
  have hhigh : c.toNat ≤ 57 := UInt32.le_iff_toNat_le.1 hc.2
  exact isBlank_of_visible (by omega) (by omega)

/-- A class of letters, digits and some marks has no blank if the marks have none. -/
theorem solidOnly_of_marks {p : Char → Bool} {marks : Text}
    (hmarks : marks.all (fun c => !Text.isBlank c) = true)
    (hp : ∀ c, p c = true → isLower c = true ∨ isUpper c = true ∨ isDigit c = true ∨ c ∈ marks) :
    SolidOnly p := by
  intro c hc
  rcases hp c hc with hlower | hupper | hdigit | hmark
  · exact isBlank_of_isLower hlower
  · exact solidOnly_isUpper c hupper
  · exact solidOnly_isDigit c hdigit
  · simpa using List.all_eq_true.1 hmarks c hmark

theorem solidOnly_isFlagHead : SolidOnly isFlagHead := by
  have hmarks : "?#@".toList.all (fun c => !Text.isBlank c) = true := by decide
  exact solidOnly_of_marks hmarks fun c hc => by simpa [isFlagHead, or_assoc] using hc

theorem solidOnly_isFlagBody : SolidOnly isFlagBody := by
  have hmarks : "-_.+#@".toList.all (fun c => !Text.isBlank c) = true := by decide
  exact solidOnly_of_marks hmarks fun c hc => by simpa [isFlagBody, or_assoc] using hc

theorem solidOnly_isJoined : SolidOnly isJoined := by
  have hmarks : "_.:/|<>-".toList.all (fun c => !Text.isBlank c) = true := by decide
  exact solidOnly_of_marks hmarks fun c hc => by simpa [isJoined, or_assoc] using hc

theorem solidOnly_isCapital : SolidOnly isCapital := by
  have hmarks : "_.:-".toList.all (fun c => !Text.isBlank c) = true := by decide
  refine solidOnly_of_marks hmarks fun c hc => Or.inr ?_
  simpa [isCapital, or_assoc] using hc

/-- The characters of an operand, and those of its placeholder. -/
theorem solidOnly_operand :
    SolidOnly (fun c => isLower c || isDigit c || c == '_') ∧
      SolidOnly (fun c => isUpper c || isDigit c || c == '_') := by
  have hmarks : ['_'].all (fun c => !Text.isBlank c) = true := by decide
  constructor
  · refine solidOnly_of_marks hmarks fun c hc => ?_
    simp only [Bool.or_eq_true, beq_iff_eq] at hc
    rcases hc with (hc | hc) | rfl <;> simp [*]
  · refine solidOnly_of_marks hmarks fun c hc => ?_
    simp only [Bool.or_eq_true, beq_iff_eq] at hc
    rcases hc with (hc | hc) | rfl <;> simp [*]

/-- Whether what stands between the beginnings of two ends of a text is solid. -/
def Over (cs e : Text) : Prop := ∃ taken, cs = taken ++ e ∧ Solid taken

theorem Over.cons {cs e : Text} (h : Over cs e) {c : Char} (hc : Text.isBlank c = false) :
    Over (c :: cs) e := by
  obtain ⟨taken, rfl, -, htaken⟩ := h
  exact ⟨c :: taken, rfl, List.cons_ne_nil _ _, List.forall_mem_cons.2 ⟨hc, htaken⟩⟩

theorem Over.append {cs e : Text} (h : Over cs e) {before : Text}
    (hbefore : ∀ c ∈ before, Text.isBlank c = false) : Over (before ++ cs) e := by
  induction before with
  | nil => exact h
  | cons c before ih =>
    obtain ⟨hc, hbefore⟩ := List.forall_mem_cons.1 hbefore
    exact (ih hbefore).cons hc

theorem over_cons_of_mem_runs {p : Char → Bool} (hp : SolidOnly p) {c : Char}
    (hc : Text.isBlank c = false) {cs e : Text} (h : e ∈ runs p cs) : Over (c :: cs) e := by
  obtain ⟨taken, rfl, htaken⟩ := exists_of_mem_runs h
  exact ⟨c :: taken, rfl, List.cons_ne_nil _ _,
    List.forall_mem_cons.2 ⟨hc, fun d hd => hp d (htaken d hd)⟩⟩

theorem over_of_mem_flagBody {cs e : Text} (h : e ∈ flagBody cs) : Over cs e := by
  cases cs with
  | nil => exact absurd h List.not_mem_nil
  | cons c cs =>
    rw [flagBody] at h
    split at h
    · rename_i hc
      exact over_cons_of_mem_runs solidOnly_isFlagBody (solidOnly_isFlagHead c hc) h
    · exact absurd h List.not_mem_nil

theorem over_of_mem_assigned {cs e : Text} (h : e ∈ assigned cs) : Over cs e := by
  unfold assigned at h
  split at h
  · split at h
    · rename_i hc
      exact (over_cons_of_mem_runs solidOnly_operand.2 (solidOnly_isUpper _ hc) h).cons (by decide)
    · exact absurd h List.not_mem_nil
  · exact absurd h List.not_mem_nil

theorem over_of_mem_operand {cs e : Text} (h : e ∈ operand cs) : Over cs e := by
  cases cs with
  | nil => exact absurd h List.not_mem_nil
  | cons c cs =>
    rw [operand] at h
    split at h
    · rename_i hc
      have hname : ∀ d ∈ cs.takeWhile (fun c => isLower c || isDigit c || c == '_'),
          Text.isBlank d = false :=
        fun d hd => solidOnly_operand.1 d (List.all_eq_true.1 List.all_takeWhile d hd)
      rw [← List.takeWhile_append_dropWhile (p := fun c => isLower c || isDigit c || c == '_')
        (l := cs)]
      exact ((over_of_mem_assigned h).append hname).cons (isBlank_of_isLower hc)
    · exact absurd h List.not_mem_nil

theorem over_of_mem_flag {cs e : Text} (h : e ∈ flag cs) : Over cs e := by
  unfold flag at h
  split at h
  · exact ((over_of_mem_flagBody h).cons (by decide)).cons (by decide)
  · exact (over_of_mem_flagBody h).cons (by decide)
  · exact over_of_mem_operand h

theorem over_of_mem_capitals {cs e : Text} (h : e ∈ capitals cs) : Over cs e := by
  cases cs with
  | nil => exact absurd h List.not_mem_nil
  | cons c cs =>
    rw [capitals] at h
    split at h
    · rename_i hc
      obtain ⟨rest, hrest, h⟩ := List.mem_flatMap.1 h
      have hrun := over_cons_of_mem_runs solidOnly_isCapital (solidOnly_isUpper c hc) hrest
      split at h
      · rename_i shorter hdots
        rcases List.mem_cons.1 h with rfl | h
        · obtain ⟨taken, hcs, hne, htaken⟩ := hrun
          rw [Text.dropPrefix?_eq_some_iff.1 hdots, ← List.append_assoc] at hcs
          have hsolid : ∀ c ∈ "...".toList, Text.isBlank c = false := by simp [Text.isBlank]
          exact ⟨_, hcs, by simp [hne], List.forall_mem_append.2 ⟨htaken, hsolid⟩⟩
        · rw [List.mem_singleton.1 h]
          exact hrun
      · rw [List.mem_singleton.1 h]
        exact hrun
    · exact absurd h List.not_mem_nil

/-! ### Lists of spellings -/

/-- A text that ends in no blank, and has a gap only if it has an opening bracket. -/
structure Tight (text : Text) : Prop where
  ends : ∃ before d, text = before ++ [d] ∧ Text.isBlank d = false
  gapless : (∀ c ∈ text, isOpening c = false) → ¬ HasGap text

theorem Tight.getLast?_ne_space {text : Text} (h : Tight text) : text.getLast? ≠ some ' ' := by
  obtain ⟨before, d, rfl, hd⟩ := h.ends
  exact Text.getLast?_concat_ne_space hd before

theorem Tight.append {left right : Text} (hleft : Tight left) (hright : Tight right) :
    Tight (left ++ right) := by
  obtain ⟨before, d, hlast, hd⟩ := hright.ends
  refine ⟨⟨left ++ before, d, by rw [hlast, List.append_assoc], hd⟩, fun hopening => ?_⟩
  obtain ⟨hopening, hopening'⟩ := List.forall_mem_append.1 hopening
  exact not_hasGap_append (hleft.gapless hopening) hleft.getLast?_ne_space
    (hright.gapless hopening')

/-- What may stand between two parts of a list of spellings. -/
def separators : List Text := [[], [' '], [','], [',', ' '], orWord]

/-- A separator makes no gap with something solid behind it. -/
theorem Solid.tight_append {body : Text} (h : Solid body) (separator : Text)
    (hseparator : separator ∈ separators) : Tight (separator ++ body) := by
  obtain ⟨hne, hsolid⟩ := h
  constructor
  · refine ⟨separator ++ body.dropLast, body.getLast hne, ?_, hsolid _ (List.getLast_mem hne)⟩
    rw [List.append_assoc, List.dropLast_append_getLast]
  · intro _
    have hgaps : ∀ separator ∈ separators, ¬ HasGap separator := by decide
    refine not_hasGap_append_of_head (hgaps separator hseparator) (not_hasGap_of_noBlank hsolid) ?_
    intro hhead
    exact absurd (hsolid ' ' (List.mem_of_head? hhead)) (by decide)

theorem Over.tight {cs e : Text} (h : Over cs e) (separator : Text)
    (hseparator : separator ∈ separators) :
    ∃ taken, separator ++ cs = taken ++ e ∧ Tight taken := by
  obtain ⟨body, rfl, hbody⟩ := h
  exact ⟨separator ++ body, (List.append_assoc _ _ _).symm, hbody.tight_append separator hseparator⟩

/-- A placeholder in brackets may have gaps, so it is tight whatever stands before it. -/
theorem tight_of_mem_bracketed {opening closing : Char} (hb : Bracket opening closing) {cs e : Text}
    (h : e ∈ bracketed closing cs) (before : Text) :
    ∃ taken, before ++ opening :: cs = taken ++ e ∧ Tight taken := by
  obtain ⟨inside, rfl, -⟩ := eq_append_of_mem_bracketed h
  have hopening : isOpening opening = true := by cases hb <;> decide
  have hclosing : Text.isBlank closing = false := by cases hb <;> decide
  refine ⟨before ++ opening :: (inside ++ [closing]), by simp, ?_, fun hnone => ?_⟩
  · exact ⟨before ++ opening :: inside, closing, by simp, hclosing⟩
  · exact absurd ((hnone opening (by simp)).symm.trans hopening) Bool.false_ne_true

theorem tight_of_mem_inBrackets {cs e : Text} (h : e ∈ inBrackets cs) (before : Text) :
    ∃ taken, before ++ cs = taken ++ e ∧ Tight taken := by
  unfold inBrackets at h
  split at h
  · exact tight_of_mem_bracketed .square h before
  · exact tight_of_mem_bracketed .angle h before
  · exact tight_of_mem_bracketed .curly h before
  · exact absurd h List.not_mem_nil

/-- What a list of spellings goes on over is tight. -/
theorem tight_of_mem_goOn {cs e : Text} (h : e ∈ goOn cs) :
    ∃ taken, cs = taken ++ e ∧ Tight taken := by
  rcases List.mem_append.1 h with h | h
  · unfold placeholder at h
    split at h
    · exact (over_cons_of_mem_runs solidOnly_isJoined (by decide) h).tight [] (by decide)
    · rcases List.mem_append.1 h with h | h
      · exact (over_of_mem_capitals h).tight [' '] (by decide)
      · exact tight_of_mem_inBrackets h [' ']
    · exact tight_of_mem_inBrackets h []
  · unfold nextFlag at h
    split at h
    · exact (over_of_mem_flag h).tight [',', ' '] (by decide)
    · exact (over_of_mem_flag h).tight [','] (by decide)
    · rcases List.mem_append.1 h with h | h
      · split at h
        · rename_i hor
          rw [Text.dropPrefix?_eq_some_iff.1 hor]
          exact (over_of_mem_flag h).tight orWord (by decide)
        · exact absurd h List.not_mem_nil
      · exact (over_of_mem_flag h).tight [' '] (by decide)
    · exact absurd h List.not_mem_nil

/-- What a list of spellings goes on over up to a description is tight, if it is anything. -/
theorem tight_of_readFrom? {cs : Text} {r : Reading} (h : readFrom? cs = some r) :
    r.after = cs ∨ ∃ taken, cs = taken ++ r.after ∧ Tight taken := by
  induction cs using goOn_induction generalizing r with
  | step cs ih =>
    rw [readFrom?_eq] at h
    rcases Option.or_eq_some_iff.1 h with h | ⟨-, h⟩
    · obtain ⟨e, he, hread⟩ := List.exists_of_findSome?_eq_some h
      obtain ⟨first, rfl, hfirst⟩ := tight_of_mem_goOn he
      rcases ih e he hread with hstop | ⟨taken, rfl, htaken⟩
      · exact Or.inr ⟨first, by rw [hstop], hfirst⟩
      · exact Or.inr ⟨first ++ taken, (List.append_assoc _ _ _).symm, hfirst.append htaken⟩
    · obtain ⟨d, -, rfl⟩ := Option.map_eq_some_iff.1 h
      exact Or.inl rfl

/-- **The flags of an option line** begin and end with characters other than blanks, and have a gap
only if they have an opening bracket. -/
theorem tight_of_read? {line : Text} {l : OptionLine} (h : read? line = some l) :
    (∃ c rest, l.flags = c :: rest ∧ Text.isBlank c = false) ∧ Tight l.flags := by
  obtain ⟨rest, r, -, hreading, hafter, -, -⟩ := exists_of_read? h
  rw [reading?_eq] at hreading
  obtain ⟨e, he, hread⟩ := List.exists_of_findSome?_eq_some hreading
  obtain ⟨first, hfirst, hne, hsolid⟩ := over_of_mem_flag he
  have htight : Tight first := Solid.tight_append ⟨hne, hsolid⟩ [] (by decide)
  obtain ⟨c, tail, rfl⟩ := List.exists_cons_of_ne_nil hne
  have hc : Text.isBlank c = false := hsolid c List.mem_cons_self
  rcases tight_of_readFrom? hread with hstop | ⟨taken, hstop, htaken⟩
  · rw [← hstop, hafter] at hfirst
    rw [List.append_cancel_right hfirst]
    exact ⟨⟨c, tail, rfl, hc⟩, htight⟩
  · rw [hstop, hafter, ← List.append_assoc] at hfirst
    rw [List.append_cancel_right hfirst]
    exact ⟨⟨c, tail ++ taken, rfl, hc⟩, htight.append htaken⟩

/-! ### Flags with commas -/

/-- A word between spellings does not begin with anything but a space. -/
theorem commas_cons_of_ne {c : Char} (h : c ≠ ' ') (cs : Text) :
    commas (c :: cs) = c :: commas cs :=
  commas_cons fun hor => h (List.cons_prefix_cons.1 hor).1.symm

theorem head?_commas_ne {cs : Text} (h : cs.head? ≠ some ' ') :
    (commas cs).head? ≠ some ' ' := by
  cases cs with
  | nil => exact h
  | cons c cs =>
    rw [commas_cons_of_ne fun hc => h (congrArg some hc)]
    exact h

/-- Commas for words leave brackets as they are. -/
theorem mem_commas_of_mem {c : Char} (hc : c ∉ orWord) {cs : Text} (h : c ∈ cs) :
    c ∈ commas cs := by
  induction cs using or_induction with
  | nil => exact h
  | or cs ih =>
    rw [commas_or]
    exact List.mem_append_right _ (ih ((List.mem_append.1 h).resolve_left hc))
  | cons d cs hkeep ih =>
    rw [commas_cons hkeep]
    exact (List.mem_cons.1 h).elim (fun heq => heq ▸ List.mem_cons_self)
      fun h => List.mem_cons_of_mem d (ih h)

/-- Commas for words make no gap. -/
theorem not_hasGap_commas {cs : Text} (h : ¬ HasGap cs) : ¬ HasGap (commas cs) := by
  induction cs using or_induction with
  | nil => exact h
  | or cs ih =>
    -- No space follows the word, since a space ends it.
    have htail : ¬ HasGap (' ' :: cs) := fun hgap => h (hasGap_append_right hgap [' ', 'o', 'r'])
    obtain ⟨-, hhead, hcs⟩ := not_hasGap_cons_iff.1 htail
    rw [commas_or]
    exact not_hasGap_append_of_head (by decide) (ih hcs) (head?_commas_ne (hhead rfl))
  | cons c cs hkeep ih =>
    obtain ⟨htab, hhead, hcs⟩ := not_hasGap_cons_iff.1 h
    rw [commas_cons hkeep]
    refine not_hasGap_cons_iff.2 ⟨htab, fun hc => head?_commas_ne (hhead hc), ih hcs⟩

/-- The last character stays where words become commas. -/
theorem getLast?_commas {d : Char} (hd : Text.isBlank d = false) {cs : Text} :
    cs.getLast? = some d → (commas cs).getLast? = some d := by
  induction cs using or_induction with
  | nil => exact id
  | or cs ih =>
    intro hlast
    rw [List.getLast?_append] at hlast
    rw [commas_or, List.getLast?_append]
    cases hcs : cs.getLast? with
    | none =>
      -- The word itself ends in a space.
      rw [hcs] at hlast
      obtain rfl : ' ' = d := Option.some.inj hlast
      exact absurd hd (by decide)
    | some d' =>
      rw [hcs] at hlast
      rw [ih (hcs.trans hlast)]
      rfl
  | cons c cs hkeep ih =>
    intro hlast
    rw [commas_cons hkeep]
    by_cases hnil : cs = []
    · subst hnil
      exact hlast
    · rw [List.getLast?_cons_of_ne_nil hnil] at hlast
      have hlast' := ih hlast
      rwa [List.getLast?_cons_of_ne_nil]
      rintro hempty
      simp [hempty] at hlast'

/-- Commas for words leave what is tight tight. -/
theorem Tight.commas {flags : Text} (h : Tight flags) : Tight (commas flags) := by
  obtain ⟨before, d, hlast, hd⟩ := h.ends
  have hlast' : (OptionLine.commas flags).getLast? = some d :=
    getLast?_commas hd (by rw [hlast, List.getLast?_concat])
  obtain ⟨before', heq⟩ := List.getLast?_eq_some_iff.1 hlast'
  refine ⟨⟨before', d, heq, hd⟩, fun hnone => not_hasGap_commas (h.gapless fun c hc => ?_)⟩
  rw [Bool.eq_false_iff]
  intro hopening
  have hword : c ∉ orWord := by
    intro hmem
    have hclosed : ∀ c ∈ orWord, isOpening c = false := by simp [orWord, isOpening]
    exact absurd ((hclosed c hmem).symm.trans hopening) Bool.false_ne_true
  exact absurd ((hnone c (mem_commas_of_mem hword hc)).symm.trans hopening) Bool.false_ne_true

end OptionLine

/-! ### Entries of a page -/

namespace Page

open OptionLine Descriptor

/-- The entries of a page whose text was changed by some filter before it was scanned. -/
def filteredEntries (options : ScanOptions) (filter : Text → Text) (text : Text) :
    List OptionEntry :=
  backfill (scan none (between options (Text.lines (filter (clean text)))))

theorem entries_eq_filtered (options : ScanOptions) (text : Text) :
    entries options text
      = filteredEntries options (fun text => options.filters.foldl Filter.apply text) text := rfl

/-- The flags of an entry are trimmed, and have a gap only if they have an opening bracket; its
description is trimmed. -/
theorem ends_of_mem_filteredEntries {options : ScanOptions} {filter : Text → Text} {text : Text}
    {e : OptionEntry} (h : e ∈ filteredEntries options filter text) :
    (e.flags ≠ [] ∧ Text.trim e.flags = e.flags) ∧ Tight e.flags ∧
      Text.trim e.description = e.description := by
  obtain ⟨e₁, h₁, e₂, h₂, rfl⟩ := exists_of_mem_backfill h
  have hfrom : ∀ e ∈ scan none (between options (Text.lines (filter (clean text)))),
      e.From (between options (Text.lines (filter (clean text)))) :=
    from_of_mem_scan (List.Subset.refl _) fun _ he => nomatch he
  obtain ⟨line, -, l, hread, hflags⟩ := (hfrom e₁ h₁).flags
  obtain ⟨⟨c, rest, hhead, hc⟩, htight⟩ := tight_of_read? hread
  have hhead' : e₁.flags = c :: commas rest := by
    rw [hflags, hhead, commas_cons_of_ne (Text.ne_space_of_isBlank hc)]
  have htight' : Tight e₁.flags := hflags ▸ htight.commas
  obtain ⟨before, d, hlast, hd⟩ := htight'.ends
  refine ⟨⟨?_, Text.trim_eq_self hhead' hc hlast hd⟩, htight', (hfrom e₂ h₂).trimmed⟩
  rw [hhead']
  exact List.cons_ne_nil _ _

/-- **Entries as descriptors.** Whatever page and boundaries and filters an entry comes from, its
descriptor is split into its flags and its description, if it has one, exactly if its flags have no
tab and no two spaces in a row. They have none unless they have an opening bracket. -/
theorem splitHelp_descriptor_iff {options : ScanOptions} {filter : Text → Text} {text : Text}
    {e : OptionEntry} (h : e ∈ filteredEntries options filter text) :
    (splitHelp e.descriptor
        = (e.flags, if e.description.isEmpty then none else some e.description) ↔
      ¬ HasGap e.flags) ∧
      ((∀ c ∈ e.flags, isOpening c = false) → ¬ HasGap e.flags) := by
  obtain ⟨⟨hne, hflags⟩, htight, hdescription⟩ := ends_of_mem_filteredEntries h
  exact ⟨splitHelp_descriptor hne hflags hdescription, htight.gapless⟩

/-- All entries of the sample page are split as they were found. -/
theorem splitHelp_descriptor_sample :
    entries {} samplePage ≠ [] ∧ ∀ e ∈ entries {} samplePage,
      splitHelp e.descriptor
        = (e.flags, if e.description.isEmpty then none else some e.description) := by
  have hgaps : ∀ e ∈ entries {} samplePage, ¬ HasGap e.flags := by decide +kernel
  refine ⟨by decide +kernel, fun e he => ?_⟩
  exact (splitHelp_descriptor_iff (entries_eq_filtered {} samplePage ▸ he)).1.2 (hgaps e he)

/-- A page with an option whose placeholder has two spaces in its brackets. -/
def gapPage : Text := "  -x <a  b>  desc\n".toList

/-- The entry has the placeholder as a whole, its descriptor is split inside it, and what the option
is declared with is a placeholder that never ends. -/
theorem descriptor_split_in_brackets :
    entries {} gapPage = [⟨"-x <a  b>".toList, "desc".toList⟩] ∧
      splitHelp (OptionEntry.descriptor ⟨"-x <a  b>".toList, "desc".toList⟩)
        = ("-x <a".toList, some "b>  desc".toList) ∧
      ¬ ∀ e ∈ entries {} gapPage,
        splitHelp e.descriptor
          = (e.flags, if e.description.isEmpty then none else some e.description) := by
  decide +kernel

end Page

end CommandGrammar
