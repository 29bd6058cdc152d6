import CommandGrammar.Proofs.Directories
import CommandGrammar.Proofs.Listings

/-!
# One section after another

A page may be read section by section, if every section begins with a line that is not indented.
Such a line is below no option, since a description begins behind the flags or deeper than them, so
no entry in hand and no look ahead over blank lines gets past it: the layout of two sections is that
of the one and then that of the other. All that passes from the second section to the first is a
description, for the entries at its end that have none of their own.

* `lines_append`: the lines of two texts;
* `Below.pos`, `Listing.append`: the layout of two sections;
* `backfill_append`: the descriptions of two sections;
* `entries_append`: their entries.
-/

namespace CommandGrammar

namespace Text

/-! ### Lines of two texts -/

/-- The lines of a text are its pieces between the line feeds, but for an empty one at the end. -/
theorem lines_of_splitWhere {text : Text} (hreturn : '\r' ∉ text) {pieces : List Text} {last : Text}
    (h : splitWhere (· == '\n') text = pieces ++ [last]) :
    lines text = pieces ++ if last = [] then [] else [last] := by
  have hpieces : pieces.map lines.dropReturn = pieces := by
    refine List.map_congr_left (fun piece hpiece => ?_) |>.trans (List.map_id' _)
    have hmem : piece ∈ splitWhere (· == '\n') text := h ▸ List.mem_append_left [last] hpiece
    exact dropReturn_of_not_mem fun hc => hreturn (mem_of_mem_splitWhere hmem hc)
  unfold lines
  rw [h, List.reverse_concat]
  cases last with
  | nil => simp [hpieces]
  | cons c cs => simp [hpieces]

/-- The first line of a text begins as the text does. -/
theorem exists_head?_lines {c : Char} {cs : Text} (hreturn : '\r' ∉ c :: cs)
    (hc : (c == '\n') = false) : ∃ piece, (lines (c :: cs)).head? = some (c :: piece) := by
  obtain ⟨piece, others, hsplit⟩ : ∃ piece others,
      splitWhere (· == '\n') (c :: cs) = (c :: piece) :: others := by
    rw [splitWhere, hc, if_neg Bool.false_ne_true]
    split <;> exact ⟨_, _, rfl⟩
  refine ⟨piece, ?_⟩
  rcases List.eq_nil_or_concat others with rfl | ⟨others, last, rfl⟩
  · have hlast : splitWhere (· == '\n') (c :: cs) = [] ++ [c :: piece] := hsplit
    rw [lines_of_splitWhere hreturn hlast]
    rfl
  · rw [List.concat_eq_append, ← List.cons_append] at hsplit
    rw [lines_of_splitWhere hreturn hsplit]
    rfl

/-- **A text that ends its last line** may be read before another one. -/
theorem lines_append {a b : Text} (hreturn : '\r' ∉ a ++ b)
    (ha : a = [] ∨ a.getLast? = some '\n') : lines (a ++ b) = lines a ++ lines b := by
  rcases ha with rfl | ha
  · rfl
  · obtain ⟨front, rfl⟩ := List.getLast?_eq_some_iff.1 ha
    obtain ⟨pieces, last, hb⟩ : ∃ pieces last, splitWhere (· == '\n') b = pieces ++ [last] :=
      ⟨_, _, (List.dropLast_concat_getLast (splitWhere_ne_nil _ b)).symm⟩
    obtain ⟨hfirst, hsecond⟩ := not_or.1 (mt List.mem_append.2 hreturn)
    have hcut (text : Text) : splitWhere (· == '\n') (front ++ ['\n'] ++ text)
        = splitWhere (· == '\n') front ++ splitWhere (· == '\n') text := by
      rw [List.append_assoc]
      exact splitWhere_append_cons rfl front text
    have hends : splitWhere (· == '\n') (front ++ ['\n'])
        = splitWhere (· == '\n') front ++ [[]] := by
      have hends := hcut []
      rw [List.append_nil] at hends
      exact hends
    have hboth : splitWhere (· == '\n') (front ++ ['\n'] ++ b)
        = (splitWhere (· == '\n') front ++ pieces) ++ [last] := by
      rw [hcut, hb, List.append_assoc]
    rw [lines_of_splitWhere hreturn hboth, lines_of_splitWhere hfirst hends,
      lines_of_splitWhere hsecond hb, if_pos rfl, List.append_nil, List.append_assoc]

end Text

namespace OptionLine

/-! ### Columns of descriptions -/

/-- A description begins behind the flags. -/
theorem column_pos {line : Text} {l : OptionLine} (h : read? line = some l) :
    ∀ d ∈ l.description, 0 < d.1 := by
  intro d hd
  obtain ⟨rest, r, hbody, hread, hafter, hends, hdescription⟩ := exists_of_read? h
  rw [Option.mem_def.1 hd, eq_comm, Option.map_eq_some_iff] at hdescription
  obtain ⟨text, htext, rfl⟩ := hdescription
  have hstop := (stop_of_reading? hread).2
  rw [htext, hafter] at hstop
  have htextle := (exists_of_description? hstop).1.length_le
  have hflags := hends.length_lt
  have hlinele := (List.dropWhile_suffix (l := line) isMargin).length_le
  rw [hbody, List.length_append] at hlinele
  have hbefore : 0 < (before line text).length := by
    rw [before, List.length_take]
    rw [List.length_nil] at hflags
    omega
  refine Nat.lt_of_lt_of_le hbefore ?_
  rw [← Nat.zero_add (List.length _)]
  exact le_columnAfter 0 _

end OptionLine

namespace Page

open OptionLine

/-! ### The layout of two sections -/

/-- Lines below an option are indented, but for blank ones. -/
theorem Below.pos {line : Text} {l : OptionLine} (hread : read? line = some l) {body : List Text}
    (h : Below l body) : ∀ line ∈ body, Text.isAllBlank line = false → 0 < indentOf line := by
  intro line' hline' hblank
  cases h with
  | nil => exact absurd hline' List.not_mem_nil
  | inline hd hdeep =>
    exact Nat.lt_of_lt_of_le (column_pos hread _ hd) (hdeep.deep line' hline' hblank)
  | under hd hbegins hdeep =>
    rcases List.mem_cons.1 hline' with rfl | hline'
    · exact Nat.zero_lt_of_lt hbegins.deeper
    · exact Nat.lt_of_lt_of_le (Nat.zero_lt_of_lt hbegins.deeper) (hdeep.deep line' hline' hblank)

/-- Whether lines begin with one that is neither blank nor indented. -/
def OpensSection (lines : List Text) : Prop :=
  ∀ line ∈ lines.head?, Text.isAllBlank line = false ∧ indentOf line = 0

/-- The lines below an option stay the same if a section follows. -/
theorem Longest.before_section {line : Text} {l : OptionLine} (hread : read? line = some l)
    {body rest next : List Text} (h : Longest (Below l) body rest)
    (hsection : OpensSection next) : Longest (Below l) body (rest ++ next) := by
  refine ⟨h.holds, fun more hne hmore hbelow => ?_⟩
  rcases List.prefix_or_prefix_of_prefix hmore (List.prefix_append rest next) with
    hmore' | ⟨others, rfl⟩
  · exact h.stops more hne hmore' hbelow
  · cases others with
    | nil => exact h.stops _ hne (by rw [List.append_nil]) hbelow
    | cons first others =>
      obtain ⟨after, hafter⟩ := (List.prefix_append_right_inj rest).1 hmore
      obtain ⟨hblank, hindent⟩ := hsection first (by rw [← hafter]; rfl)
      have hpos := hbelow.pos hread first (by simp) hblank
      omega

/-- **The layout of two sections** is that of the one, and then that of the other. -/
theorem Listing.append {lines lines' : List Text} {blocks blocks' : List Block}
    (h : Listing lines blocks) (h' : Listing lines' blocks') (hsection : OpensSection lines') :
    Listing (lines ++ lines') (blocks ++ blocks') := by
  induction h with
  | nil => exact h'
  | prose hread _ ih => exact Listing.prose hread ih
  | @option line l body rest blocks hread hbody _ ih =>
    rw [List.cons_append, List.append_assoc]
    exact Listing.option hread (hbody.before_section hread hsection) ih

/-- Two sections are scanned one after the other. -/
theorem scan_append {lines lines' : List Text} (hsection : OpensSection lines') :
    scan none (lines ++ lines') = scan none lines ++ scan none lines' := by
  obtain ⟨blocks, h, hscan⟩ := exists_listing lines
  obtain ⟨blocks', h', hscan'⟩ := exists_listing lines'
  rw [(h.append h' hsection).scan_eq, hscan, hscan', List.map_append]

/-! ### The descriptions of two sections -/

def firstDescription? (es : List OptionEntry) : Option Text :=
  (es.find? fun e => !e.description.isEmpty).map OptionEntry.description

/-- An entry with a description for want of its own, if there is one. -/
def completed (description : Option Text) (e : OptionEntry) : OptionEntry :=
  if e.description.isEmpty then { e with description := description.getD [] } else e

theorem flags_completed (description : Option Text) (e : OptionEntry) :
    (completed description e).flags = e.flags := by
  unfold completed
  split <;> rfl

theorem firstDescription?_cons (e : OptionEntry) (es : List OptionEntry) :
    firstDescription? (e :: es)
      = if e.description.isEmpty then firstDescription? es else some e.description := by
  unfold firstDescription?
  rw [List.find?_cons]
  cases e.description.isEmpty <;> rfl

theorem firstDescription?_append (es es' : List OptionEntry) :
    firstDescription? (es ++ es') = (firstDescription? es).or (firstDescription? es') := by
  unfold firstDescription?
  rw [List.find?_append, Option.map_or]

theorem firstDescription?_ne_nil (es : List OptionEntry) : firstDescription? es ≠ some [] := by
  intro h
  obtain ⟨e, hfind, hnil⟩ := Option.map_eq_some_iff.1 h
  have hsome := List.find?_some hfind
  simp [hnil] at hsome

/-- Descriptions are filled in from the entries after an entry. -/
theorem backfill_cons (e : OptionEntry) (es : List OptionEntry) :
    backfill (e :: es) = completed (firstDescription? es) e :: backfill es := by
  rw [backfill]
  congr 1
  unfold completed firstDescription?
  split
  · rename_i hempty
    cases es.find? fun later => !later.description.isEmpty with
    | some later => rfl
    | none => exact congrArg (OptionEntry.mk e.flags) (List.isEmpty_iff.1 hempty)
  · rfl

/-- What was filled in first stays, and what could not be filled in is filled in afterwards. -/
theorem completed_completed {description : Option Text} (h : description ≠ some [])
    (description' : Option Text) (e : OptionEntry) :
    completed description' (completed description e)
      = completed (description.or description') e := by
  unfold completed
  cases hempty : e.description.isEmpty with
  | false => simp [hempty]
  | true =>
    cases description with
    | none => simp
    | some text =>
      have htext : text ≠ [] := fun hnil => h (congrArg some hnil)
      simp [htext]

/-- Filling in leaves the first description as it is. -/
theorem firstDescription?_backfill (es : List OptionEntry) :
    firstDescription? (backfill es) = firstDescription? es := by
  induction es with
  | nil => rfl
  | cons e es ih =>
    rw [backfill_cons, firstDescription?_cons, firstDescription?_cons, ih]
    unfold completed
    cases hempty : e.description.isEmpty with
    | false => simp [hempty]
    | true =>
      have hne := firstDescription?_ne_nil es
      cases hfirst : firstDescription? es with
      | none => simp
      | some text =>
        have htext : text ≠ [] := fun hnil => hne (hfirst.trans (congrArg some hnil))
        simp [htext]

/-- **The descriptions of two sections** are filled in in each of them; those that are still missing
in the first one are filled in from the second. -/
theorem backfill_append (es es' : List OptionEntry) :
    backfill (es ++ es')
      = (backfill es).map (completed (firstDescription? es')) ++ backfill es' := by
  induction es with
  | nil => rfl
  | cons e es ih =>
    rw [List.cons_append, backfill_cons, ih, backfill_cons, firstDescription?_append,
      ← completed_completed (firstDescription?_ne_nil es)]
    rfl

/-! ### The entries of two sections -/

/-- A text that begins with a character opens a section with its first line. -/
theorem opensSection_lines {b : Text} (hreturn : '\r' ∉ b)
    (hb : ∃ c ∈ b.head?, Text.isBlank c = false) : OpensSection (Text.lines b) := by
  obtain ⟨c, hhead, hc⟩ := hb
  obtain ⟨cs, rfl⟩ := List.head?_eq_some_iff.1 hhead
  have hfeed : (c == '\n') = false := by
    rw [beq_eq_false_iff_ne]
    rintro rfl
    exact absurd hc (by decide)
  obtain ⟨piece, hline⟩ := Text.exists_head?_lines hreturn hfeed
  rintro line hmem
  rw [hline] at hmem
  obtain rfl := Option.some.inj hmem
  constructor
  · rw [Text.isAllBlank, List.all_cons, hc, Bool.false_and]
  · rw [indentOf, List.takeWhile_cons_of_neg (by simp [hc])]
    rfl

/-- **Sections are read one by one.** Let a text without escapes, backspaces and carriage returns be
followed by another one, on a line of its own that is not blank and not indented. Then the entries
of both together are those of the one and then those of the other: with the same flags, and with the
same descriptions, but that entries left without one by the first text have the first there is in
the second. -/
theorem entries_append {a b : Text} (hescape : '\x1b' ∉ a ++ b) (hbackspace : backspace ∉ a ++ b)
    (hreturn : '\r' ∉ a ++ b) (ha : a = [] ∨ a.getLast? = some '\n')
    (hb : ∃ c ∈ b.head?, Text.isBlank c = false) :
    (entries {} (a ++ b)).map OptionEntry.flags
        = (entries {} a).map OptionEntry.flags ++ (entries {} b).map OptionEntry.flags ∧
      entries {} (a ++ b)
        = (entries {} a).map (completed (firstDescription? (entries {} b))) ++ entries {} b := by
  have hclean {text : Text} (h : text ⊆ a ++ b) : clean text = text := by
    rw [clean_of_not_mem (fun hc => hescape (h hc)) (fun hc => hbackspace (h hc)),
      unifyLineEnds_of_not_mem fun hc => hreturn (h hc)]
  have hsection : OpensSection (Text.lines b) :=
    opensSection_lines (fun hc => hreturn (List.mem_append_right a hc)) hb
  have hentries : entries {} (a ++ b)
      = (entries {} a).map (completed (firstDescription? (entries {} b))) ++ entries {} b := by
    rw [entries_default, entries_default, entries_default, hclean (List.Subset.refl _),
      hclean (List.subset_append_left a b), hclean (List.subset_append_right a b),
      Text.lines_append hreturn ha, scan_append hsection, backfill_append,
      firstDescription?_backfill]
  refine ⟨?_, hentries⟩
  rw [hentries, List.map_append, List.map_map]
  congr 1
  exact List.map_congr_left fun e _ => flags_completed _ e

/-- A section with an option that is not described. -/
def quietSection : Text := "Messages:\n  -q, --quiet\n".toList

def outputSection : Text := "Results:\n  -o FILE  write to FILE\n".toList

/-- The description passes to the section before. -/
theorem entries_append_sample :
    entries {} (quietSection ++ outputSection)
      = (entries {} quietSection).map (completed (some "write to FILE".toList))
        ++ entries {} outputSection := by
  have hfirst : firstDescription? (entries {} outputSection) = some "write to FILE".toList := by
    decide +kernel
  have hentries : entries {} (quietSection ++ outputSection)
      = (entries {} quietSection).map (completed (firstDescription? (entries {} outputSection)))
        ++ entries {} outputSection :=
    (entries_append (by decide +kernel) (by decide +kernel) (by decide +kernel)
      (Or.inr (by decide +kernel)) ⟨'R', rfl, rfl⟩).2
  rwa [hfirst] at hentries

end Page

end CommandGrammar
