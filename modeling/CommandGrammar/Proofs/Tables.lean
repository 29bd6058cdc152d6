import CommandGrammar.Help.Table
import CommandGrammar.Proofs.Rows

/-!
# Tables list what they show

The table of the entries of a page is a page again. Its rows stand for one entry each, and as the
rows are option lines without deeper lines between them, the entries read from it are the ones it
shows. Flags that are not read as before in a row make the only difference (`entries_table_ne`).

* `from_of_mem_scan`: entries come from the lines of a page, by induction along the scan;
* `backfill_backfill`: no description is left to fill in;
* `scan_rows`: rows are scanned one by one;
* `lines_clean_tableOf`: the lines of a table are its rows;
* `entries_table`: the table of what a page lists, lists the same.
-/

namespace CommandGrammar

open OptionLine

/-! ### Where entries come from -/

/-- An entry in progress has the flags of an option line and parts of lines. -/
structure OpenEntry.From (lines : List Text) (e : OpenEntry) : Prop where
  flags : ∃ line ∈ lines, ∃ l, read? line = some l ∧ e.flags = l.flags
  parts : ∀ part ∈ e.parts, (part ≠ [] ∧ Text.trim part = part) ∧ ∃ line ∈ lines, part ⊆ line

/-- An entry has the flags of an option line and a description from lines. -/
structure OptionEntry.From (lines : List Text) (e : OptionEntry) : Prop where
  flags : ∃ line ∈ lines, ∃ l, read? line = some l ∧ e.flags = commas l.flags
  trimmed : Text.trim e.description = e.description
  description : ∀ c ∈ e.description, c = ' ' ∨ ∃ line ∈ lines, c ∈ line

namespace OpenEntry

variable {lines : List Text}

theorem from_ofLine {line : Text} (hline : line ∈ lines) {l : OptionLine}
    (h : read? line = some l) : From lines (ofLine l) where
  flags := ⟨line, hline, l, h, rfl⟩
  parts := by
    intro part hpart
    obtain ⟨rest, r, hbody, hread, hafter, -, hdescription⟩ := exists_of_read? h
    obtain ⟨⟨column, _⟩, hd, rfl⟩ := Option.map_eq_some_iff.1 (Option.mem_toList.1 hpart)
    rw [hd, eq_comm, Option.map_eq_some_iff] at hdescription
    obtain ⟨text, htext, heq⟩ := hdescription
    obtain ⟨-, rfl⟩ := Prod.mk.inj heq
    have hstop := (stop_of_reading? hread).2
    rw [htext, hafter] at hstop
    obtain ⟨hsuffix, c, tail, hcons, hc⟩ := exists_of_description? hstop
    refine ⟨⟨?_, Text.trim_trim text⟩, line, hline, ?_⟩
    · rw [Ne, Text.trim_eq_nil_iff, hcons, Text.isAllBlank, List.all_cons, hc]
      exact Bool.false_ne_true
    · intro d hd
      refine (List.dropWhile_suffix isMargin).subset ?_
      rw [hbody]
      exact List.mem_append_right _ (hsuffix.subset (Text.mem_of_mem_trim hd))

/-- A line that an entry goes on with adds a part to it or nothing. -/
theorem From.extend? {e e' : OpenEntry} (h : From lines e) {line : Text} (hline : line ∈ lines)
    {rest : List Text} (hext : e.extend? line rest = some e') : From lines e' := by
  unfold OpenEntry.extend? at hext
  split at hext
  · split at hext
    · rw [← Option.some.inj hext]
      exact h
    · exact absurd hext (Option.some_ne_none e').symm
  · rename_i hblank
    obtain ⟨column, -, rfl⟩ := Option.map_eq_some_iff.1 hext
    refine ⟨h.flags, List.forall_mem_append.2 ⟨h.parts, List.forall_mem_singleton.2 ?_⟩⟩
    have hne : Text.trim line ≠ [] := mt (Text.trim_eq_nil_iff line).1 hblank
    exact ⟨⟨hne, Text.trim_trim line⟩, line, hline, fun _ => Text.mem_of_mem_trim⟩

theorem From.close {e : OpenEntry} (h : From lines e) : e.close.From lines where
  flags := by
    obtain ⟨line, hline, l, hread, hflags⟩ := h.flags
    exact ⟨line, hline, l, hread, congrArg commas hflags⟩
  trimmed := Text.trim_joinWith fun part hpart => (h.parts part hpart).1
  description := by
    intro c hc
    rcases Text.mem_of_mem_joinWith hc with hc | ⟨part, hpart, hc⟩
    · exact Or.inl (List.mem_singleton.1 hc)
    · obtain ⟨-, line, hline, hsub⟩ := h.parts part hpart
      exact Or.inr ⟨line, hline, hsub hc⟩

end OpenEntry

namespace Page

variable {lines : List Text}

theorem from_of_mem_closed {current : Option OpenEntry} (h : ∀ e ∈ current, e.From lines) :
    ∀ e ∈ closed current, e.From lines := by
  intro e he
  obtain ⟨o, ho, rfl⟩ := Option.map_eq_some_iff.1 (Option.mem_toList.1 he)
  exact (h o ho).close

/-- Whatever lines are scanned, entries have the flags of option lines and descriptions from
lines. -/
theorem from_of_mem_scan {rest : List Text} (hrest : rest ⊆ lines) {current : Option OpenEntry}
    (h : ∀ e ∈ current, e.From lines) : ∀ e ∈ scan current rest, e.From lines := by
  induction rest generalizing current with
  | nil => exact from_of_mem_closed h
  | cons line rest ih =>
    obtain ⟨hline, hrest⟩ := List.cons_subset.1 hrest
    rw [scan]
    split
    · rename_i e' hext
      obtain ⟨e, he, hext⟩ := Option.bind_eq_some_iff.1 hext
      refine ih hrest ?_
      rintro _ ⟨⟩
      exact (h e he).extend? hline hext
    · refine List.forall_mem_append.2 ⟨from_of_mem_closed h, ih hrest ?_⟩
      intro e he
      obtain ⟨l, hread, rfl⟩ := Option.map_eq_some_iff.1 he
      exact OpenEntry.from_ofLine hline hread

/-! ### Descriptions from other entries -/

theorem exists_of_mem_backfill {es : List OptionEntry} {e : OptionEntry} (h : e ∈ backfill es) :
    ∃ e₁ ∈ es, ∃ e₂ ∈ es, e = ⟨e₁.flags, e₂.description⟩ := by
  induction es with
  | nil => exact absurd h List.not_mem_nil
  | cons first es ih =>
    rcases List.mem_cons.1 h with rfl | h
    · split
      · split
        · rename_i later hfind
          exact ⟨first, List.mem_cons_self, later,
            List.mem_cons_of_mem first (List.mem_of_find?_eq_some hfind), rfl⟩
        · exact ⟨first, List.mem_cons_self, first, List.mem_cons_self, rfl⟩
      · exact ⟨first, List.mem_cons_self, first, List.mem_cons_self, rfl⟩
    · obtain ⟨e₁, h₁, e₂, h₂, rfl⟩ := ih h
      exact ⟨e₁, List.mem_cons_of_mem first h₁, e₂, List.mem_cons_of_mem first h₂, rfl⟩

theorem backfill_backfill (es : List OptionEntry) : backfill (backfill es) = backfill es := by
  induction es with
  | nil => rfl
  | cons e es ih =>
    rw [backfill, backfill, ih]
    refine congrArg (· :: backfill es) ?_
    cases hempty : e.description.isEmpty with
    | false => simp [hempty]
    | true =>
      cases hfind : es.find? (fun later => !later.description.isEmpty) with
      | some later =>
        have hlater := List.find?_some hfind
        simp_all
      | none =>
        have hnone : (backfill es).find? (fun later => !later.description.isEmpty) = none := by
          rw [List.find?_eq_none] at hfind ⊢
          intro e' he'
          obtain ⟨-, -, e₂, he₂, rfl⟩ := exists_of_mem_backfill he'
          exact hfind e₂ he₂
        simp [hempty, hnone]

theorem entries_default (text : Text) :
    entries {} text = backfill (scan none (Text.lines (clean text))) := rfl

/-- What a page lists comes from its lines. -/
theorem from_of_mem_entries {text : Text} {e : OptionEntry} (h : e ∈ entries {} text) :
    e.From (Text.lines (clean text)) := by
  obtain ⟨e₁, h₁, e₂, h₂, rfl⟩ := exists_of_mem_backfill h
  have hfrom : ∀ e ∈ scan none (Text.lines (clean text)), e.From (Text.lines (clean text)) :=
    from_of_mem_scan (List.Subset.refl _) fun _ he => nomatch he
  exact ⟨(hfrom e₁ h₁).flags, (hfrom e₂ h₂).trimmed, (hfrom e₂ h₂).description⟩

/-! ### Scanning rows -/

/-- A row does not go on with the description of the row before it. -/
theorem extend?_rowLine {o : OpenEntry} (hindent : o.indent = 2) (hcolumn : ∀ n ∈ o.column, 2 < n)
    {e : OptionEntry} (h : Shown e) (width : Nat) (rest : List Text) :
    o.extend? (rowLine width e) rest = none := by
  obtain ⟨hdepth, hblank⟩ := indentOf_rowLine h width
  have htakes : o.takes? (rowLine width e) = none := by
    unfold OpenEntry.takes?
    dsimp only
    rw [hdepth, hindent]
    split
    · rename_i n hn
      exact if_neg (Nat.not_le.2 (hcolumn n hn))
    · rfl
  unfold OpenEntry.extend?
  rw [hblank, if_neg Bool.false_ne_true, htakes]
  rfl

/-- **Every row opens an entry of its own, which is the one it shows.** -/
theorem scan_rows {es : List OptionEntry} (h : ∀ e ∈ es, Shown e) (width : Nat)
    {current : Option OpenEntry}
    (hcurrent : ∀ o ∈ current, o.indent = 2 ∧ ∀ n ∈ o.column, 2 < n) :
    scan current (es.map (rowLine width)) = closed current ++ es := by
  induction es generalizing current with
  | nil => exact (List.append_nil _).symm
  | cons e es ih =>
    obtain ⟨he, hes⟩ := List.forall_mem_cons.1 h
    obtain ⟨l, hread, hindent, hclose, hcolumn⟩ := read?_rowLine he width
    have hext : current.bind (fun o => o.extend? (rowLine width e) (es.map (rowLine width)))
        = none := by
      rw [Option.bind_eq_none_iff]
      exact fun o ho => extend?_rowLine (hcurrent o ho).1 (hcurrent o ho).2 he width _
    have hopened : opened (rowLine width e) = some (OpenEntry.ofLine l) := by
      unfold opened
      rw [hread]
      rfl
    have hnext : ∀ o ∈ some (OpenEntry.ofLine l), o.indent = 2 ∧ ∀ n ∈ o.column, 2 < n := by
      rintro _ ⟨⟩
      refine ⟨hindent, fun n hn => ?_⟩
      obtain ⟨d, hd, rfl⟩ := Option.map_eq_some_iff.1 hn
      exact hcolumn d hd
    rw [List.map_cons, scan, hext]
    show closed current ++ scan (opened (rowLine width e)) (es.map (rowLine width)) = _
    rw [hopened, ih hes hnext]
    show closed current ++ ([(OpenEntry.ofLine l).close] ++ es) = _
    rw [hclose]
    rfl

/-! ### Tables -/

theorem entries_tableOf (es : List OptionEntry) :
    OutputFormat.entries .table es = OutputFormat.tableOf es := rfl

/-- A character that cleaning a page leaves in its lines. -/
def IsPlain (c : Char) : Prop := c ≠ '\n' ∧ c ≠ '\r' ∧ c ≠ '\x1b' ∧ c ≠ backspace

theorem isPlain_of_mem_line {text : Text} (hescape : '\x1b' ∉ text) (hbackspace : backspace ∉ text)
    {line : Text} (hline : line ∈ Text.lines (clean text)) {c : Char} (hc : c ∈ line) :
    IsPlain c := by
  obtain ⟨hmem, hfeed⟩ := Text.mem_of_mem_lines hline hc
  rw [clean_of_not_mem hescape hbackspace] at hmem
  obtain ⟨hreturn, hmem⟩ := mem_of_mem_unifyLineEnds hmem
  have htext : c ∈ text := hmem.resolve_left hfeed
  refine ⟨hfeed, hreturn, ?_, ?_⟩
  · rintro rfl
    exact hescape htext
  · rintro rfl
    exact hbackspace htext

theorem isPlain_of_mem_rowLine {lines : List Text} (hplain : ∀ line ∈ lines, ∀ c ∈ line, IsPlain c)
    {e : OptionEntry} (h : e.From lines) {width : Nat} {c : Char} (hc : c ∈ rowLine width e) :
    IsPlain c := by
  have hspace : IsPlain ' ' := by
    unfold IsPlain
    decide
  simp only [rowLine, List.mem_append] at hc
  rcases hc with (((hc | hc) | hc) | hc) | hc
  · rw [Text.mem_spaces hc]
    exact hspace
  · obtain ⟨line, hline, l, hread, hflags⟩ := h.flags
    rw [hflags] at hc
    rcases Text.mem_of_mem_replaceAll hc with hc | hc
    · rcases List.mem_pair.1 hc with rfl | rfl
      · unfold IsPlain
        decide
      · exact hspace
    · obtain ⟨rest, r, hbody, -⟩ := exists_of_read? hread
      refine hplain line hline c ((List.dropWhile_suffix isMargin).subset ?_)
      rw [hbody]
      exact List.mem_append_left rest hc
  · rw [Text.mem_spaces hc]
    exact hspace
  · rw [Text.mem_spaces hc]
    exact hspace
  · rcases h.description c hc with rfl | ⟨line, hline, hc⟩
    · exact hspace
    · exact hplain line hline c hc

/-- The lines of a table are its rows. -/
theorem lines_clean_tableOf {es : List OptionEntry}
    (h : ∀ e ∈ es, ∀ c ∈ rowLine (OutputFormat.flagWidth es) e, IsPlain c) :
    Text.lines (clean (OutputFormat.tableOf es))
      = es.map (rowLine (OutputFormat.flagWidth es)) := by
  have htable : OutputFormat.tableOf es
      = (es.map (rowLine (OutputFormat.flagWidth es))).flatMap (· ++ ['\n']) := by
    rw [List.flatMap_map]
    rfl
  have hmem : ∀ c ∈ OutputFormat.tableOf es, c = '\n' ∨ IsPlain c := by
    intro c hc
    rw [htable, List.flatMap_map, List.mem_flatMap] at hc
    obtain ⟨e, he, hc⟩ := hc
    rcases List.mem_append.1 hc with hc | hc
    · exact Or.inr (h e he c hc)
    · exact Or.inl (List.mem_singleton.1 hc)
  have hnot (c : Char) (hfeed : c ≠ '\n') (hplain : ¬ IsPlain c) : c ∉ OutputFormat.tableOf es :=
    fun hc => (hmem c hc).elim hfeed hplain
  rw [clean_of_not_mem (hnot _ (by decide) fun hp => hp.2.2.1 rfl)
      (hnot _ (by decide) fun hp => hp.2.2.2 rfl),
    unifyLineEnds_of_not_mem (hnot _ (by decide) fun hp => hp.2.1 rfl), htable]
  refine Text.lines_flatMap fun row hrow => ?_
  obtain ⟨e, he, rfl⟩ := List.mem_map.1 hrow
  exact ⟨fun hc => (h e he _ hc).1 rfl, fun hc => (h e he _ hc).2.1 rfl⟩

/-- **The table of what a page lists, read as a page, lists the same**, if its flags are rid of the
words between spellings, and if behind a joined bracket no such word stands next to another gap and
no bracket is closed only in the description. -/
theorem entries_table {text : Text} (hescape : '\x1b' ∉ text) (hbackspace : backspace ∉ text)
    (hcommas : ∀ e ∈ entries {} text, ¬ orWord <:+: e.flags)
    (hwords : ∀ line ∈ Text.lines (clean text), ∀ l ∈ read? line, WordsApart l.flags)
    (hbrackets : ∀ e ∈ entries {} text, BracketsApart e) :
    entries {} (OutputFormat.entries .table (entries {} text)) = entries {} text := by
  have hplain : ∀ e ∈ entries {} text,
      ∀ c ∈ rowLine (OutputFormat.flagWidth (entries {} text)) e, IsPlain c :=
    fun e he c hc => isPlain_of_mem_rowLine
      (fun line hline c => isPlain_of_mem_line hescape hbackspace hline) (from_of_mem_entries he) hc
  have hshown : ∀ e ∈ entries {} text, Shown e := by
    intro e he
    have hfrom := from_of_mem_entries he
    obtain ⟨line, hline, l, hread, hflags⟩ := hfrom.flags
    obtain ⟨rest, r, -, hreading, hafter, hends, -⟩ := exists_of_read? hread
    exact ⟨⟨l.flags, rest, r, hflags, hends, hwords line hline l hread, hreading, hafter⟩,
      hcommas e he, hfrom.trimmed, hbrackets e he⟩
  have hnone : ∀ o ∈ (none : Option OpenEntry), o.indent = 2 ∧ ∀ n ∈ o.column, 2 < n :=
    fun _ ho => nomatch ho
  have hscan : entries {} (OutputFormat.tableOf (entries {} text))
      = backfill (entries {} text) := by
    rw [entries_default (OutputFormat.tableOf _), lines_clean_tableOf hplain,
      scan_rows hshown _ hnone]
    rfl
  rw [entries_tableOf, hscan, entries_default, backfill_backfill]

/-- A page of four options: two of them have one description, and one has a joined bracket. -/
def samplePage : Text :=
  ("  -q or --quiet\n  -s, --silent   say nothing\n  -o FILE\n      write to FILE\n" ++
    "  --size=1<KB>  at most <KB>\n").toList

theorem entries_table_sample :
    ('\x1b' ∉ samplePage ∧ backspace ∉ samplePage ∧
        (∀ e ∈ entries {} samplePage, ¬ orWord <:+: e.flags) ∧
        (∀ line ∈ Text.lines (clean samplePage), ∀ l ∈ read? line, WordsApart l.flags) ∧
        ∀ e ∈ entries {} samplePage, BracketsApart e) ∧
      entries {} (OutputFormat.entries .table (entries {} samplePage)) = entries {} samplePage := by
  have hescape : '\x1b' ∉ samplePage := by decide +kernel
  have hbackspace : backspace ∉ samplePage := by decide +kernel
  have hcommas : ∀ e ∈ entries {} samplePage, ¬ orWord <:+: e.flags := by decide +kernel
  have hwords : ∀ line ∈ Text.lines (clean samplePage), ∀ l ∈ read? line, WordsApart l.flags := by
    decide +kernel
  have hopening : ∀ e ∈ entries {} samplePage, '[' ∉ behindJoined e.flags ∧
      '<' ∉ behindJoined e.flags ∧ '\x7b' ∉ behindJoined e.flags := by decide +kernel
  have hbrackets : ∀ e ∈ entries {} samplePage, BracketsApart e := by
    intro e he opening closing hb _ after hsuffix
    obtain ⟨hsquare, hangle, hcurly⟩ := hopening e he
    have hmem : opening ∈ behindJoined e.flags := hsuffix.subset List.mem_cons_self
    cases hb with
    | square => exact absurd hmem hsquare
    | angle => exact absurd hmem hangle
    | curly => exact absurd hmem hcurly
  exact ⟨⟨hescape, hbackspace, hcommas, hwords, hbrackets⟩,
    entries_table hescape hbackspace hcommas hwords hbrackets⟩

/-- A page with an option whose description closes a bracket that its flags leave open. -/
def bracketPage : Text := "  -x=<a [b>  foo\n             bar]\n".toList

/-- In a row, where the description stands behind the flags in full, it closes the bracket. -/
theorem entries_table_ne :
    '\x1b' ∉ bracketPage ∧ backspace ∉ bracketPage ∧
      entries {} bracketPage = [⟨"-x=<a [b>".toList, "foo bar]".toList⟩] ∧
      entries {} (OutputFormat.entries .table (entries {} bracketPage))
        = [⟨"-x=<a [b>  foo bar]".toList, []⟩] ∧
      entries {} (OutputFormat.entries .table (entries {} bracketPage))
        ≠ entries {} bracketPage := by
  decide +kernel

end Page

end CommandGrammar
