import CommandGrammar.Proofs.EntryDescriptors

/-!
# The layout of a listing

A listing is scanned with an entry in hand and a look ahead over blank lines. What comes of it can
be said without either: prose stands alone, and an option line has as many of the lines after it as
can all be below it, the last of them not blank. Lines are below an option if they are at least as
deep as its description, which begins on its line, or else on the next one, if that is deeper than
the option and lists none itself.

Only for that next line is it asked whether it lists an option. Any other option line that is deep
enough is a line of the description, and no entry comes of it (`option_line_in_description`).

* `survivesBlank_iff`: the look ahead over blank lines;
* `scan_deep`, `scan_below`: the lines of one description;
* `exists_listing`, `Listing.unique`: every page has exactly one layout, which the scan follows;
* `own_entries`: what that says about option lines.
-/

namespace CommandGrammar

namespace Page

open OptionLine

/-! ### As many lines as possible -/

/-- Whether a statement holds of some lines but of no more of those after them. -/
structure Longest (P : List Text → Prop) (body rest : List Text) : Prop where
  holds : P body
  stops : ∀ more, more ≠ [] → more <+: rest → ¬ P (body ++ more)

/-- There is one way to take as many lines as possible. -/
theorem Longest.unique {P : List Text → Prop} {body rest body' rest' : List Text}
    (h : Longest P body rest) (h' : Longest P body' rest') (heq : body ++ rest = body' ++ rest') :
    body = body' ∧ rest = rest' := by
  rcases List.append_eq_append_iff.1 heq with ⟨more, rfl, rfl⟩ | ⟨more, rfl, rfl⟩
  · by_cases hmore : more = []
    · simp [hmore]
    · exact absurd h'.holds (h.stops more hmore (List.prefix_append _ _))
  · by_cases hmore : more = []
    · simp [hmore]
    · exact absurd h.holds (h'.stops more hmore (List.prefix_append _ _))

/-! ### Lines below an option -/

/-- Whether lines are as deep as a column, but for blank ones, and the last of them is not blank. -/
structure Deep (column : Nat) (lines : List Text) : Prop where
  deep : ∀ line ∈ lines, Text.isAllBlank line = false → column ≤ indentOf line
  ends : ∀ line ∈ lines.getLast?, Text.isAllBlank line = false

/-- Whether the description of an option may begin on the line after it. -/
structure Begins (l : OptionLine) (line : Text) : Prop where
  notBlank : Text.isAllBlank line = false
  deeper : l.indent < indentOf line
  prose : read? line = none

/-- Whether the lines after an option describe it. -/
inductive Below (l : OptionLine) : List Text → Prop
  | nil : Below l []
  /-- The description begins on the line of the option. -/
  | inline {column : Nat} {text : Text} {body : List Text} (h : l.description = some (column, text))
      (hdeep : Deep column body) : Below l body
  /-- The description begins on the next line. -/
  | under {line : Text} {body : List Text} (h : l.description = none) (hbegins : Begins l line)
      (hdeep : Deep (indentOf line) body) : Below l (line :: body)

/-- An option and the lines that describe it. -/
structure Block where
  option : OptionLine
  body : List Text
deriving DecidableEq, Repr

/-- No lines are as deep as any column. -/
theorem deep_nil (column : Nat) : Deep column [] := ⟨nofun, nofun⟩

/-- A line before others that are deep has to be deep, and not the last one if it is blank. -/
theorem deep_cons_iff {column : Nat} {line : Text} {lines : List Text} :
    Deep column (line :: lines) ↔
      (Text.isAllBlank line = false → column ≤ indentOf line) ∧
        (Text.isAllBlank line = true → lines ≠ []) ∧ Deep column lines := by
  constructor
  · rintro ⟨hdeep, hends⟩
    obtain ⟨hline, hdeep⟩ := List.forall_mem_cons.1 hdeep
    refine ⟨hline, ?_, hdeep, fun last hlast => hends last ?_⟩
    · rintro hblank rfl
      exact absurd (hends line rfl) (by simp [hblank])
    · rw [List.getLast?_cons, Option.mem_def.1 hlast]
      rfl
  · rintro ⟨hline, hmore, hdeep, hends⟩
    refine ⟨List.forall_mem_cons.2 ⟨hline, hdeep⟩, ?_⟩
    cases lines with
    | nil =>
      rintro last ⟨⟩
      exact Bool.eq_false_iff.2 fun hblank => hmore hblank rfl
    | cons next lines => exact hends

/-- Whether a description with some column takes a line of those that follow. -/
def GoesOn (column : Nat) (lines : List Text) : Prop :=
  ∃ more, more ≠ [] ∧ more <+: lines ∧ Deep column more

theorem not_goesOn_nil (column : Nat) : ¬ GoesOn column [] := by
  rintro ⟨more, hne, hmore, -⟩
  exact hne (List.prefix_nil.1 hmore)

/-- A line with anything on it is taken if it is deep enough, and a blank one if another line is. -/
theorem goesOn_cons_iff {column : Nat} {line : Text} {lines : List Text} :
    GoesOn column (line :: lines) ↔
      if Text.isAllBlank line then GoesOn column lines else column ≤ indentOf line := by
  cases hblank : Text.isAllBlank line with
  | true =>
    rw [if_pos rfl]
    constructor
    · rintro ⟨more, hne, hmore, hdeep⟩
      obtain ⟨first, more, rfl⟩ := List.exists_cons_of_ne_nil hne
      obtain ⟨rfl, hprefix⟩ := List.cons_prefix_cons.1 hmore
      obtain ⟨-, hne, hdeep⟩ := deep_cons_iff.1 hdeep
      exact ⟨more, hne hblank, hprefix, hdeep⟩
    · rintro ⟨more, hne, hmore, hdeep⟩
      exact ⟨line :: more, List.cons_ne_nil _ _, List.cons_prefix_cons.2 ⟨rfl, hmore⟩,
        deep_cons_iff.2 ⟨by simp [hblank], fun _ => hne, hdeep⟩⟩
  | false =>
    rw [if_neg Bool.false_ne_true]
    constructor
    · rintro ⟨more, hne, hmore, hdeep⟩
      obtain ⟨first, more, rfl⟩ := List.exists_cons_of_ne_nil hne
      obtain ⟨rfl, -⟩ := List.cons_prefix_cons.1 hmore
      exact (deep_cons_iff.1 hdeep).1 hblank
    · intro hdepth
      exact ⟨[line], List.cons_ne_nil _ _, List.prefix_append [line] lines,
        deep_cons_iff.2 ⟨fun _ => hdepth, by simp [hblank], deep_nil column⟩⟩

/-- Lines are the longest deep ones if the description does not go on after them. -/
theorem longest_nil_deep {column : Nat} {rest : List Text} (h : ¬ GoesOn column rest) :
    Longest (Deep column) [] rest :=
  ⟨deep_nil column, fun more hne hmore hdeep => h ⟨more, hne, hmore, hdeep⟩⟩

/-- A line that a description goes on with stands before the longest deep lines. -/
theorem longest_cons_deep {column : Nat} {line : Text} {body rest : List Text}
    (hgoes : GoesOn column (line :: (body ++ rest))) (h : Longest (Deep column) body rest) :
    Longest (Deep column) (line :: body) rest := by
  rw [goesOn_cons_iff] at hgoes
  refine ⟨deep_cons_iff.2 ⟨?_, ?_, h.holds⟩, fun more hne hmore hdeep => ?_⟩
  · intro hblank
    rwa [if_neg (by simp [hblank])] at hgoes
  · rintro hblank rfl
    rw [if_pos hblank] at hgoes
    obtain ⟨more, hne, hmore, hdeep⟩ := hgoes
    exact h.stops more hne hmore hdeep
  · exact h.stops more hne hmore (deep_cons_iff.1 hdeep).2.2

/-! ### Scanning one description -/

def partsOf (lines : List Text) : List Text :=
  (lines.filter fun line => !Text.isAllBlank line).map Text.trim

theorem partsOf_cons (line : Text) (lines : List Text) :
    partsOf (line :: lines) = partsOf [line] ++ partsOf lines := by
  rw [partsOf, partsOf, partsOf, ← List.map_append, ← List.filter_append]
  rfl

def withLines (e : OpenEntry) (lines : List Text) : OpenEntry :=
  { e with parts := e.parts ++ partsOf lines }

/-- With nothing in hand, the first line opens an entry if it lists an option. -/
theorem scan_none_cons (line : Text) (rest : List Text) :
    scan none (line :: rest) = scan (opened line) rest := rfl

/-- What is scanned after an entry that does not go on is scanned on its own. -/
theorem scan_of_extend?_eq_none {e : OpenEntry} {line : Text} {rest : List Text}
    (h : e.extend? line rest = none) :
    scan (some e) (line :: rest) = e.close :: scan none (line :: rest) := by
  rw [scan, Option.bind_some, h]
  rfl

theorem scan_of_extend? {e e' : OpenEntry} {line : Text} {rest : List Text}
    (h : e.extend? line rest = some e') : scan (some e) (line :: rest) = scan (some e') rest := by
  rw [scan, Option.bind_some, h]

/-- The look ahead over blank lines finds the line that a description goes on with. -/
theorem survivesBlank_iff {e : OpenEntry} {column : Nat} (hcolumn : e.column = some column)
    (lines : List Text) : e.survivesBlank lines = true ↔ GoesOn column lines := by
  unfold OpenEntry.survivesBlank
  rw [hcolumn]
  induction lines with
  | nil => exact iff_of_false Bool.false_ne_true (not_goesOn_nil column)
  | cons line lines ih =>
    rw [goesOn_cons_iff]
    cases hblank : Text.isAllBlank line with
    | false =>
      rw [List.dropWhile_cons_of_neg (by simp [hblank]), if_neg Bool.false_ne_true]
      exact decide_eq_true_iff
    | true => rw [List.dropWhile_cons_of_pos hblank, if_pos rfl, ih]

/-- An entry goes on with a line if its description takes it. -/
theorem extend?_eq_some {e : OpenEntry} {column : Nat} (hcolumn : e.column = some column)
    {line : Text} {rest : List Text} (h : GoesOn column (line :: rest)) :
    e.extend? line rest = some (withLines e [line]) := by
  rw [goesOn_cons_iff] at h
  unfold OpenEntry.extend? withLines partsOf
  cases hblank : Text.isAllBlank line with
  | true =>
    rw [if_pos hblank, ← survivesBlank_iff hcolumn] at h
    simp [h, hblank]
  | false =>
    rw [if_neg (by simp [hblank])] at h
    simp [OpenEntry.takes?, hcolumn, h, hblank]

theorem extend?_eq_none {e : OpenEntry} {column : Nat} (hcolumn : e.column = some column)
    {line : Text} {rest : List Text} (h : ¬ GoesOn column (line :: rest)) :
    e.extend? line rest = none := by
  rw [goesOn_cons_iff] at h
  unfold OpenEntry.extend?
  cases hblank : Text.isAllBlank line with
  | true =>
    rw [if_pos hblank, ← survivesBlank_iff hcolumn] at h
    simp [h]
  | false =>
    rw [if_neg (by simp [hblank])] at h
    simp [OpenEntry.takes?, hcolumn, h]

/-- **A description that has begun** takes as many lines as are deep enough. -/
theorem scan_deep {column : Nat} (lines : List Text) : ∀ {e : OpenEntry}, e.column = some column →
    ∃ body rest, lines = body ++ rest ∧ Longest (Deep column) body rest ∧
      scan (some e) lines = (withLines e body).close :: scan none rest := by
  induction lines with
  | nil =>
    intro e _
    refine ⟨[], [], rfl, longest_nil_deep (not_goesOn_nil column), ?_⟩
    simp [scan, closed, withLines, partsOf]
  | cons line lines ih =>
    intro e hcolumn
    by_cases hgoes : GoesOn column (line :: lines)
    · obtain ⟨body, rest, rfl, hlongest, hscan⟩ := ih (e := withLines e [line]) hcolumn
      refine ⟨line :: body, rest, rfl, longest_cons_deep hgoes hlongest, ?_⟩
      rw [scan_of_extend? (extend?_eq_some hcolumn hgoes), hscan]
      simp only [withLines, List.append_assoc, ← partsOf_cons]
    · refine ⟨[], line :: lines, rfl, longest_nil_deep hgoes, ?_⟩
      rw [scan_of_extend?_eq_none (extend?_eq_none hcolumn hgoes)]
      simp [withLines, partsOf]

def Block.entry (b : Block) : OptionEntry :=
  ⟨commas b.option.flags,
    Text.joinWith [' '] ((b.option.description.map Prod.snd).toList ++ partsOf b.body)⟩

theorem close_ofLine (l : OptionLine) : (OpenEntry.ofLine l).close = Block.entry ⟨l, []⟩ := by
  unfold OpenEntry.close Block.entry partsOf
  rw [List.filter_nil, List.map_nil, List.append_nil]
  rfl

/-- Below an option with a description of its own are the lines as deep as that. -/
theorem below_iff_deep {l : OptionLine} {column : Nat} {text : Text}
    (h : l.description = some (column, text)) (body : List Text) :
    Below l body ↔ Deep column body := by
  constructor
  · intro hbelow
    cases hbelow with
    | nil => exact deep_nil column
    | inline h' hdeep =>
      rw [h] at h'
      obtain ⟨rfl, -⟩ := Prod.mk.inj (Option.some.inj h')
      exact hdeep
    | under h' => exact absurd (h.symm.trans h') (Option.some_ne_none _)
  · exact Below.inline h

/-- Below an option without one, the first line decides. -/
theorem below_cons_iff {l : OptionLine} (h : l.description = none) (line : Text)
    (body : List Text) :
    Below l (line :: body) ↔ Begins l line ∧ Deep (indentOf line) body := by
  constructor
  · intro hbelow
    cases hbelow with
    | inline h' => exact absurd (h'.symm.trans h) (Option.some_ne_none _)
    | under _ hbegins hdeep => exact ⟨hbegins, hdeep⟩
  · rintro ⟨hbegins, hdeep⟩
    exact Below.under h hbegins hdeep

theorem extend?_of_begins {l : OptionLine} (h : l.description = none) {line : Text}
    (hbegins : Begins l line) (rest : List Text) :
    (OpenEntry.ofLine l).extend? line rest
      = some { OpenEntry.ofLine l with
          column := some (indentOf line), parts := partsOf [line] } := by
  obtain ⟨hblank, hdeeper, hprose⟩ := hbegins
  simp [OpenEntry.extend?, OpenEntry.takes?, OpenEntry.ofLine, partsOf, h, hblank, hdeeper, hprose]

theorem extend?_of_not_begins {l : OptionLine} (h : l.description = none) {line : Text}
    (hbegins : ¬ Begins l line) (rest : List Text) :
    (OpenEntry.ofLine l).extend? line rest = none := by
  unfold OpenEntry.extend?
  cases hblank : Text.isAllBlank line with
  | true => simp [OpenEntry.survivesBlank, OpenEntry.ofLine, h]
  | false =>
    have htakes : (OpenEntry.ofLine l).takes? line = none := by
      have hor : ¬ (l.indent < indentOf line ∧ read? line = none) := fun hand =>
        hbegins ⟨hblank, hand.1, hand.2⟩
      simpa [OpenEntry.takes?, OpenEntry.ofLine, h] using hor
    simp [htakes]

/-- **An option takes as many lines as there are below it.** -/
theorem scan_below (l : OptionLine) (lines : List Text) :
    ∃ body rest, lines = body ++ rest ∧ Longest (Below l) body rest ∧
      scan (some (OpenEntry.ofLine l)) lines = Block.entry ⟨l, body⟩ :: scan none rest := by
  cases hd : l.description with
  | some d =>
    obtain ⟨column, text⟩ := d
    have hcolumn : (OpenEntry.ofLine l).column = some column := by
      simp [OpenEntry.ofLine, hd]
    obtain ⟨body, rest, hsplit, hlongest, hscan⟩ := scan_deep lines hcolumn
    have hbelow : Below l = Deep column := funext fun body => propext (below_iff_deep hd body)
    exact ⟨body, rest, hsplit, hbelow ▸ hlongest, hscan⟩
  | none =>
    cases lines with
    | nil =>
      refine ⟨[], [], rfl, ⟨Below.nil, fun more hne hmore => ?_⟩, ?_⟩
      · exact absurd (List.prefix_nil.1 hmore) hne
      · rw [← close_ofLine]
        rfl
    | cons line lines =>
      by_cases hbegins : Begins l line
      · obtain ⟨body, rest, hsplit, hlongest, hscan⟩ := scan_deep lines
          (e := { OpenEntry.ofLine l with column := some (indentOf line), parts := partsOf [line] })
          rfl
        refine ⟨line :: body, rest, congrArg (line :: ·) hsplit, ⟨?_, fun more hne hmore => ?_⟩, ?_⟩
        · exact Below.under hd hbegins hlongest.holds
        · exact fun hbelow => hlongest.stops more hne hmore ((below_cons_iff hd _ _).1 hbelow).2
        · rw [scan_of_extend? (extend?_of_begins hd hbegins lines), hscan, Block.entry]
          dsimp only
          rw [hd, partsOf_cons line body]
          rfl
      · refine ⟨[], line :: lines, rfl, ⟨Below.nil, fun more hne hmore hbelow => ?_⟩, ?_⟩
        · obtain ⟨first, more, rfl⟩ := List.exists_cons_of_ne_nil hne
          obtain ⟨rfl, -⟩ := List.cons_prefix_cons.1 hmore
          exact hbegins ((below_cons_iff hd _ _).1 hbelow).1
        · rw [scan_of_extend?_eq_none (extend?_of_not_begins hd hbegins lines), close_ofLine]

/-! ### The whole page -/

/-- The layout of a page: the options it lists, each with as many lines as there are below it. -/
inductive Listing : List Text → List Block → Prop
  | nil : Listing [] []
  | prose {line : Text} {rest : List Text} {blocks : List Block} (h : read? line = none)
      (hrest : Listing rest blocks) : Listing (line :: rest) blocks
  | option {line : Text} {l : OptionLine} {body rest : List Text} {blocks : List Block}
      (h : read? line = some l) (hbody : Longest (Below l) body rest)
      (hrest : Listing rest blocks) : Listing (line :: (body ++ rest)) (⟨l, body⟩ :: blocks)

/-- A page has one layout at most. -/
theorem Listing.unique {lines : List Text} {blocks blocks' : List Block} (h : Listing lines blocks)
    (h' : Listing lines blocks') : blocks' = blocks := by
  induction h generalizing blocks' with
  | nil =>
    cases h'
    rfl
  | prose hprose _ ih =>
    cases h' with
    | prose _ hrest => exact ih hrest
    | option hread => exact absurd (hprose.symm.trans hread) (Option.some_ne_none _).symm
  | @option line l body rest blocks hread hbody _ ih =>
    generalize hlines : line :: (body ++ rest) = lines at h'
    cases h' with
    | nil => exact absurd hlines (List.cons_ne_nil _ _)
    | prose hprose =>
      obtain ⟨rfl, -⟩ := List.cons.inj hlines
      exact absurd (hprose.symm.trans hread) (Option.some_ne_none _).symm
    | option hread' hbody' hrest =>
      obtain ⟨rfl, hafter⟩ := List.cons.inj hlines
      obtain rfl := Option.some.inj (hread.symm.trans hread')
      obtain ⟨rfl, rfl⟩ := hbody.unique hbody' hafter
      rw [ih hrest]

/-- **Every page has a layout, and the scan follows it.** -/
theorem exists_listing (lines : List Text) :
    ∃ blocks, Listing lines blocks ∧ scan none lines = blocks.map Block.entry := by
  induction h : lines.length using Nat.strong_induction_on generalizing lines with
  | _ n ih =>
    subst h
    cases lines with
    | nil => exact ⟨[], Listing.nil, rfl⟩
    | cons line lines =>
      rw [scan_none_cons, opened]
      cases hread : read? line with
      | none =>
        obtain ⟨blocks, hlisting, hscan⟩ := ih lines.length (Nat.lt_succ_self _) lines rfl
        exact ⟨blocks, Listing.prose hread hlisting, hscan⟩
      | some l =>
        obtain ⟨body, rest, rfl, hbody, hscan⟩ := scan_below l lines
        have hshorter : rest.length < (line :: (body ++ rest)).length := by
          rw [List.length_cons, List.length_append]
          omega
        obtain ⟨blocks, hlisting, hrest⟩ := ih rest.length hshorter rest rfl
        refine ⟨⟨l, body⟩ :: blocks, Listing.option hread hbody hlisting, ?_⟩
        rw [Option.map_some, hscan, hrest]
        rfl

/-- So what is scanned can be told from the layout. -/
theorem Listing.scan_eq {lines : List Text} {blocks : List Block} (h : Listing lines blocks) :
    scan none lines = blocks.map Block.entry := by
  obtain ⟨blocks', h', hscan⟩ := exists_listing lines
  rw [hscan, h.unique h']

/-! ### Option lines and entries -/

/-- Entries keep their flags when descriptions are filled in. -/
theorem flags_backfill (es : List OptionEntry) :
    (backfill es).map OptionEntry.flags = es.map OptionEntry.flags := by
  induction es with
  | nil => rfl
  | cons e es ih =>
    rw [backfill, List.map_cons, List.map_cons, ih]
    congr 1
    split
    · split <;> rfl
    · rfl

/-- The option lines of a page are those that open a block, and those in the block. -/
theorem Listing.filterMap_read? {lines : List Text} {blocks : List Block}
    (h : Listing lines blocks) :
    lines.filterMap read? = blocks.flatMap fun b => b.option :: b.body.filterMap read? := by
  induction h with
  | nil => rfl
  | prose hread _ ih => rw [List.filterMap_cons_none hread, ih]
  | option hread _ _ ih =>
    rw [List.filterMap_cons_some hread, List.filterMap_append, ih, List.flatMap_cons]
    rfl

/-- There are as many blocks as option lines if none of these is inside a block. -/
theorem Listing.length_eq_iff {lines : List Text} {blocks : List Block} (h : Listing lines blocks) :
    blocks.length = (lines.filterMap read?).length ↔
      ∀ b ∈ blocks, ∀ line ∈ b.body, read? line = none := by
  have hcount : (lines.filterMap read?).length
      = blocks.length + (blocks.flatMap fun b => b.body.filterMap read?).length := by
    rw [h.filterMap_read?]
    clear h
    induction blocks with
    | nil => rfl
    | cons b blocks ih =>
      simp only [List.flatMap_cons, List.length_append, List.length_cons, ih]
      omega
  rw [hcount, Nat.left_eq_add, List.length_eq_zero_iff, List.flatMap_eq_nil_iff]
  simp only [List.filterMap_eq_nil_iff]

/-- **Which option lines have entries of their own.** Whatever is scanned of a text, its lines have
exactly one layout, and there is an entry for every option in it, in the order of the lines and with
the flags of its line. All option lines are accounted for: they open a block or are lines of one, so
every one of them has an entry of its own exactly if none is among the lines below another. -/
theorem own_entries (options : ScanOptions) (filter : Text → Text) (text : Text) :
    let lines := between options (Text.lines (filter (clean text)))
    let entries := filteredEntries options filter text
    ∃ blocks, (∀ blocks', Listing lines blocks' ↔ blocks' = blocks) ∧
      entries = backfill (blocks.map Block.entry) ∧
      entries.map OptionEntry.flags = blocks.map (fun b => commas b.option.flags) ∧
      lines.filterMap read? = blocks.flatMap (fun b => b.option :: b.body.filterMap read?) ∧
      (entries.length = (lines.filterMap read?).length ↔
        ∀ b ∈ blocks, ∀ line ∈ b.body, read? line = none) := by
  intro lines entries
  obtain ⟨blocks, hlisting, hscan⟩ := exists_listing lines
  have hentries : entries = backfill (blocks.map Block.entry) := congrArg backfill hscan
  have hflags : entries.map OptionEntry.flags = blocks.map (fun b => commas b.option.flags) := by
    rw [hentries, flags_backfill, List.map_map]
    rfl
  have hlength : entries.length = blocks.length := by
    simpa using congrArg List.length hflags
  refine ⟨blocks, fun blocks' => ⟨hlisting.unique, ?_⟩, hentries, hflags, hlisting.filterMap_read?,
    hlength ▸ hlisting.length_eq_iff⟩
  rintro rfl
  exact hlisting

/-- A page with an option line as deep as the description before it. -/
def deepPage : Text := "  -v  verbose\n      --color=WHEN  when to use color\n".toList

/-- That line is taken as one of the description, and no entry comes of it. -/
theorem option_line_in_description :
    (Text.lines (clean deepPage)).filterMap (fun line => (read? line).map OptionLine.flags)
        = ["-v".toList, "--color=WHEN".toList] ∧
      entries {} deepPage
        = [⟨"-v".toList, "verbose --color=WHEN  when to use color".toList⟩] ∧
      (entries {} deepPage).length
        ≠ ((Text.lines (clean deepPage)).filterMap read?).length := by
  decide +kernel

end Page

end CommandGrammar
