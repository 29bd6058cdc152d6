import CommandGrammar.Line.Usage
import CommandGrammar.Proofs.History

/-!
# The values a context knows

A context is built from a trace by looking at neighbours: of the records that stand together under
one number the last one gives the values. On the trace of a line this loses nothing and doubles
nothing. A name has exactly one list of values for every match that was made under it or under
another spelling of the same option, in the order of the line, and the list has all the values of
the match.

The induction is on the matches of a trace: `Usage.ofHistory_append` says what one more match adds
to the usages, `Context.get_insertUsage` what a usage adds under a name, and `matchesOf_append`
that it is what the match should add.

* `Traced.get_ofHistory`, `Traced.seen_ofHistory`: the context of a trace;
* `parse_context_exact`: the context of a line that was read.
-/

namespace CommandGrammar

open Line

/-! ### Names -/

/-- The names a record answers to: its own, and the other spellings of what was matched. -/
def Record.names (r : Record) : List Text :=
  r.name :: (r.member.map fun m => m.spec.aliases).getD []

/-- Whether a record is of a match under some name. -/
def Record.isMatchOf (name : Text) (r : Record) : Bool := r.isMatch && r.names.contains name

/-- The matches of a trace under some name, in the order of their numbers. -/
def matchesOf (history : List Record) (name : Text) : List (List Record) :=
  (occurrenceGroups history).filter fun block => block.any (Record.isMatchOf name)

namespace IsMatch

variable {P : Spec → Prop} {number : Nat} {block : List Record}

/-- The records of a match answer to the same names as the first. -/
theorem names_eq (h : IsMatch P number block) : ∀ r ∈ block,
    r.isMatch = (block.head h.ne_nil).isMatch ∧ r.names = (block.head h.ne_nil).names := by
  obtain ⟨context, name, member, -, hshared⟩ := h.exists_shared
  obtain ⟨hcontext, hname, hmember, -⟩ := hshared _ (List.head_mem h.ne_nil)
  intro r hr
  obtain ⟨hcontext', hname', hmember', -⟩ := hshared r hr
  refine ⟨?_, ?_⟩
  · rw [Record.isMatch, Record.isMatch, hcontext, hmember, hcontext', hmember']
  · rw [Record.names, Record.names, hname, hmember, hname', hmember']

theorem any_isMatchOf (h : IsMatch P number block) (name : Text) :
    block.any (Record.isMatchOf name) = (block.head h.ne_nil).isMatchOf name := by
  apply Bool.eq_iff_iff.2
  rw [List.any_eq_true]
  constructor
  · rintro ⟨r, hr, hname⟩
    obtain ⟨hmatch, hnames⟩ := h.names_eq r hr
    rwa [Record.isMatchOf, hmatch, hnames] at hname
  · intro hname
    exact ⟨_, List.head_mem h.ne_nil, hname⟩

/-- A match is all there or not there at all among the records of known specifications. -/
theorem filter_isMatch (h : IsMatch P number block) :
    block.filter Record.isMatch = if (block.head h.ne_nil).isMatch then block else [] := by
  by_cases hmatch : (block.head h.ne_nil).isMatch = true
  · rw [if_pos hmatch]
    exact List.filter_eq_self.2 fun r hr => (h.names_eq r hr).1.trans hmatch
  · rw [if_neg hmatch]
    exact List.filter_eq_nil_iff.2 fun r hr => by rwa [(h.names_eq r hr).1]

/-- What is matched is recorded under its own label. -/
theorem name_eq_label (h : IsMatch P number block) {m : Member} {r : Record} (hr : r ∈ block)
    (hmember : r.member = some m) : r.name = m.spec.label := by
  obtain ⟨_, name, member, hlabel, hshared⟩ := h.exists_shared
  obtain ⟨-, hname, hmember', -⟩ := hshared r hr
  rw [hname]
  exact hlabel m (hmember'.symm.trans hmember)

/-- No name stands twice among those of a match. -/
theorem nodup_names (h : IsMatch Spec.WellFormed number block) :
    ∀ r ∈ block, r.names.Nodup := by
  intro r hr
  cases hmember : r.member with
  | none =>
    rw [Record.names, hmember]
    exact List.nodup_singleton _
  | some m =>
    rw [Record.names, hmember, h.name_eq_label hr hmember]
    exact (h.of_member hr hmember).1.names

/-- A match that ends with a name has no values. -/
theorem valueStubs_eq_nil (h : IsMatch P number block) {m : Member}
    (hmember : (block.getLast h.ne_nil).member = some m)
    (hslot : (block.getLast h.ne_nil).slot = none) : valueStubs block = [] := by
  have hlast := List.getLast_mem h.ne_nil
  have hname : ¬ (block.getLast h.ne_nil).isValue = true := by simp [Record.isValue, hslot]
  obtain ⟨-, ⟨-, words, -, hblock⟩ | ⟨-, words, rfl⟩⟩ := h.of_member hlast hmember
  · rcases hblock with rfl | ⟨name, hslot', rfl⟩
    · exact absurd (isValue_of_mem_valueRecords _ hlast) hname
    · by_cases hvalues : valueRecords m number 0 [] m.spec.actions words = []
      · rw [hvalues, valueStubs, List.filter_eq_nil_iff.2]
        · rfl
        · intro r hr
          rw [List.mem_singleton.1 hr, Record.isValue, hslot']
          simp
      · rw [List.getLast_cons hvalues] at hname
        exact absurd (isValue_of_mem_valueRecords _ (List.getLast_mem hvalues)) hname
  · exact absurd (isValue_of_mem_restRecords _ hlast) hname

/-- The last record of a match knows all of its values. -/
theorem valuesSoFar_getLast (h : IsMatch Spec.WellFormed number block)
    (hmatch : (block.getLast h.ne_nil).isMatch = true) :
    (block.getLast h.ne_nil).valuesSoFar = valueStubs block := by
  obtain ⟨m, hmember⟩ : ∃ m, (block.getLast h.ne_nil).member = some m := by
    rw [Record.isMatch, Bool.and_eq_true] at hmatch
    exact Option.isSome_iff_exists.1 hmatch.2
  cases hslot : (block.getLast h.ne_nil).slot with
  | none =>
    rw [h.valueStubs_eq_nil hmember hslot, Record.valuesSoFar, Record.isValue, hslot]
    rfl
  | some slot =>
    have hplace : block[block.length - 1]? = some (block.getLast h.ne_nil) := by
      rw [← List.getLast?_eq_getElem?, List.getLast?_eq_some_getLast h.ne_nil]
    have hvalue : (block.getLast h.ne_nil).isValue = true := by rw [Record.isValue, hslot]; rfl
    obtain ⟨-, hvalues⟩ := h.value_record hplace hmember hslot
    rw [← List.dropLast_eq_take] at hvalues
    conv_rhs => rw [← List.dropLast_concat_getLast h.ne_nil]
    rw [valueStubs_append, Record.valuesSoFar, if_pos hvalue, hvalues]
    congr 1
    rw [valueStubs, List.filter_cons_of_pos hvalue]
    rfl

end IsMatch

/-! ### Usages -/

namespace Usage

/-- The records of one number are one usage, with the values of the last one. -/
theorem ofMatches_eq_singleton {number : Nat} {block : List Record} (hne : block ≠ [])
    (h : ∀ r ∈ block, r.occurrence = number) :
    ofMatches block = [⟨block.head hne, (block.getLast hne).valuesSoFar⟩] := by
  induction block with
  | nil => exact absurd rfl hne
  | cons r block ih =>
    by_cases hblock : block = []
    · subst hblock
      rfl
    · have hrest := ih hblock fun r' hr => h r' (List.mem_cons_of_mem _ hr)
      have hsame : (block.head hblock).occurrence = r.occurrence := by
        rw [h r List.mem_cons_self, h _ (List.mem_cons_of_mem _ (List.head_mem hblock))]
      rw [ofMatches, hrest, List.getLast_cons hblock]
      show (if (block.head hblock).occurrence = r.occurrence then _ else _) = _
      rw [if_pos hsame]
      rfl

/-- Records under a new number make new usages. -/
theorem ofMatches_append {number : Nat} {history block : List Record}
    (hhistory : ∀ r ∈ history, r.occurrence ≠ number) (hne : block ≠ [])
    (hblock : ∀ r ∈ block, r.occurrence = number) :
    ofMatches (history ++ block) = ofMatches history ++ ofMatches block := by
  induction history with
  | nil => rfl
  | cons r history ih =>
    -- The usages are built from the end: a record joins those after it only under their number.
    have hrest := ih fun r' hr => hhistory r' (List.mem_cons_of_mem _ hr)
    rw [List.cons_append, ofMatches, hrest]
    conv_rhs => rw [ofMatches]
    cases husages : ofMatches history with
    | nil =>
      have hnew : (block.head hne).occurrence ≠ r.occurrence := by
        rw [hblock _ (List.head_mem hne)]
        exact (hhistory r List.mem_cons_self).symm
      rw [ofMatches_eq_singleton hne hblock]
      show (if (block.head hne).occurrence = r.occurrence then _ else _) = _
      rw [if_neg hnew]
      rfl
    | cons u usages =>
      rw [List.cons_append]
      dsimp only
      split <;> rfl

/-- **One more match is one more usage** of what was matched, with all the values of the match. -/
theorem ofHistory_append {history block : List Record}
    (h : IsMatch Spec.WellFormed (nextOccurrence history) block) :
    ofHistory (history ++ block) = ofHistory history ++
      if (block.head h.ne_nil).isMatch then [⟨block.head h.ne_nil, valueStubs block⟩] else [] := by
  rw [ofHistory, List.filter_append, h.filter_isMatch]
  by_cases hmatch : (block.head h.ne_nil).isMatch = true
  · have hlast := (h.names_eq _ (List.getLast_mem h.ne_nil)).1.trans hmatch
    have hold : ∀ r ∈ history.filter Record.isMatch, r.occurrence ≠ nextOccurrence history := by
      intro r hr
      have := occurrence_lt_nextOccurrence (List.mem_filter.1 hr).1
      omega
    rw [if_pos hmatch, if_pos hmatch, ofMatches_append hold h.ne_nil h.occurrence_eq,
      ofMatches_eq_singleton h.ne_nil h.occurrence_eq, h.valuesSoFar_getLast hlast]
    rfl
  · rw [if_neg hmatch, if_neg hmatch, List.append_nil, List.append_nil]
    rfl

end Usage

/-! ### Contexts -/

namespace Context

/-- Names that are all different learn of some values once each. -/
theorem get_foldl_insert (values : List Text) (name : Text) {names : List Text}
    (hnodup : names.Nodup) (context : Context) :
    (names.foldl (fun c n => c.insert n values) context).get name
      = context.get name ++ if name ∈ names then [values] else [] := by
  induction names generalizing context with
  | nil => exact (List.append_nil _).symm
  | cons n names ih =>
    obtain ⟨hfresh, hnodup⟩ := List.nodup_cons.1 hnodup
    rw [List.foldl_cons, ih hnodup]
    by_cases hname : name = n
    · subst hname
      rw [get_insert_self, if_neg hfresh, if_pos List.mem_cons_self, List.append_nil]
    · have hrest : name ∈ n :: names ↔ name ∈ names := by
        rw [List.mem_cons, or_iff_right hname]
      rw [get_insert_of_ne _ _ hname]
      simp only [hrest]

theorem seen_foldl_insert (values : List Text) (name : Text) (names : List Text)
    (context : Context) :
    (names.foldl (fun c n => c.insert n values) context).seen name
      = (context.seen name || names.contains name) := by
  induction names generalizing context with
  | nil => simp
  | cons n names ih =>
    have hflip : (n == name) = (name == n) := Bool.beq_comm
    rw [List.foldl_cons, ih, seen_insert, List.contains_cons, hflip, Bool.or_assoc]

/-- A usage adds its values once under each of its names. -/
theorem get_insertUsage (context : Context) {u : Usage} (hnodup : u.record.names.Nodup)
    (name : Text) : (context.insertUsage u).get name
      = context.get name ++ if name ∈ u.record.names then [u.values] else [] :=
  get_foldl_insert u.values name hnodup context

theorem seen_insertUsage (context : Context) (u : Usage) (name : Text) :
    (context.insertUsage u).seen name
      = (context.seen name || u.record.names.contains name) :=
  seen_foldl_insert u.values name u.record.names context

end Context

/-! ### The context of a trace -/

/-- A match adds itself to the matches under each of its names. -/
theorem matchesOf_append {P : Spec → Prop} {history block : List Record}
    (h : IsMatch P (nextOccurrence history) block) (name : Text) :
    matchesOf (history ++ block) name = matchesOf history name ++
      if (block.head h.ne_nil).isMatchOf name then [block] else [] := by
  rw [matchesOf, Traced.groups_append h, List.filter_append, List.filter_singleton,
    h.any_isMatchOf name]
  cases (block.head h.ne_nil).isMatchOf name <;> rfl

/-- The context of a trace with one more match. -/
theorem Context.ofHistory_append {history block : List Record}
    (h : IsMatch Spec.WellFormed (nextOccurrence history) block) :
    ofHistory (history ++ block) =
      if (block.head h.ne_nil).isMatch then
        (ofHistory history).insertUsage ⟨block.head h.ne_nil, valueStubs block⟩
      else ofHistory history := by
  rw [ofHistory, Usage.ofHistory_append h, List.foldl_append]
  cases (block.head h.ne_nil).isMatch <;> rfl

namespace Traced

variable {history : List Record}

/-- **A name has the values of every match under it.** -/
theorem get_ofHistory (h : Traced Spec.WellFormed history) (name : Text) :
    (Context.ofHistory history).get name = (matchesOf history name).map valueStubs := by
  induction h with
  | nil => rfl
  | @append history block _ hblock ih =>
    have hnodup := hblock.nodup_names _ (List.head_mem hblock.ne_nil)
    rw [Context.ofHistory_append hblock, matchesOf_append hblock, List.map_append, ← ih,
      Record.isMatchOf]
    by_cases hmatch : (block.head hblock.ne_nil).isMatch = true
    · rw [if_pos hmatch, Context.get_insertUsage _ hnodup, hmatch, Bool.true_and]
      by_cases hname : name ∈ (block.head hblock.ne_nil).names
      · rw [if_pos hname, if_pos (List.contains_iff_mem.2 hname)]
        rfl
      · rw [if_neg hname, if_neg (by simpa using hname)]
        rfl
    · rw [if_neg hmatch, Bool.eq_false_iff.2 hmatch]
      exact (List.append_nil _).symm

/-- **A name was seen if there is a match under it.** -/
theorem seen_ofHistory (h : Traced Spec.WellFormed history) (name : Text) :
    (Context.ofHistory history).seen name = true ↔ matchesOf history name ≠ [] := by
  induction h with
  | nil => exact ⟨fun hseen => absurd hseen Bool.false_ne_true, fun hne => absurd rfl hne⟩
  | @append history block _ hblock ih =>
    rw [Context.ofHistory_append hblock, matchesOf_append hblock, Record.isMatchOf]
    by_cases hmatch : (block.head hblock.ne_nil).isMatch = true
    · rw [if_pos hmatch, Context.seen_insertUsage, Bool.or_eq_true, ih, hmatch, Bool.true_and]
      by_cases hname : (block.head hblock.ne_nil).names.contains name = true
      · rw [if_pos hname]
        exact ⟨fun _ => by simp, fun _ => Or.inr hname⟩
      · rw [if_neg hname, List.append_nil]
        exact or_iff_left hname
    · rw [if_neg hmatch, Bool.eq_false_iff.2 hmatch, ih]
      show _ ↔ matchesOf history name ++ [] ≠ []
      rw [List.append_nil]

end Traced

/-! ### The context of a line -/

/-- **What a line says about values.** The records of a line fall into matches in the order of the
line; a name has exactly one list for every match under it, the list of all values of the match,
and it was seen exactly if there is one. -/
theorem parse_context_exact {lookup : Text → Option Grammar} {g : Grammar} (hg : g.Compiled)
    (hlookup : ∀ program g', lookup program = some g' → g'.Compiled) (tokens : List Text)
    (name : Text) :
    (occurrenceGroups (parse lookup tokens g.members).history).flatten
        = (parse lookup tokens g.members).history ∧
      (Context.ofHistory (parse lookup tokens g.members).history).get name
        = (matchesOf (parse lookup tokens g.members).history name).map valueStubs ∧
      ((Context.ofHistory (parse lookup tokens g.members).history).seen name = true ↔
        matchesOf (parse lookup tokens g.members).history name ≠ []) := by
  have htraced := traced_of_compiled hg hlookup tokens
  exact ⟨htraced.flatten_groups, htraced.get_ofHistory name, htraced.seen_ofHistory name⟩

theorem parse_context_exact_search :
    searchGrammar.Compiled ∧
      (∀ program g, listLookup program = some g → g.Compiled) ∧
      let history := (parse listLookup
        ["-name".toList, "x".toList, "-exec".toList, "ls".toList, "-a".toList]
        searchGrammar.members).history
      (occurrenceGroups history).flatten = history ∧
        (Context.ofHistory history).get "--all".toList
          = (matchesOf history "--all".toList).map valueStubs ∧
        ((Context.ofHistory history).seen "--all".toList = true ↔
          matchesOf history "--all".toList ≠ []) :=
  ⟨searchGrammar_compiled, listLookup_compiled,
    parse_context_exact searchGrammar_compiled listLookup_compiled _ _⟩

end CommandGrammar
