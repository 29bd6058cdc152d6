import CommandGrammar.Proofs.Compiled
import CommandGrammar.Proofs.Trace
import Mathlib.Data.List.Chain

/-!
# Well-formed histories

What a reader of a history may rely on is collected in `WellFormedHistory`: the numbers begin at
zero and grow by one from match to match, the records of one number stand together and agree on
what was matched, their slots count up as the values do, and every value record carries the action
of its slot and the values before it.

All of it is read off the matches that a trace is made of, so `Traced.wellFormed` holds of every
trace whose positional slots have an action; the histories of compiled grammars are such traces.
-/

namespace CommandGrammar

open Line

/-! ### Slots and values inside a match -/

theorem slots_valueRecords (m : Member) (occurrence : Nat) (actions : List Action) :
    ∀ (slot : Nat) (values words : List Text), words.length ≤ actions.length →
      (valueRecords m occurrence slot values actions words).map Record.slot
        = (List.range' slot words.length).map some := by
  induction actions with
  | nil =>
    intro slot values words h
    rw [valueRecords_nil_left, List.length_eq_zero_iff.1 (Nat.le_zero.1 h)]
    rfl
  | cons action actions ih =>
    intro slot values words h
    cases words with
    | nil => rfl
    | cons word words =>
      rw [valueRecords, List.map_cons, ih _ _ _ (Nat.le_of_succ_le_succ h), List.length_cons,
        List.range'_succ, List.map_cons]
      rfl

theorem getElem?_valueRecords {m : Member} {occurrence : Nat} {actions : List Action} :
    ∀ {slot : Nat} {values words : List Text} {j : Nat} {r : Record},
      (valueRecords m occurrence slot values actions words)[j]? = some r →
      r.slot = some (slot + j) ∧ actions[j]? = some r.action ∧ r.values = values ++ words.take j := by
  induction actions with
  | nil =>
    intro slot values words j r h
    rw [valueRecords_nil_left] at h
    exact absurd h (by simp)
  | cons action actions ih =>
    intro slot values words j r h
    cases words with
    | nil => exact absurd h (by simp)
    | cons word words =>
      rw [valueRecords] at h
      cases j with
      | zero =>
        obtain rfl := Option.some.inj h
        exact ⟨rfl, rfl, (List.append_nil values).symm⟩
      | succ j =>
        rw [List.getElem?_cons_succ] at h
        obtain ⟨hslot, haction, hvalues⟩ := ih h
        refine ⟨?_, haction, ?_⟩
        · rw [hslot, show slot + 1 + j = slot + (j + 1) from by omega]
        · rw [hvalues, List.append_assoc]
          rfl

theorem getElem?_restRecords {m : Member} {occurrence : Nat} {words : List Text} :
    ∀ {values : List Text} {j : Nat} {r : Record},
      (restRecords m occurrence values words)[j]? = some r →
      r.slot = some (min (values.length + j) (m.spec.actions.length - 1)) ∧
        r.action = m.spec.actions[min (values.length + j) (m.spec.actions.length - 1)]?.getD {} ∧
        r.values = values ++ words.take j := by
  induction words with
  | nil =>
    intro values j r h
    exact absurd h (by simp [restRecords])
  | cons word words ih =>
    intro values j r h
    rw [restRecords] at h
    cases j with
    | zero =>
      obtain rfl := Option.some.inj h
      exact ⟨rfl, rfl, (List.append_nil values).symm⟩
    | succ j =>
      rw [List.getElem?_cons_succ] at h
      obtain ⟨hslot, haction, hvalues⟩ := ih h
      have hlength : (values ++ [word]).length + j = values.length + (j + 1) := by
        rw [List.length_append, List.length_singleton]
        omega
      rw [hlength] at hslot haction
      refine ⟨hslot, haction, ?_⟩
      rw [hvalues, List.append_assoc]
      rfl

def valueStubs (records : List Record) : List Text :=
  (records.filter Record.isValue).map Record.stub

theorem valueStubs_append (records records' : List Record) :
    valueStubs (records ++ records') = valueStubs records ++ valueStubs records' := by
  rw [valueStubs, List.filter_append, List.map_append]
  rfl

theorem valueStubs_eq_stubs {records : List Record} (h : ∀ r ∈ records, r.isValue = true) :
    valueStubs records = records.map Record.stub := by
  rw [valueStubs, List.filter_eq_self.2 h]

theorem isValue_of_mem_valueRecords {m : Member} {occurrence slot : Nat} {values : List Text}
    {actions : List Action} {words : List Text} :
    ∀ r ∈ valueRecords m occurrence slot values actions words, r.isValue = true := by
  intro r hr
  obtain ⟨j, hj⟩ := List.mem_iff_getElem?.1 hr
  rw [Record.isValue, (getElem?_valueRecords hj).1]
  rfl

theorem isValue_of_mem_restRecords {m : Member} {occurrence : Nat} {values words : List Text} :
    ∀ r ∈ restRecords m occurrence values words, r.isValue = true := by
  intro r hr
  obtain ⟨j, hj⟩ := List.mem_iff_getElem?.1 hr
  rw [Record.isValue, (getElem?_restRecords hj).1]
  rfl

/-- The values before a place in the slots of an option are the words before it. -/
theorem valueStubs_take_valueRecords (m : Member) (occurrence : Nat) {actions : List Action}
    {words : List Text} (h : words.length ≤ actions.length) (j : Nat) :
    valueStubs ((valueRecords m occurrence 0 [] actions words).take j) = words.take j := by
  rw [valueStubs_eq_stubs fun r hr => isValue_of_mem_valueRecords r (List.mem_of_mem_take hr),
    List.map_take, stubs_valueRecords m occurrence actions 0 [] words h]

theorem valueStubs_take_restRecords (m : Member) (occurrence : Nat) (words : List Text)
    (j : Nat) : valueStubs ((restRecords m occurrence [] words).take j) = words.take j := by
  rw [valueStubs_eq_stubs fun r hr => isValue_of_mem_restRecords r (List.mem_of_mem_take hr),
    List.map_take, stubs_restRecords]

namespace IsMatch

variable {P : Spec → Prop} {number : Nat} {block : List Record}

/-- A match of a specification: its values under its name or without it if it is an option, its
operands if it is a slot. -/
theorem of_member (h : IsMatch P number block) {m : Member} {r : Record} (hr : r ∈ block)
    (hmember : r.member = some m) :
    P m.spec ∧
      ((m.spec.isOption = true ∧ ∃ words, words.length ≤ m.spec.actions.length ∧
          (block = valueRecords m number 0 [] m.spec.actions words ∨
            ∃ name : Record, name.slot = none ∧
              block = name :: valueRecords m number 0 [] m.spec.actions words)) ∨
        (m.spec.isPositional = true ∧ ∃ words, block = restRecords m number [] words)) := by
  cases h with
  | plain r' hnone _ =>
    rw [List.mem_singleton.1 hr, hnone] at hmember
    exact absurd hmember (by simp)
  | named r' m' words hP hoption _ _ hmember' hslot _ hfits =>
    have hsame : r.member = some m' := by
      rcases List.mem_cons.1 hr with rfl | hr
      · exact hmember'
      · exact (mem_valueRecords hr).2.2.1
    obtain rfl : m' = m := by simpa [hsame] using hmember
    exact ⟨hP, Or.inl ⟨hoption, words, hfits, Or.inr ⟨r', hslot, rfl⟩⟩⟩
  | inline m' words hP hoption _ hfits =>
    obtain rfl : m' = m := by simpa [(mem_valueRecords hr).2.2.1] using hmember
    exact ⟨hP, Or.inl ⟨hoption, words, hfits, Or.inl rfl⟩⟩
  | operands m' words hP hpositional _ _ =>
    obtain rfl : m' = m := by simpa [(mem_restRecords hr).2.2.1] using hmember
    exact ⟨hP, Or.inr ⟨hpositional, words, rfl⟩⟩

/-- The slots of a match of an option count up from the first one, after the name if it stands by
itself. -/
theorem option_slots (h : IsMatch P number block) {m : Member} (hoption : m.spec.isOption = true)
    {r : Record} (hr : r ∈ block) (hmember : r.member = some m) :
    ∃ count ≤ m.spec.actions.length,
      block.map Record.slot = none :: (List.range count).map some ∨
        block.map Record.slot = (List.range count).map some := by
  obtain ⟨-, ⟨-, words, hfits, hblock⟩ | ⟨hpositional, -⟩⟩ := h.of_member hr hmember
  · have hslots := slots_valueRecords m number m.spec.actions 0 [] words hfits
    rw [← List.range_eq_range'] at hslots
    refine ⟨words.length, hfits, ?_⟩
    rcases hblock with rfl | ⟨name, hname, rfl⟩
    · exact Or.inr hslots
    · exact Or.inl (by rw [List.map_cons, hname, hslots])
  · rw [Spec.isOption_eq_not_isPositional, hpositional] at hoption
    exact absurd hoption (by simp)

/-- The slots of the operands of the rest count up to the last one, which repeats. -/
theorem rest_slot (h : IsMatch P number block) {m : Member}
    (hunbounded : m.spec.isUnbounded = true) {j : Nat} {r : Record} (hr : block[j]? = some r)
    (hmember : r.member = some m) : r.slot = some (min j (m.spec.actions.length - 1)) := by
  obtain ⟨-, ⟨hoption, -⟩ | ⟨-, words, rfl⟩⟩ := h.of_member (List.mem_of_getElem? hr) hmember
  · rw [Spec.isOption_eq_not_isPositional, Spec.isPositional_of_isUnbounded hunbounded] at hoption
    exact absurd hoption (by simp)
  · have hslot := (getElem?_restRecords hr).1
    rwa [List.length_nil, Nat.zero_add] at hslot

/-- A value record of an option carries the action of its slot and the values before it. -/
theorem value_of_valueRecords {m : Member} {words : List Text}
    (hfits : words.length ≤ m.spec.actions.length) {j slot : Nat} {r : Record}
    (hr : (valueRecords m number 0 [] m.spec.actions words)[j]? = some r)
    (hslot : r.slot = some slot) :
    m.spec.actions[slot]? = some r.action ∧
      r.values = valueStubs ((valueRecords m number 0 [] m.spec.actions words).take j) := by
  obtain ⟨hplace, haction, hvalues⟩ := getElem?_valueRecords hr
  obtain rfl : j = slot := by simpa [hplace] using hslot
  rw [hvalues, valueStubs_take_valueRecords m number hfits]
  exact ⟨haction, rfl⟩

/-- A value record of a slot carries the action of its place and the operands before it. -/
theorem value_of_restRecords {m : Member} {words : List Text} (hactions : m.spec.actions ≠ [])
    {j slot : Nat} {r : Record} (hr : (restRecords m number [] words)[j]? = some r)
    (hslot : r.slot = some slot) :
    m.spec.actions[slot]? = some r.action ∧
      r.values = valueStubs ((restRecords m number [] words).take j) := by
  obtain ⟨hplace, haction, hvalues⟩ := getElem?_restRecords hr
  rw [List.length_nil, Nat.zero_add] at hplace haction
  obtain rfl : min j (m.spec.actions.length - 1) = slot := by simpa [hplace] using hslot
  have hlt : min j (m.spec.actions.length - 1) < m.spec.actions.length := by
    have := List.length_pos_iff.2 hactions
    omega
  rw [haction, hvalues, valueStubs_take_restRecords, List.getElem?_eq_getElem hlt]
  exact ⟨rfl, rfl⟩

/-- A value record of a match carries the action of its slot and the values before it. -/
theorem value_record (h : IsMatch Spec.WellFormed number block) {m : Member} {j slot : Nat}
    {r : Record} (hr : block[j]? = some r) (hmember : r.member = some m)
    (hslot : r.slot = some slot) :
    m.spec.actions[slot]? = some r.action ∧ r.values = valueStubs (block.take j) := by
  obtain ⟨hwellFormed, ⟨-, words, hfits, hblock⟩ | ⟨hpositional, words, rfl⟩⟩ :=
    h.of_member (List.mem_of_getElem? hr) hmember
  · rcases hblock with rfl | ⟨name, hname, rfl⟩
    · exact value_of_valueRecords hfits hr hslot
    · cases j with
      | zero =>
        obtain rfl := Option.some.inj hr
        rw [hname] at hslot
        exact absurd hslot (by simp)
      | succ j =>
        obtain ⟨haction, hvalues⟩ := value_of_valueRecords hfits hr hslot
        -- The name stands before the values and is none itself.
        have hvalue : ¬ name.isValue = true := by simp [Record.isValue, hname]
        refine ⟨haction, hvalues.trans ?_⟩
        rw [List.take_succ_cons, valueStubs, valueStubs, List.filter_cons_of_neg hvalue]
  · exact value_of_restRecords (hwellFormed.slots hpositional) hr hslot

end IsMatch

/-! ### Well-formed histories -/

/-- What can be relied on in a history. -/
structure WellFormedHistory (history : List Record) : Prop where
  /-- Numbers begin at zero. -/
  first : ∀ r ∈ history.head?, r.occurrence = 0
  /-- From one record to the next the number stays or grows by one. -/
  grows : history.IsChain fun r s => s.occurrence = r.occurrence ∨ s.occurrence = r.occurrence + 1
  /-- The records of one number stand together. -/
  together : (occurrenceGroups history).flatten = history
  /-- The records of one number are of one match. -/
  shared : ∀ r ∈ history, ∀ s ∈ history, r.occurrence = s.occurrence →
    r.name = s.name ∧ r.member = s.member ∧ r.context = s.context
  /-- The slots of an option count up, below the number of its actions. -/
  optionSlots : ∀ r ∈ history, ∀ m ∈ r.member, m.spec.isOption = true →
    ∃ count ≤ m.spec.actions.length,
      (occurrenceGroup history r.occurrence).map Record.slot
          = none :: (List.range count).map some ∨
        (occurrenceGroup history r.occurrence).map Record.slot = (List.range count).map some
  /-- The slots of the rest of a line count up to the last one. -/
  restSlots : ∀ number j r, (occurrenceGroup history number)[j]? = some r → ∀ m ∈ r.member,
    m.spec.isUnbounded = true → r.slot = some (min j (m.spec.actions.length - 1))
  /-- A value record has the action of its slot and the values before it. -/
  values : ∀ number j r, (occurrenceGroup history number)[j]? = some r → ∀ m ∈ r.member,
    ∀ slot ∈ r.slot, m.spec.actions[slot]? = some r.action ∧
      r.values = valueStubs ((occurrenceGroup history number).take j)

namespace Traced

variable {P : Spec → Prop} {history : List Record}

/-- The records of a number that was given are a match. -/
theorem isMatch_of_mem (h : Traced P history) {number : Nat} {r : Record}
    (hr : r ∈ occurrenceGroup history number) :
    IsMatch P number (occurrenceGroup history number) := by
  obtain ⟨hmem, hnumber⟩ := mem_occurrenceGroup.1 hr
  exact h.isMatch_group number (hnumber ▸ occurrence_lt_nextOccurrence hmem)

theorem first_occurrence (h : Traced P history) : ∀ r ∈ history.head?, r.occurrence = 0 := by
  induction h with
  | nil => exact fun r hr => absurd hr (by simp)
  | @append history block _ hblock ih =>
    intro r hr
    cases history with
    | nil => exact hblock.occurrence_eq r (List.mem_of_head? hr)
    | cons r' history => exact ih r hr

/-- The last record of a trace has the last number given. -/
theorem last_occurrence (h : Traced P history) :
    ∀ r ∈ history.getLast?, r.occurrence + 1 = nextOccurrence history := by
  cases h with
  | nil => exact fun r hr => absurd hr (by simp)
  | @append history block _ hblock =>
    intro r hr
    rw [List.getLast?_append_of_ne_nil _ hblock.ne_nil] at hr
    rw [nextOccurrence_append hblock, hblock.occurrence_eq r (List.mem_of_getLast? hr)]

theorem grows (h : Traced P history) :
    history.IsChain fun r s => s.occurrence = r.occurrence ∨ s.occurrence = r.occurrence + 1 := by
  induction h with
  | nil => exact .nil
  | @append history block htraced hblock ih =>
    refine ih.append ?_ ?_
    · refine (List.pairwise_of_forall_mem_list fun r hr s hs => Or.inl ?_).isChain
      rw [hblock.occurrence_eq r hr, hblock.occurrence_eq s hs]
    · intro r hr s hs
      right
      rw [htraced.last_occurrence r hr, hblock.occurrence_eq s (List.mem_of_head? hs)]

theorem shared (h : Traced P history) : ∀ r ∈ history, ∀ s ∈ history,
    r.occurrence = s.occurrence →
    r.name = s.name ∧ r.member = s.member ∧ r.context = s.context := by
  intro r hr s hs hsame
  have hr' : r ∈ occurrenceGroup history s.occurrence := mem_occurrenceGroup.2 ⟨hr, hsame⟩
  have hs' : s ∈ occurrenceGroup history s.occurrence := mem_occurrenceGroup.2 ⟨hs, rfl⟩
  obtain ⟨context, name, member, -, hshared⟩ := (h.isMatch_of_mem hr').exists_shared
  obtain ⟨hcontext, hname, hmember, -⟩ := hshared r hr'
  obtain ⟨hcontext', hname', hmember', -⟩ := hshared s hs'
  exact ⟨hname.trans hname'.symm, hmember.trans hmember'.symm, hcontext.trans hcontext'.symm⟩

/-- **Traces of well-formed specifications are well formed.** -/
theorem wellFormed (h : Traced Spec.WellFormed history) : WellFormedHistory history where
  first := h.first_occurrence
  grows := h.grows
  together := h.flatten_groups
  shared := h.shared
  optionSlots := by
    intro r hr m hm hoption
    have hr' : r ∈ occurrenceGroup history r.occurrence := mem_occurrenceGroup.2 ⟨hr, rfl⟩
    exact (h.isMatch_of_mem hr').option_slots hoption hr' hm
  restSlots := by
    intro number j r hr m hm hunbounded
    exact (h.isMatch_of_mem (List.mem_of_getElem? hr)).rest_slot hunbounded hr hm
  values := by
    intro number j r hr m hm slot hslot
    exact (h.isMatch_of_mem (List.mem_of_getElem? hr)).value_record hr hm hslot

end Traced

/-! ### The histories of compiled grammars -/

/-- A line that is read against a compiled grammar, with compiled grammars for the commands
embedded in it, leaves a trace of well-formed specifications. -/
theorem traced_of_compiled {lookup : Text → Option Grammar} {g : Grammar} (hg : g.Compiled)
    (hlookup : ∀ program g', lookup program = some g' → g'.Compiled) (tokens : List Text) :
    Traced Spec.WellFormed (parse lookup tokens g.members).history :=
  run_traced (fun program g' hfound => (hlookup program g' hfound).wellFormed) _ false hg.wellFormed
    .nil

/-- **The history of a line is well formed** if its grammar and those of all embedded commands are
compiled ones. -/
theorem parse_history_wellFormed {lookup : Text → Option Grammar} {g : Grammar} (hg : g.Compiled)
    (hlookup : ∀ program g', lookup program = some g' → g'.Compiled) (tokens : List Text) :
    WellFormedHistory (parse lookup tokens g.members).history :=
  (traced_of_compiled hg hlookup tokens).wellFormed

theorem parse_history_wellFormed_search :
    searchGrammar.Compiled ∧
      (∀ program g, listLookup program = some g → g.Compiled) ∧
      WellFormedHistory
        (parse listLookup
          ["-exec".toList, "/bin/ls".toList, "-a".toList, ".".toList, ";".toList, "src".toList]
          searchGrammar.members).history :=
  ⟨searchGrammar_compiled, listLookup_compiled,
    parse_history_wellFormed searchGrammar_compiled listLookup_compiled _⟩

end CommandGrammar
