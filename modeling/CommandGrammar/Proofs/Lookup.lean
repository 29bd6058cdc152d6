import CommandGrammar.Line.Lookup

/-!
# What a lookup can find

Every lookup on a line answers with one of the specifications still available:

* `exactly?_eq_some`: an exact spelling finds an available option of that spelling;
* `findOption_named`, `findOption_inline`: a word that names an option, or carries a value for
  one, finds an available option; the value stands at the end of the word and the option has a
  value slot for it;
* `splitCluster_eq_some`: a cluster is a dash, the character of an available short option, and
  something after it;
* `firstPositional?_eq_some`: an operand finds an available slot.
-/

namespace CommandGrammar

namespace Text

/-- A text cut at its first matching character ends with this character and what follows it. -/
theorem cutAt?_isSuffix_cons {p : Char → Bool} {text before after : Text}
    (h : cutAt? p text = some (before, after)) : ∃ c, c :: after <:+ text := by
  unfold cutAt? at h
  split at h
  · exact absurd h (by simp)
  · rename_i c rest hdrop
    simp only [Option.some.injEq, Prod.mk.injEq] at h
    have hsuffix : c :: rest <:+ text := hdrop ▸ List.dropWhile_suffix _
    exact ⟨c, h.2 ▸ hsuffix⟩

theorem cutAt?_isSuffix {p : Char → Bool} {text before after : Text}
    (h : cutAt? p text = some (before, after)) : after <:+ text := by
  obtain ⟨c, hsuffix⟩ := cutAt?_isSuffix_cons h
  exact (List.suffix_cons c after).trans hsuffix

end Text

namespace Spec

theorem isOption_iff {s : Spec} : s.isOption = true ↔ ∃ flag, s.flag? = some flag := by
  simp only [isOption, Option.isSome_iff_exists]

theorem isOption_of_flag? {s : Spec} {flag : Text} (h : s.flag? = some flag) :
    s.isOption = true := isOption_iff.2 ⟨flag, h⟩

/-- The label of an option is its spelling. -/
theorem label_of_isOption {s : Spec} (h : s.isOption = true) : s.label = s.flag?.getD [] := by
  unfold isOption flag? at h
  unfold label flag?
  cases hname : s.name with
  | flag spelling => rfl
  | positional index =>
    rw [hname] at h
    exact absurd h (by simp)

/-- A specification is either an option or a positional slot. -/
theorem isOption_eq_not_isPositional (s : Spec) : s.isOption = !s.isPositional := by
  unfold isOption isPositional flag? index?
  cases s.name <;> rfl

/-- A slot for the rest of the line is a positional slot. -/
theorem isPositional_of_isUnbounded {s : Spec} (h : s.isUnbounded = true) :
    s.isPositional = true := by
  unfold isUnbounded at h
  unfold isPositional
  rw [beq_iff_eq] at h
  rw [h]
  rfl

theorem takesValue_iff {s : Spec} : s.takesValue = true ↔ s.actions ≠ [] := by
  unfold takesValue
  cases s.actions <;> simp

theorem takesValue_eq_false_iff {s : Spec} : s.takesValue = false ↔ s.actions = [] := by
  unfold takesValue
  cases s.actions <;> simp

end Spec

namespace Line

theorem exactly?_eq_some {members : List Member} {token : Text} {m : Member}
    (h : exactly? members token = some m) : m ∈ members ∧ m.spec.flag? = some token := by
  refine ⟨List.mem_of_find?_eq_some h, ?_⟩
  simpa using List.find?_some h

/-! ### Inline values -/

/-- A word that carries a value for an option is joined from its flag, its delimiter and the value,
for which the option has a slot. -/
theorem inlineValue?_eq_some {token value : Text} {s : Spec}
    (h : inlineValue? token s = some value) :
    ∃ flag, s.flag? = some flag ∧ s.takesValue = true ∧ s.style.acceptsInline = true ∧
      token = flag ++ s.delimiter ++ value := by
  unfold inlineValue? at h
  split at h
  · exact absurd h (by simp)
  · rename_i flag hflag
    split at h
    · rename_i hcond
      simp only [Bool.and_eq_true] at hcond
      exact ⟨flag, hflag, hcond.1.1, hcond.1.2, Text.dropPrefix?_eq_some_iff.1 h⟩
    · exact absurd h (by simp)

theorem mem_inlineFits {members : List Member} {token value : Text} {m : Member}
    (h : (m, value) ∈ inlineFits members token) :
    m ∈ members ∧ inlineValue? token m.spec = some value := by
  obtain ⟨m', hm', hfit⟩ := List.mem_filterMap.1 h
  obtain ⟨value', hvalue, heq⟩ := Option.map_eq_some_iff.1 hfit
  simp only [Prod.mk.injEq] at heq
  obtain ⟨rfl, rfl⟩ := heq
  exact ⟨hm', hvalue⟩

/-! ### Abbreviations -/

/-- What a word abbreviates is a long option that begins with it. -/
theorem mem_abbreviated {members : List Member} {name : Text} {m : Member}
    (h : m ∈ abbreviated members name) :
    m ∈ members ∧ ∃ flag, m.spec.flag? = some flag ∧ ['-', '-'] <+: flag ∧ name <+: flag := by
  obtain ⟨hm, hstarts⟩ := List.mem_filter.1 h
  refine ⟨hm, ?_⟩
  split at hstarts
  · rename_i flag hflag
    rw [Bool.and_eq_true, Text.startsWith_iff, Text.startsWith_iff] at hstarts
    exact ⟨flag, hflag, hstarts⟩
  · exact absurd hstarts Bool.false_ne_true

theorem dashes_of_abbreviation {members : List Member} {token : Text} {isLast : Bool}
    (h : abbreviation members token isLast ≠ .miss) : ['-', '-'] <+: token := by
  cases hstarts : Text.startsWith ['-', '-'] token with
  | true => exact Text.startsWith_iff.1 hstarts
  | false =>
    refine absurd ?_ h
    unfold abbreviation
    rw [hstarts]
    rfl

theorem abbreviation_named {members : List Member} {token : Text} {isLast : Bool} {m : Member}
    (h : abbreviation members token isLast = .named m) : m ∈ abbreviated members token := by
  unfold abbreviation at h
  split at h
  · exact absurd h (by simp)
  · split at h
    · split at h
      · exact absurd h (by simp)
      · split at h <;> exact absurd h (by simp)
      · exact absurd h (by simp)
    · split at h
      · exact absurd h (by simp)
      · split at h
        · exact absurd h (by simp)
        · rename_i m' habbr
          simp only [OptionHit.named.injEq] at h
          rw [← h, habbr]
          exact List.mem_singleton_self m'
        · exact absurd h (by simp)

theorem abbreviation_inline {members : List Member} {token value : Text} {isLast : Bool}
    {m : Member} (h : abbreviation members token isLast = .inline m value) :
    ∃ name, Text.cutAt? (· == '=') token = some (name, value) ∧ m ∈ abbreviated members name ∧
      m.spec.takesValue = true := by
  unfold abbreviation at h
  split at h
  · exact absurd h (by simp)
  · split at h
    · rename_i name value' hcut
      split at h
      · exact absurd h (by simp)
      · rename_i m' habbr
        split at h
        · rename_i htakes
          simp only [OptionHit.inline.injEq] at h
          obtain ⟨rfl, rfl⟩ := h
          rw [Bool.and_eq_true] at htakes
          refine ⟨name, hcut, ?_, htakes.1⟩
          rw [habbr]
          exact List.mem_singleton_self m'
        · exact absurd h (by simp)
      · exact absurd h (by simp)
    · split at h
      · exact absurd h (by simp)
      · split at h <;> exact absurd h (by simp)

/-! ### Options and clusters -/

theorem findOption_named {members : List Member} {token : Text} {isLast : Bool} {m : Member}
    (h : findOption members token isLast = .named m) :
    m ∈ members ∧ m.spec.isOption = true := by
  unfold findOption at h
  split at h
  · rename_i m' hexact
    simp only [OptionHit.named.injEq] at h
    have hfound := exactly?_eq_some hexact
    rw [← h]
    exact ⟨hfound.1, Spec.isOption_of_flag? hfound.2⟩
  · split at h
    · obtain ⟨hm, flag, hflag, -⟩ := mem_abbreviated (abbreviation_named h)
      exact ⟨hm, Spec.isOption_of_flag? hflag⟩
    · exact absurd h (by simp)
    · exact absurd h (by simp)

/-- A word that is no spelling carries a value for an option after its flag and delimiter, or as an
abbreviation. -/
theorem findOption_inline_cases {members : List Member} {token value : Text} {isLast : Bool}
    {m : Member} (h : findOption members token isLast = .inline m value) :
    exactly? members token = none ∧
      ((m ∈ members ∧ inlineValue? token m.spec = some value) ∨
        abbreviation members token isLast = .inline m value) := by
  unfold findOption at h
  split at h
  · exact absurd h (by simp)
  · rename_i hexact
    refine ⟨hexact, ?_⟩
    split at h
    · exact Or.inr h
    · rename_i m' value' hlongest
      simp only [OptionHit.inline.injEq] at h
      obtain ⟨rfl, rfl⟩ := h
      have hfit : (m', value') ∈ longestFits (inlineFits members token) := by
        rw [hlongest]
        exact List.mem_singleton_self _
      exact Or.inl (mem_inlineFits (List.mem_filter.1 hfit).1)
    · exact absurd h (by simp)

theorem findOption_inline {members : List Member} {token value : Text} {isLast : Bool}
    {m : Member} (h : findOption members token isLast = .inline m value) :
    m ∈ members ∧ m.spec.isOption = true ∧ m.spec.takesValue = true ∧ value <:+ token := by
  rcases (findOption_inline_cases h).2 with ⟨hm, hvalue⟩ | habbreviates
  · obtain ⟨flag, hflag, htakes, -, hword⟩ := inlineValue?_eq_some hvalue
    refine ⟨hm, Spec.isOption_of_flag? hflag, htakes, ?_⟩
    rw [hword]
    exact List.suffix_append _ _
  · obtain ⟨name, hcut, habbr, htakes⟩ := abbreviation_inline habbreviates
    obtain ⟨hm, flag, hflag, -⟩ := mem_abbreviated habbr
    exact ⟨hm, Spec.isOption_of_flag? hflag, htakes, Text.cutAt?_isSuffix hcut⟩

/-- If no option is spelled with nothing, a word is longer than the value it carries. -/
theorem length_lt_of_findOption_inline {members : List Member}
    (hflags : ∀ m ∈ members, m.spec.flag? ≠ some []) {token value : Text} {isLast : Bool}
    {m : Member} (h : findOption members token isLast = .inline m value) :
    value.length < token.length := by
  rcases (findOption_inline_cases h).2 with ⟨hm, hvalue⟩ | habbreviates
  · obtain ⟨flag, hflag, -, -, hword⟩ := inlineValue?_eq_some hvalue
    have hpos : 0 < flag.length := by
      refine List.length_pos_iff.2 fun hempty => ?_
      exact hflags m hm (hempty ▸ hflag)
    rw [hword, List.length_append, List.length_append]
    omega
  · obtain ⟨name, hcut, -⟩ := abbreviation_inline habbreviates
    obtain ⟨c, hsuffix⟩ := Text.cutAt?_isSuffix_cons hcut
    exact hsuffix.length_le

/-- A cluster is a dash, the character of an available short option, and something after it. Only
an option with a value slot lets the rest begin with a dash. -/
theorem splitCluster_eq_some {members : List Member} {token rest : Text} {isLast : Bool}
    {m : Member} (h : splitCluster members token isLast = some (m, rest)) :
    ∃ c, token = '-' :: c :: rest ∧ c ≠ '-' ∧ rest ≠ [] ∧ m ∈ members ∧
      m.spec.flag? = some ['-', c] ∧ (m.spec.takesValue = false → rest.head? ≠ some '-') := by
  unfold splitCluster at h
  split at h
  · rename_i c next tail
    split at h
    · exact absurd h (by simp)
    · rename_i hdash
      split at h
      · exact absurd h (by simp)
      · split at h
        · rename_i m' hexact
          split at h
          · exact absurd h (by simp)
          · rename_i hkeep
            simp only [Option.some.injEq, Prod.mk.injEq] at h
            obtain ⟨rfl, rfl⟩ := h
            obtain ⟨hm, hflag⟩ := exactly?_eq_some hexact
            refine ⟨c, rfl, by simpa using hdash, by simp, hm, hflag, ?_⟩
            intro htakes
            simpa [htakes] using hkeep
        · exact absurd h (by simp)
  · exact absurd h (by simp)

/-! ### Operands -/

theorem earlierSlot_eq_or (a b : Member) : earlierSlot a b = a ∨ earlierSlot a b = b := by
  unfold earlierSlot
  split
  · split
    · exact Or.inr rfl
    · exact Or.inl rfl
  · exact Or.inl rfl

theorem foldl_earlierSlot_mem (ms : List Member) (m : Member) :
    ms.foldl earlierSlot m ∈ m :: ms := by
  induction ms generalizing m with
  | nil => exact List.mem_singleton_self m
  | cons a ms ih =>
    rw [List.foldl_cons]
    rcases List.mem_cons.1 (ih (earlierSlot m a)) with heq | hmem
    · rw [heq]
      rcases earlierSlot_eq_or m a with h | h <;> simp [h]
    · exact List.mem_cons_of_mem _ (List.mem_cons_of_mem _ hmem)

theorem firstPositional?_eq_some {members : List Member} {m : Member}
    (h : firstPositional? members = some m) : m ∈ members ∧ m.spec.isPositional = true := by
  unfold firstPositional? at h
  split at h
  · exact absurd h (by simp)
  · rename_i a ms hfilter
    simp only [Option.some.injEq] at h
    have hmem : m ∈ members.filter (fun m => m.spec.isPositional) := by
      rw [hfilter, ← h]
      exact foldl_earlierSlot_mem ms a
    exact List.mem_filter.1 hmem

end Line

end CommandGrammar
