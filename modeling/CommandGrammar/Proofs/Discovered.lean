import CommandGrammar.Proofs.Composition
import CommandGrammar.Session.Discovery

/-!
# Grammars made from any page

What help pages say can be anything: an entry may be no descriptor at all, and two entries may
declare one spelling. Each entry is tried on its own, but the entries kept are compiled once more,
all of them together and with a slot for operands behind them; that second compilation could refuse
a list whose parts are all fine, and the page would be lost as a whole. It refuses none, and adds
nothing of its own.

* `Kept`: which entries are kept, told entry by entry;
* `compile_kept`: the kept entries compile together, each to what it compiles to alone;
* `grammarOf_entries`: so every list of entries makes a grammar, and this is the grammar.
-/

namespace CommandGrammar

namespace Discovery

/-! ### Entries on their own -/

def declared (e : OptionEntry) : Declaration := .option e.descriptor

/-- What an entry compiles to on its own; nothing if it does not compile. -/
def specsAlone (options : CompileOptions) (e : OptionEntry) : List Spec :=
  match compile options [declared e] with
  | .ok specs => specs
  | .error _ => []

def spellings (options : CompileOptions) (e : OptionEntry) : List Text :=
  (specsAlone options e).filterMap Spec.flag?

/-- An entry can join those kept before it if it compiles on its own and shares no spelling with
any of them. -/
structure Admits (options : CompileOptions) (kept : List OptionEntry) (e : OptionEntry) :
    Prop where
  compiles : ∃ specs, compile options [declared e] = .ok specs
  fresh : ∀ earlier ∈ kept, (spellings options earlier).Disjoint (spellings options e)

/-- The entries kept of a list: each one that those kept before it admit, and no other. -/
inductive Kept (options : CompileOptions) : List OptionEntry → List OptionEntry → Prop
  | nil : Kept options [] []
  | take {entries kept : List OptionEntry} {e : OptionEntry} :
      Kept options entries kept → Admits options kept e →
      Kept options (entries ++ [e]) (kept ++ [e])
  | skip {entries kept : List OptionEntry} {e : OptionEntry} :
      Kept options entries kept → ¬ Admits options kept e → Kept options (entries ++ [e]) kept

theorem kept_concat {options : CompileOptions} {entries out : List OptionEntry} {e : OptionEntry}
    (h : Kept options (entries ++ [e]) out) :
    ∃ kept, Kept options entries kept ∧
      (Admits options kept e ∧ out = kept ++ [e] ∨ ¬ Admits options kept e ∧ out = kept) := by
  generalize hall : entries ++ [e] = all at h
  cases h with
  | nil => simp at hall
  | take h hadmits =>
    obtain ⟨rfl, heq⟩ := List.append_inj' hall rfl
    obtain rfl := List.singleton_injective heq
    exact ⟨_, h, Or.inl ⟨hadmits, rfl⟩⟩
  | skip h hout =>
    obtain ⟨rfl, heq⟩ := List.append_inj' hall rfl
    obtain rfl := List.singleton_injective heq
    exact ⟨_, h, Or.inr ⟨hout, rfl⟩⟩

/-- Which entries are kept is settled by the list. -/
theorem Kept.unique {options : CompileOptions} {entries kept : List OptionEntry}
    (h : Kept options entries kept) : ∀ {other}, Kept options entries other → other = kept := by
  induction h with
  | nil =>
    intro other hother
    generalize hall : ([] : List OptionEntry) = all at hother
    cases hother with
    | nil => rfl
    | take => simp at hall
    | skip => simp at hall
  | take _ hadmits ih =>
    intro other hother
    obtain ⟨kept, hkept, ⟨-, rfl⟩ | ⟨hout, rfl⟩⟩ := kept_concat hother
    · rw [ih hkept]
    · exact absurd (ih hkept ▸ hadmits) hout
  | skip _ hout ih =>
    intro other hother
    obtain ⟨kept, hkept, ⟨hadmits, rfl⟩ | ⟨-, rfl⟩⟩ := kept_concat hother
    · exact absurd (ih hkept ▸ hadmits) hout
    · exact ih hkept

theorem specsAlone_eq {options : CompileOptions} {e : OptionEntry} {specs : List Spec}
    (h : compile options [declared e] = .ok specs) : specsAlone options e = specs := by
  rw [specsAlone, h]

/-- The spellings of several entries are those of their specifications in a row. -/
theorem flags_flatMap (options : CompileOptions) (entries : List OptionEntry) :
    (entries.flatMap (specsAlone options)).filterMap Spec.flag?
      = entries.flatMap (spellings options) := List.filterMap_flatMap

theorem flagsOf?_eq_some {options : CompileOptions} {e : OptionEntry}
    (h : ∃ specs, compile options [declared e] = .ok specs) :
    flagsOf? options e = some (spellings options e) := by
  obtain ⟨specs, h⟩ := h
  rw [spellings, specsAlone_eq h]
  unfold flagsOf?
  rw [show compile options [.option e.descriptor] = .ok specs from h]

theorem flagsOf?_eq_none {options : CompileOptions} {e : OptionEntry}
    (h : ¬ ∃ specs, compile options [declared e] = .ok specs) : flagsOf? options e = none := by
  unfold flagsOf?
  split
  · exact absurd ⟨_, ‹_›⟩ h
  · rfl

/-- No kept entry has a spelling of an entry exactly if no spelling of it was seen with them. -/
theorem fresh_iff {options : CompileOptions} {kept : List OptionEntry} {e : OptionEntry} :
    (∀ earlier ∈ kept, (spellings options earlier).Disjoint (spellings options e)) ↔
      (spellings options e).any (kept.flatMap (spellings options)).contains = false := by
  rw [List.any_eq_false]
  simp only [List.contains_iff_mem, List.mem_flatMap, not_exists, not_and]
  constructor
  · intro h flag hflag earlier hearlier hmem
    exact h earlier hearlier hmem hflag
  · intro h earlier hearlier flag hmem hflag
    exact h flag hflag earlier hearlier hmem

/-! ### The kept entries together -/

theorem compile_nil (options : CompileOptions) : compile options [] = .ok [] := by
  show Except.ok (if options.noSharing then [] else shareAliases []) = .ok []
  rw [show shareAliases [] = [] from rfl, ite_self]

/-- **Kept entries compile together**, each of them to what it compiles to on its own. -/
theorem compile_kept {options : CompileOptions} {entries kept : List OptionEntry}
    (h : Kept options entries kept) :
    compile options (kept.map declared) = .ok (kept.flatMap (specsAlone options)) := by
  induction h with
  | nil => exact compile_nil options
  | skip _ _ ih => exact ih
  | take _ hadmits ih =>
    obtain ⟨specs, hspecs⟩ := hadmits.compiles
    rw [List.map_append, List.flatMap_append, compile_append_iff]
    refine ⟨_, specs, ih, hspecs, ?_, ?_⟩
    · rw [flags_flatMap]
      intro flag hkept hflag
      obtain ⟨earlier, hearlier, hmem⟩ := List.mem_flatMap.1 hkept
      refine hadmits.fresh earlier hearlier hmem ?_
      rwa [spellings, specsAlone_eq hspecs]
    · rw [List.flatMap_singleton, specsAlone_eq hspecs]

/-! ### The slot for operands behind them -/

/-- The slot that takes the operands of a program: all that is left, by default file names. -/
def operandsSpec : Spec :=
  { name := .positional .rest, actions := [Action.guessed "FILE".toList] }

/-- The slot for operands compiles to itself whatever the options are: it is nobody's alias, has no
spelling to share, and its guess stays open. -/
theorem compile_operands (options : CompileOptions) :
    compile options [operands] = .ok [operandsSpec] := by
  have hown : operands.compile options = .ok [operandsSpec] := rfl
  have hnormal : normalize options [operandsSpec]
      = .ok (if options.noSharing then [operandsSpec] else shareAliases [operandsSpec]) := rfl
  rw [compile, compileEach_singleton, hown]
  show normalize options [operandsSpec] = _
  rw [hnormal, show shareAliases [operandsSpec] = [operandsSpec] from rfl, ite_self]

/-! ### The grammar of a page -/

/-- What the loop over the entries declares are the kept entries: `seen` are the spellings of those
kept so far. -/
theorem accepted_of_kept {options : CompileOptions} (entries : List OptionEntry) :
    ∀ {before kept : List OptionEntry}, Kept options before kept →
      ∃ later, Kept options (before ++ entries) (kept ++ later) ∧
        accepted options (kept.flatMap (spellings options)) entries = later.map declared := by
  induction entries with
  | nil =>
    intro before kept h
    exact ⟨[], by simpa using h, rfl⟩
  | cons e entries ih =>
    intro before kept h
    have hsplit : before ++ e :: entries = (before ++ [e]) ++ entries := by simp
    rw [hsplit]
    unfold accepted
    by_cases hcompiles : ∃ specs, compile options [declared e] = .ok specs
    · rw [flagsOf?_eq_some hcompiles]
      by_cases hfresh : (spellings options e).any (kept.flatMap (spellings options)).contains = true
      · -- A spelling of the entry was seen before.
        have hout : ¬ Admits options kept e := fun hadmits => by
          rw [fresh_iff.1 hadmits.fresh] at hfresh
          exact absurd hfresh Bool.false_ne_true
        obtain ⟨later, hkept, haccepted⟩ := ih (h.skip hout)
        refine ⟨later, hkept, ?_⟩
        simpa only [hfresh, if_true] using haccepted
      · rw [Bool.not_eq_true] at hfresh
        obtain ⟨later, hkept, haccepted⟩ := ih (h.take ⟨hcompiles, fresh_iff.2 hfresh⟩)
        refine ⟨e :: later, by simpa using hkept, ?_⟩
        rw [List.flatMap_append, List.flatMap_singleton] at haccepted
        simp only [hfresh, Bool.false_eq_true, if_false, List.map_cons, haccepted]
        rfl
    · rw [flagsOf?_eq_none hcompiles]
      exact ih (h.skip fun hadmits => hcompiles hadmits.compiles)

/-- **Every page makes a grammar.** Whatever its entries are, it is settled which of them are kept,
and the grammar is made of these, each compiled on its own, one after the other, with the slot for
operands behind them. -/
theorem grammarOf_entries (options : CompileOptions) (program : Text)
    (entries : List OptionEntry) :
    ∃ kept, (∀ other, Kept options entries other ↔ other = kept) ∧
      grammarOf options program entries = .ok (Grammar.ofSpecs program
        (kept.flatMap (specsAlone options) ++ [operandsSpec]) options.guesses) := by
  have hnil : Kept options [] [] := .nil
  obtain ⟨kept, hkept, haccepted⟩ := accepted_of_kept entries hnil
  rw [List.nil_append, List.nil_append] at hkept
  have hcompile : compile options (kept.map declared ++ [operands])
      = .ok (kept.flatMap (specsAlone options) ++ [operandsSpec]) := by
    rw [compile_append_iff]
    refine ⟨_, _, compile_kept hkept, compile_operands options, ?_, rfl⟩
    -- The slot has no spelling.
    exact List.disjoint_nil_right _
  refine ⟨kept, fun other => ⟨hkept.unique, fun h => h ▸ hkept⟩, ?_⟩
  unfold grammarOf compileGrammar
  rw [show accepted options [] entries = kept.map declared from haccepted, hcompile]
  rfl

end Discovery

end CommandGrammar
