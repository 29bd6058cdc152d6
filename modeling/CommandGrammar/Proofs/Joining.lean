import CommandGrammar.Proofs.Compiled
import CommandGrammar.Proofs.Sharing

/-!
# How flags and values are joined

Style, delimiter and suffix of a specification come out of the surface form of its spelling, and
sharing works them out anew when a spelling takes the slots of another one. Whatever way they came
about, they fit together: after its flag and a blank a value stands in a word of its own, and any
other suffix is the delimiter that joins flag and value in one word. And a flag ends where the
descriptor of its value begins, so no character of it but the first could begin one.

* `joined_of_parseSpelling`: this is so for the surface form of a spelling;
* `Spec.Joined.shareWith`: sharing keeps it, across length classes too;
* `Grammar.Compiled.joined`: so it holds of all members of a compiled grammar.
-/

namespace CommandGrammar

/-! ### Styles, delimiters and suffixes that fit together -/

/-- Whether a suffix leads to where a style and a delimiter expect the first value: to the next word
after a blank, or to the place after the delimiter. -/
def Joins (style : ValueStyle) (delimiter suffix : Text) : Prop :=
  (suffix = [' '] ∧ style ≠ .inline) ∨
    (style.acceptsInline = true ∧ suffix = delimiter ∧ suffix ≠ [' '])

theorem joins_separate (delimiter : Text) : Joins .separate delimiter [' '] :=
  Or.inl ⟨rfl, fun h => nomatch h⟩

theorem joins_inline {style : ValueStyle} (h : style.acceptsInline = true) {delimiter : Text}
    (hdelimiter : delimiter ≠ [' ']) : Joins style delimiter delimiter :=
  Or.inr ⟨h, rfl, hdelimiter⟩

/-- The suffix derived for a length class fits the delimiter derived for it. -/
theorem joins_flagSuffix (style : ValueStyle) (long : Bool) :
    Joins style (if style == .separate then [] else inlineDelimiter long)
      (flagSuffix style (if style == .separate then [] else inlineDelimiter long) long) := by
  unfold Joins
  cases style <;> cases long <;> decide

namespace Descriptor

/-! ### Surface forms -/

/-- Whether a flag ends before the first character that could begin the descriptor of a value; its
first character belongs to it in any case. -/
def EndsBefore (flag : Text) : Prop := ∀ c ∈ flag.tail, endsFlag c = false

theorem endsBefore_splitFlag (spelling : Text) : EndsBefore (splitFlag spelling).1 := by
  intro c hc
  unfold splitFlag at hc
  split at hc
  · exact absurd hc List.not_mem_nil
  · simpa using List.all_eq_true.1 List.all_takeWhile c hc

theorem joins_of_flagSyntax? {flag rest : Text} {form : FlagSyntax}
    (h : flagSyntax? flag rest = some form) :
    form.flag = flag ∧ Joins form.style form.delimiter form.suffix := by
  have hequals : (['='] : Text) ≠ [' '] := by decide
  have hempty : ([] : Text) ≠ [' '] := by decide
  unfold flagSyntax? at h
  split at h
  · obtain rfl := Option.some.inj h
    exact ⟨rfl, joins_separate _⟩
  · obtain ⟨inner, -, rfl⟩ := Option.map_eq_some_iff.1 h
    exact ⟨rfl, joins_inline rfl hequals⟩
  · obtain rfl := Option.some.inj h
    exact ⟨rfl, joins_inline rfl hequals⟩
  · obtain ⟨inner, -, rfl⟩ := Option.map_eq_some_iff.1 h
    exact ⟨rfl, joins_inline rfl hempty⟩
  · split at h
    · obtain rfl := Option.some.inj h
      exact ⟨rfl, joins_inline rfl hempty⟩
    · obtain rfl := Option.some.inj h
      exact ⟨rfl, joins_separate _⟩

theorem joined_of_parseSpelling {spelling : Text} {form : FlagSyntax}
    (h : parseSpelling spelling = .ok form) :
    EndsBefore form.flag ∧ Joins form.style form.delimiter form.suffix := by
  unfold parseSpelling at h
  dsimp only at h
  split at h
  · exact absurd h (by simp)
  · split at h
    · rename_i hsyntax
      obtain rfl := Except.ok.inj h
      obtain ⟨hflag, hjoins⟩ := joins_of_flagSyntax? hsyntax
      rw [hflag]
      exact ⟨endsBefore_splitFlag _, hjoins⟩
    · exact absurd h (by simp)

end Descriptor

/-! ### Specifications -/

/-- Whether a specification has the flag and the joints that a descriptor gives. -/
structure Spec.Joined (s : Spec) : Prop where
  flag : ∀ flag, s.flag? = some flag → Descriptor.EndsBefore flag
  joins : Joins s.style s.delimiter s.suffix

theorem Spec.Joined.settle {s : Spec} (h : s.Joined) (hints : List GuessRule) :
    (settle hints s).Joined := by
  unfold CommandGrammar.settle
  split
  · exact h
  · exact ⟨h.flag, h.joins⟩

/-- A donor of the same length class gives its joints away, one of the other class its style. -/
theorem Spec.Joined.receive {s donor : Spec} (h : s.Joined) (hdonor : donor.Joined) :
    (s.receive donor).Joined := by
  refine ⟨h.flag, ?_⟩
  show Joins donor.style (s.receivedDelimiter donor) (s.receivedSuffix donor)
  unfold receivedSuffix receivedDelimiter
  split
  · exact hdonor.joins
  · exact joins_flagSuffix donor.style s.isLong

theorem Spec.Joined.shareWith {s : Spec} (h : s.Joined) {donors : List Spec}
    (hdonors : ∀ d ∈ donors, d.Joined) : (s.shareWith donors).Joined := by
  rcases Spec.shareWith_cases donors s with ⟨hself, -⟩ | ⟨-, d, hd, hreceive⟩
  · rwa [hself]
  · rw [hreceive]
    exact h.receive (hdonors d hd)

theorem joined_of_declaration {options : CompileOptions} {d : Declaration} {specs : List Spec}
    (h : d.compile options = .ok specs) : ∀ s ∈ specs, s.Joined := by
  intro s hs
  obtain ⟨excludes, embedded, hoption | hpositional⟩ := compile_cases h
  · obtain ⟨forms, hforms, -, hspells⟩ := spells_of_compileOption hoption
    obtain ⟨form, hmem, hform⟩ := hspells s hs
    obtain ⟨spelling, -, hparse⟩ := exists_of_mem_mapM hforms form hmem
    obtain ⟨hflag, hjoins⟩ := Descriptor.joined_of_parseSpelling hparse
    refine ⟨fun flag hspelled => ?_, ?_⟩
    · rw [hform.flag?] at hspelled
      exact Option.some.inj hspelled ▸ hflag
    · rw [hform.style, hform.delimiter, hform.suffix]
      exact hjoins
  · obtain ⟨s', index, rfl, hname, -, -, hstyle, hsuffix⟩ :=
      eq_singleton_of_compilePositional hpositional
    obtain rfl := List.mem_singleton.1 hs
    refine ⟨fun flag hspelled => ?_, ?_⟩
    · simp [Spec.flag?, hname] at hspelled
    · rw [hstyle, hsuffix]
      exact joins_separate _

/-- **In a compiled grammar flags and values are joined as descriptors say.** -/
theorem Grammar.Compiled.joined {g : Grammar} (h : g.Compiled) :
    ∀ m ∈ g.members, m.spec.Joined :=
  h.forall_mem (fun _ _ _ hd _ => joined_of_declaration hd) (fun hints _ hs => hs.settle hints)
    fun _ _ hdonors hs => hs.shareWith hdonors

end CommandGrammar
