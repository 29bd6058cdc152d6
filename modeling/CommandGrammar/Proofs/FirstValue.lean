import CommandGrammar.Proofs.Causality
import CommandGrammar.Proofs.Composition
import CommandGrammar.Proofs.Joining

/-!
# From an offered flag to its value

An option is offered with its suffix. Whoever accepts the offer and types on has written the flag,
the suffix and the beginning of a value: two words if the suffix is a blank, one word if not. In a
compiled grammar this always leads to the first value slot of the option, whether its descriptor or
another spelling gave it the slot.

* `Grammar.Compiled.exists_split`: no other member is spelled like an option;
* `findOption_joined`: a word joined from flag, delimiter and value carries this value, if no other
  option is a rival;
* `first_value_reached`: what follows the suffix of an offered option is its first value.
-/

namespace CommandGrammar

/-- If the flags of some members are all different, no member but the one is spelled like an
option. -/
theorem exists_split_of_nodup {members : List Member}
    (h : (members.filterMap fun m => m.spec.flag?).Nodup) {m : Member} (hm : m ∈ members)
    {flag : Text} (hflag : m.spec.flag? = some flag) :
    ∃ before after, members = before ++ m :: after ∧
      ∀ other ∈ before ++ after, other.spec.flag? ≠ some flag := by
  obtain ⟨before, after, rfl⟩ := List.append_of_mem hm
  refine ⟨before, after, rfl, fun other hother hsame => ?_⟩
  have hflags : (m :: after).filterMap (fun m => m.spec.flag?)
      = flag :: after.filterMap fun m => m.spec.flag? := List.filterMap_cons_some hflag
  rw [List.filterMap_append, hflags, List.nodup_middle, List.nodup_cons, ← List.filterMap_append]
    at h
  exact h.1 (List.mem_filterMap.2 ⟨other, hother, hsame⟩)

/-- The flags of a compiled grammar are all different. -/
theorem Grammar.Compiled.nodup {g : Grammar} (h : g.Compiled) :
    (g.members.filterMap fun m => m.spec.flag?).Nodup := by
  obtain ⟨options, declarations, hcompile⟩ := h.exists_compile
  have hnodup := nodup_of_compile hcompile
  rwa [Grammar.specs, List.filterMap_map] at hnodup

/-- No member of a compiled grammar but the one is spelled like an option. -/
theorem Grammar.Compiled.exists_split {g : Grammar} (h : g.Compiled) {m : Member}
    (hm : m ∈ g.members) {flag : Text} (hflag : m.spec.flag? = some flag) :
    ∃ before after, g.members = before ++ m :: after ∧
      ∀ other ∈ before ++ after, other.spec.flag? ≠ some flag :=
  exists_split_of_nodup h.nodup hm hflag

namespace Line

/-! ### Words that carry a value -/

/-- Whether a word may be taken for an option instead of another one: it is spelled like that, or
carries a value for it after a flag and a delimiter that are no shorter. -/
def Rivals (word : Text) (s other : Spec) : Prop :=
  ∃ flag ∈ other.flag?, flag = word ∨
    (other.takesValue = true ∧ other.style.acceptsInline = true ∧
      flag ++ other.delimiter <+: word ∧
      (s.label ++ s.delimiter).length ≤ (flag ++ other.delimiter).length)

instance (word : Text) (s other : Spec) : Decidable (Rivals word s other) :=
  inferInstanceAs (Decidable (∃ flag ∈ other.flag?, flag = word ∨ (_ ∧ _ ∧ _ ∧ _)))

/-- For an option that is no rival the word carries a longer value, if any. -/
theorem length_lt_of_not_rivals {s other : Spec} {word value value' : Text}
    (hword : word = s.label ++ s.delimiter ++ value) (hrivals : ¬ Rivals word s other)
    (hvalue' : inlineValue? word other = some value') : value.length < value'.length := by
  obtain ⟨flag, hflag, htakes, hstyle, hword'⟩ := inlineValue?_eq_some hvalue'
  have hshort : ¬ (s.label ++ s.delimiter).length ≤ (flag ++ other.delimiter).length := by
    intro hle
    exact hrivals ⟨flag, hflag, Or.inr ⟨htakes, hstyle, ⟨value', hword'.symm⟩, hle⟩⟩
  have hlength := congrArg List.length (hword.symm.trans hword')
  simp only [List.length_append] at hlength hshort
  omega

theorem filter_eq_singleton {α : Type} {p : α → Bool} {before after : List α} {a : α}
    (ha : p a = true) (hothers : ∀ x ∈ before ++ after, ¬ p x = true) :
    (before ++ a :: after).filter p = [a] := by
  rw [List.forall_mem_append] at hothers
  rw [List.filter_append, List.filter_cons_of_pos ha, List.filter_eq_nil_iff.2 hothers.1,
    List.filter_eq_nil_iff.2 hothers.2]
  rfl

/-- A word joined from flag, delimiter and value carries this value, if there is more of it than the
flag. -/
theorem inlineValue?_joined {s : Spec} {flag value : Text} (hflag : s.flag? = some flag)
    (htakes : s.takesValue = true) (hstyle : s.style.acceptsInline = true)
    (hlonger : flag.length < (flag ++ s.delimiter ++ value).length) :
    inlineValue? (flag ++ s.delimiter ++ value) s = some value := by
  unfold inlineValue?
  rw [hflag]
  simp only [htakes, hstyle, hlonger, decide_true, Bool.and_true, if_true]
  exact Text.dropPrefix?_eq_some_iff.2 rfl

/-- If a word carries the shortest value for one option, this fit is the longest. -/
theorem longestFits_eq_singleton {before after : List Member} {m : Member} {word value : Text}
    (hvalue : inlineValue? word m.spec = some value)
    (hothers : ∀ other ∈ before ++ after, ∀ value', inlineValue? word other.spec = some value' →
      value.length < value'.length) :
    longestFits (inlineFits (before ++ m :: after) word) = [(m, value)] := by
  have hfits : inlineFits (before ++ m :: after) word
      = inlineFits before word ++ (m, value) :: inlineFits after word := by
    unfold inlineFits
    rw [List.filterMap_append, List.filterMap_cons_some (by rw [hvalue]; rfl)]
  have hlonger : ∀ fit ∈ inlineFits before word ++ inlineFits after word,
      value.length < fit.2.length := by
    intro fit hfit
    unfold inlineFits at hfit
    rw [← List.filterMap_append] at hfit
    obtain ⟨hother, hfit⟩ := mem_inlineFits hfit
    exact hothers fit.1 hother fit.2 hfit
  unfold longestFits
  rw [hfits]
  refine filter_eq_singleton ?_ fun fit hfit hall => ?_
  · rw [List.forall_mem_append] at hlonger
    rw [List.all_eq_true, List.forall_mem_append, List.forall_mem_cons]
    refine ⟨fun fit hfit => ?_, decide_eq_true (Nat.le_refl _), fun fit hfit => ?_⟩
    · exact decide_eq_true (Nat.le_of_lt (hlonger.1 fit hfit))
    · exact decide_eq_true (Nat.le_of_lt (hlonger.2 fit hfit))
  · have hle := of_decide_eq_true (List.all_eq_true.1 hall (m, value) (by simp))
    exact absurd (hlonger fit hfit) (Nat.not_lt.2 hle)

/-! ### Words tried as options -/

/-- What begins with the spelling of an option is tried as one, if it is more than a dash. -/
theorem wantsOption_of_flag {members : List Member} {m : Member} (hm : m ∈ members) {flag : Text}
    (hflag : m.spec.flag? = some flag) {flagLike : Bool}
    (hlike : Text.startsWith ['-'] flag = true → flagLike = true) :
    wantsOption members flagLike = true := by
  unfold wantsOption
  cases hdash : Text.startsWith ['-'] flag with
  | true => simp [hlike hdash]
  | false =>
    have hany : members.any (fun m =>
        (m.spec.flag?.map (fun flag => !Text.startsWith ['-'] flag)).getD false) = true :=
      List.any_eq_true.2 ⟨m, hm, by simp [hflag, hdash]⟩
    rw [hany, Bool.or_true]

/-- A word that is tried as an option and does not end the options is read as one. -/
theorem step_eq_readOption {l : Line} {word : Text} (hmarker : word ≠ endOfOptions ∨ l.tokens = [])
    (hwants : wantsOption l.available (isFlagLike word l.tokens.isEmpty) = true) :
    step l false word = ⟨(readOption l word).1, false, (readOption l word).2⟩ := by
  have hkeeps : (!false && word == endOfOptions && !l.tokens.isEmpty) = false := by
    rcases hmarker with hword | htokens
    · simp [hword]
    · simp [htokens]
  unfold step
  simp only [hkeeps, hwants]
  simp

/-! ### The first value of an option -/

/-- Whether a line ends with a text in the first value slot of an option. -/
def EndsInValue (l : Line) (m : Member) (value : Text) : Prop :=
  ∃ r, l.history.getLast? = some r ∧ m.spec.flag? = some r.name ∧ r.member = some m ∧
    r.slot = some 0 ∧ m.spec.actions.head? = some r.action ∧ r.stub = value

section FirstValue

variable (lookup : Text → Option Grammar) {before after : List Member} {m : Member} {flag : Text}
  (hflag : m.spec.flag? = some flag)

include hflag

/-- A spelling that no other option has names its option. -/
theorem findOption_flag (hothers : ∀ other ∈ before ++ after, other.spec.flag? ≠ some flag)
    (isLast : Bool) : findOption (before ++ m :: after) flag isLast = .named m := by
  have hbefore : before.find? (fun m => m.spec.flag? == some flag) = none := by
    refine List.find?_eq_none.2 fun other hother => ?_
    simpa using hothers other (List.mem_append_left after hother)
  have hexact : exactly? (before ++ m :: after) flag = some m := by
    rw [exactly?, List.find?_append, hbefore, List.find?_cons_of_pos (by simp [hflag])]
    rfl
  unfold findOption
  rw [hexact]

/-- A word joined from flag, delimiter and value carries this value, if it has no rivals among the
other options. -/
theorem findOption_joined {value : Text} (hvalue : m.spec.delimiter ++ value ≠ [])
    (htakes : m.spec.takesValue = true) (hstyle : m.spec.style.acceptsInline = true)
    (hothers : ∀ other ∈ before ++ after,
      ¬ Rivals (flag ++ m.spec.delimiter ++ value) m.spec other.spec) (isLast : Bool) :
    findOption (before ++ m :: after) (flag ++ m.spec.delimiter ++ value) isLast
      = .inline m value := by
  have hlabel : m.spec.label = flag := by
    rw [Spec.label_of_isOption (Spec.isOption_of_flag? hflag), hflag]
    rfl
  have hlonger : flag.length < (flag ++ m.spec.delimiter ++ value).length := by
    have hpos := List.length_pos_iff.2 hvalue
    rw [List.append_assoc, List.length_append]
    omega
  have hexact : exactly? (before ++ m :: after) (flag ++ m.spec.delimiter ++ value) = none := by
    refine List.find?_eq_none.2 fun other hother hsame => ?_
    rw [beq_iff_eq] at hsame
    rcases List.mem_append.1 hother with hother | hother
    · exact hothers other (List.mem_append_left _ hother) ⟨_, hsame, Or.inl rfl⟩
    · rcases List.mem_cons.1 hother with rfl | hother
      · rw [hflag, Option.some.injEq] at hsame
        rw [← hsame] at hlonger
        exact absurd hlonger (Nat.lt_irrefl _)
      · exact hothers other (List.mem_append_right _ hother) ⟨_, hsame, Or.inl rfl⟩
  have hfit := inlineValue?_joined hflag htakes hstyle hlonger
  have hlongest := longestFits_eq_singleton hfit fun other hother value' hvalue' =>
    length_lt_of_not_rivals (by rw [hlabel]) (hothers other hother) hvalue'
  unfold findOption
  rw [hexact]
  dsimp only
  rw [hlongest]

variable (hplain : m.spec.embedded = none) {action : Action} {actions : List Action}
  (hactions : m.spec.actions = action :: actions)

include hactions

theorem endsInValue_of_valueRecord {l : Line} {value : Text} (number : Nat)
    (hlast : l.history.getLast? = some (valueRecord m number 0 action [] value)) :
    EndsInValue l m value := by
  refine ⟨_, hlast, ?_, rfl, rfl, ?_, rfl⟩
  · show m.spec.flag? = some (m.spec.flag?.getD [])
    rw [hflag]
    rfl
  · rw [hactions]
    rfl

include hplain

/-- The word after the flag is the value. -/
theorem endsInValue_named (hothers : ∀ other ∈ before ++ after, other.spec.flag? ≠ some flag)
    (hdash : flag ≠ ['-']) (hmarker : flag ≠ endOfOptions) {value : Text}
    (hstyle : m.spec.style ≠ .inline)
    (hvalue : m.spec.valueOptional = true → isFlagLike value true = false) :
    EndsInValue (parse lookup [flag, value] (before ++ m :: after)) m value := by
  have hlike : Text.startsWith ['-'] flag = true → isFlagLike flag false = true := by
    intro hstarts
    obtain ⟨tail, rfl⟩ := Text.startsWith_iff.1 hstarts
    cases tail with
    | nil => exact absurd rfl hdash
    | cons c tail => rfl
  have hm : m ∈ before ++ m :: after := by simp
  have hwants := wantsOption_of_flag hm hflag hlike
  have htakes : (Pause.afterName { tokens := [], available := before ++ m :: after } false m
      flag).takes value true = true := by
    have hkeeps : (m.spec.valueOptional && (m.spec.style == .inline || isFlagLike value true))
        = false := by
      cases hoptional : m.spec.valueOptional with
      | false => rfl
      | true => simp [hstyle, hvalue hoptional]
    simp [Pause.takes, Pause.afterName, hactions, hkeeps]
  have hstep : step { tokens := [value], available := before ++ m :: after } false flag
      = ⟨(Pause.afterName { tokens := [], available := before ++ m :: after } false m
          flag).supplied [value], false, none⟩ := by
    have hread : acceptNamed { tokens := [value], available := before ++ m :: after } m flag
        = ((Pause.afterName { tokens := [], available := before ++ m :: after } false m
            flag).supplied [value], none) :=
      Pause.acceptNamed_eq_supplied (l := { tokens := [], available := before ++ m :: after })
        false [value] hplain
    rw [step_eq_readOption (Or.inl hmarker) hwants,
      readOption_named (findOption_flag hflag hothers _), hread]
  refine endsInValue_of_valueRecord hflag hactions 0 ?_
  rw [parse, run_cons lookup _ false flag [value] rfl, hstep, Pause.supplied_of_takes htakes,
    run_settled_of_done rfl (by rw [Pause.supplied_nil]), Pause.supplied_nil]
  simp only [Pause.filled, Pause.afterName, hactions]
  exact List.getLast?_concat

/-- The rest of the word after the flag and the delimiter is the value. -/
theorem endsInValue_inline {value : Text} (hvalue : m.spec.delimiter ++ value ≠ [])
    (hstyle : m.spec.style.acceptsInline = true)
    (hothers : ∀ other ∈ before ++ after,
      ¬ Rivals (flag ++ m.spec.delimiter ++ value) m.spec other.spec) :
    EndsInValue (parse lookup [flag ++ m.spec.delimiter ++ value] (before ++ m :: after)) m
      value := by
  have hlike : Text.startsWith ['-'] flag = true →
      isFlagLike (flag ++ m.spec.delimiter ++ value) true = true := by
    intro hstarts
    obtain ⟨tail, rfl⟩ := Text.startsWith_iff.1 hstarts
    exact Bool.or_true _
  have hm : m ∈ before ++ m :: after := by simp
  have hwants := wantsOption_of_flag hm hflag hlike
  have htakes : m.spec.takesValue = true := Spec.takesValue_iff.2 (by simp [hactions])
  have hstep : step { tokens := [], available := before ++ m :: after } false
        (flag ++ m.spec.delimiter ++ value)
      = ⟨(Pause.afterInline { tokens := [], available := before ++ m :: after } false m action
          value).supplied [], false, none⟩ := by
    have hread : acceptInline { tokens := [], available := before ++ m :: after } m value
        = ((Pause.afterInline { tokens := [], available := before ++ m :: after } false m action
            value).supplied [], none) :=
      Pause.acceptInline_eq_supplied (l := { tokens := [], available := before ++ m :: after })
        false [] hplain hactions value
    rw [step_eq_readOption (Or.inr rfl) hwants,
      readOption_inline (findOption_joined hflag hvalue htakes hstyle hothers _), hread]
  refine endsInValue_of_valueRecord hflag hactions 0 ?_
  rw [parse, run_cons lookup _ false _ [] rfl, hstep,
    run_settled_of_done rfl (by rw [Pause.supplied_nil]), Pause.supplied_nil]
  exact List.getLast?_concat

end FirstValue

/-- **From an offered flag to its value.** In a compiled grammar an option with a value slot is
followed by its first value: after a suffix that is a blank the value is the next word, unless the
option may do without it and the word looks like an option; after any other suffix it is the rest
of the word, unless another option is a rival for this word. -/
theorem first_value_reached (lookup : Text → Option Grammar) {g : Grammar} (h : g.Compiled)
    {m : Member} (hm : m ∈ g.members) {flag : Text} (hflag : m.spec.flag? = some flag)
    (htakes : m.spec.takesValue = true) (hplain : m.spec.embedded = none) (value : Text) :
    (flag ≠ ['-'] → flag ≠ endOfOptions → m.spec.suffix = [' '] →
        (m.spec.valueOptional = true → isFlagLike value true = false) →
        EndsInValue (parse lookup [flag, value] g.members) m value) ∧
      (m.spec.suffix ≠ [' '] → (m.spec.suffix = [] → value ≠ []) →
        (∀ other ∈ g.members, other ≠ m →
          ¬ Rivals (flag ++ m.spec.suffix ++ value) m.spec other.spec) →
        EndsInValue (parse lookup [flag ++ m.spec.suffix ++ value] g.members) m value) := by
  obtain ⟨before, after, hmembers, hothers⟩ := h.exists_split hm hflag
  obtain ⟨action, actions, hactions⟩ := List.exists_cons_of_ne_nil (Spec.takesValue_iff.1 htakes)
  rw [hmembers]
  constructor
  · intro hdash hmarker hsuffix hvalue
    have hstyle : m.spec.style ≠ .inline := by
      rcases (h.joined m hm).joins with ⟨-, hstyle⟩ | ⟨-, -, hne⟩
      · exact hstyle
      · exact absurd hsuffix hne
    exact endsInValue_named lookup hflag hplain hactions hothers hdash hmarker hstyle hvalue
  · intro hsuffix hvalue hrivals
    obtain ⟨hstyle, hdelimiter⟩ : m.spec.style.acceptsInline = true ∧
        m.spec.suffix = m.spec.delimiter := by
      rcases (h.joined m hm).joins with ⟨hblank, -⟩ | ⟨hstyle, hdelimiter, -⟩
      · exact absurd hblank hsuffix
      · exact ⟨hstyle, hdelimiter⟩
    rw [hdelimiter] at hvalue hrivals ⊢
    refine endsInValue_inline lookup hflag hplain hactions ?_ hstyle fun other hother => ?_
    · intro hempty
      obtain ⟨hnone, hempty⟩ := List.append_eq_nil_iff.1 hempty
      exact hvalue hnone hempty
    · have hmem : other ∈ before ++ m :: after := by
        rcases List.mem_append.1 hother with hother | hother
        · exact List.mem_append_left _ hother
        · exact List.mem_append_right _ (List.mem_cons_of_mem m hother)
      refine hrivals other hmem fun hsame => ?_
      exact hothers other hother (hsame ▸ hflag)

/-- A command with two options, either of them with a short and a long spelling. -/
def renderGrammar : Grammar :=
  let format : Action :=
    { metavar := "\x7bjson,yaml\x7d".toList
      source := .literal ["json".toList, "yaml".toList] }
  let color : Action :=
    { metavar := "\x7bauto,never\x7d".toList
      source := .literal ["auto".toList, "never".toList] }
  .ofSpecs "render".toList
    [{ name := .flag "-f".toList, aliases := ["--format".toList], style := .separateOrInline,
        actions := [format] },
      { name := .flag "--format".toList, aliases := ["-f".toList], style := .separateOrInline,
        delimiter := ['='], suffix := ['='], actions := [format] },
      { name := .flag "-c".toList, aliases := ["--color".toList], style := .inline, suffix := [],
        valueOptional := true, actions := [color] },
      { name := .flag "--color".toList, aliases := ["-c".toList], style := .inline,
        delimiter := ['='], suffix := ['='], valueOptional := true, actions := [color] }] []

theorem renderGrammar_compiled : renderGrammar.Compiled := by
  have h : compileGrammar {} "render".toList
      [.option "-f, --format=\x7bjson,yaml\x7d".toList,
        .option "-c, --color[=\x7bauto,never\x7d]".toList] = .ok renderGrammar := rfl
  exact Grammar.compiled_of_compileGrammar h

/-- The short spellings take their values from the next word and from the rest of the word. -/
theorem first_value_reached_render :
    ∃ format color, format ∈ renderGrammar.members ∧ color ∈ renderGrammar.members ∧
      format.spec.flag? = some "-f".toList ∧ color.spec.flag? = some "-c".toList ∧
      EndsInValue (parse listLookup ["-f".toList, "js".toList] renderGrammar.members) format
        "js".toList ∧
      EndsInValue (parse listLookup ["-cau".toList] renderGrammar.members) color "au".toList := by
  obtain ⟨format, hformat, hf⟩ : ∃ m ∈ renderGrammar.members, m.spec.flag? = some "-f".toList ∧
      m.spec.takesValue = true ∧ m.spec.embedded = none ∧ m.spec.suffix = [' '] ∧
      m.spec.valueOptional = false := by decide
  obtain ⟨color, hcolor, hc⟩ : ∃ m ∈ renderGrammar.members, m.spec.flag? = some "-c".toList ∧
      m.spec.takesValue = true ∧ m.spec.embedded = none ∧ m.spec.suffix = [] ∧
      ∀ other ∈ renderGrammar.members, other ≠ m →
        ¬ Rivals "-cau".toList m.spec other.spec := by decide
  refine ⟨format, color, hformat, hcolor, hf.1, hc.1, ?_, ?_⟩
  · exact (first_value_reached listLookup renderGrammar_compiled hformat hf.1 hf.2.1 hf.2.2.1
      "js".toList).1 (by decide) (by decide) hf.2.2.2.1 (by simp [hf.2.2.2.2])
  · obtain ⟨hflag, htakes, hplain, hsuffix, hrivals⟩ := hc
    have hread := (first_value_reached listLookup renderGrammar_compiled hcolor hflag htakes hplain
      "au".toList).2
    rw [hsuffix] at hread
    exact hread (by decide) (fun _ => by decide) hrivals

end Line

end CommandGrammar
