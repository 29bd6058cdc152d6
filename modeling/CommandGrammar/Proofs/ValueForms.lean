import CommandGrammar.Proofs.Availability
import CommandGrammar.Proofs.Interchange

/-!
# A value joined to its flag or standing alone

The first value of an option is the word after its flag, or the rest of the word that begins with
the flag and the delimiter. The two forms are matched by different functions: the one records the
name and takes all its values from the words that follow, the other records the first value and
takes the rest. From the second slot on they do the same, with the same values before them and under
the same number, so all that is left of the difference is the record of the name. It says nothing
about values: it belongs to the match whose first value follows, and leaves no trace in the context.

* `findOption_spelled`, `findOption_unrivalled`: the option that either form names;
* `step_spelled`, `step_joined`: the word of either form;
* `acceptInline_eq_matched`, `acceptNamed_eq_matched`: the match of either form;
* `run_of_name`: the words after the match;
* `Context.ofHistory_name`: the context does not see the record of the name;
* `value_forms_agree`: the whole line.
-/

namespace CommandGrammar

/-! ### The record of a name, among others -/

/-- What a context learns of a match: its number, its names and its values. -/
def Usage.gist (u : Usage) : Nat × List Text × List Text :=
  (u.record.occurrence, u.names, u.values)

/-- One more record is told by the gist of the matches after it. -/
theorem Usage.gist_cons (r : Record) {rs rs' : List Record}
    (h : (ofMatches rs).map gist = (ofMatches rs').map gist) :
    (ofMatches (r :: rs)).map gist = (ofMatches (r :: rs')).map gist := by
  rw [ofMatches, ofMatches]
  cases hrs : ofMatches rs with
  | nil =>
    rw [hrs] at h
    rw [List.map_eq_nil_iff.1 h.symm]
  | cons u us =>
    cases hrs' : ofMatches rs' with
    | nil =>
      rw [hrs, hrs'] at h
      exact absurd h (List.cons_ne_nil _ _)
    | cons u' us' =>
      rw [hrs, hrs', List.map_cons, List.map_cons, List.cons.injEq] at h
      obtain ⟨hfirst, hothers⟩ := h
      have hnumber : u.record.occurrence = u'.record.occurrence := congrArg Prod.fst hfirst
      have hvalues : u.values = u'.values := congrArg (fun g => g.2.2) hfirst
      dsimp only
      rw [hnumber]
      split
      · rw [List.map_cons, List.map_cons, hothers, hvalues]
      · rw [List.map_cons, List.map_cons, List.map_cons, List.map_cons, hothers, hfirst]

/-- A record before another one of its match adds nothing to the gist. -/
theorem Usage.gist_name {name first : Record} (hnumber : first.occurrence = name.occurrence)
    (hname : first.name = name.name) (hmember : first.member = name.member)
    (before after : List Record) :
    (ofMatches (before ++ name :: first :: after)).map gist
      = (ofMatches (before ++ first :: after)).map gist := by
  induction before with
  | cons r before ih => exact gist_cons r ih
  | nil =>
    obtain ⟨values, usages, hfirst⟩ : ∃ values usages,
        ofMatches (first :: after) = ⟨first, values⟩ :: usages := by
      rw [ofMatches]
      split
      · exact ⟨_, _, rfl⟩
      · split
        · exact ⟨_, _, rfl⟩
        · exact ⟨_, _, rfl⟩
    rw [List.nil_append, List.nil_append, ofMatches, hfirst]
    dsimp only
    rw [if_pos hnumber, List.map_cons, List.map_cons]
    simp only [gist, names, hnumber, hname, hmember]

theorem nextOccurrence_name {name first : Record} (hnumber : first.occurrence = name.occurrence)
    (before after : List Record) :
    nextOccurrence (before ++ name :: first :: after)
      = nextOccurrence (before ++ first :: after) := by
  unfold nextOccurrence
  rw [List.foldl_append, List.foldl_append, List.foldl_cons, List.foldl_cons, List.foldl_cons,
    hnumber, Nat.max_assoc, Nat.max_self]

/-- A context is built from the gist of the matches. -/
theorem Context.ofHistory_eq_of_gist {history history' : List Record}
    (h : (Usage.ofHistory history).map Usage.gist = (Usage.ofHistory history').map Usage.gist) :
    ofHistory history = ofHistory history' := by
  have hfold : ∀ usages : List Usage, usages.foldl insertUsage []
      = (usages.map Usage.gist).foldl
          (fun c g => g.2.1.foldl (fun c name => Context.insert c name g.2.2) c) [] := by
    intro usages
    rw [List.foldl_map]
    rfl
  rw [ofHistory, ofHistory, hfold, hfold, h]

/-- **The context does not see the record of a name** before a record of the same match. -/
theorem Context.ofHistory_name {name first : Record} (hmatch : name.isMatch = true)
    (hmatch' : first.isMatch = true) (hnumber : first.occurrence = name.occurrence)
    (hname : first.name = name.name) (hmember : first.member = name.member)
    (before after : List Record) :
    ofHistory (before ++ name :: first :: after) = ofHistory (before ++ first :: after) := by
  refine ofHistory_eq_of_gist ?_
  unfold Usage.ofHistory
  rw [List.filter_append, List.filter_append, List.filter_cons_of_pos hmatch,
    List.filter_cons_of_pos hmatch']
  exact Usage.gist_name hnumber hname hmember _ _

namespace Line

/-! ### The option that either form names -/

section Lookup

variable {members : List Member} (hspellings : (flagsOf members).Nodup) {m : Member}
  (hm : m ∈ members) {flag : Text} (hflag : m.spec.flag? = some flag)

include hspellings hm hflag

/-- Where spellings are all different, a spelling names its option. -/
theorem findOption_spelled (isLast : Bool) : findOption members flag isLast = .named m := by
  obtain ⟨before, after, rfl, hothers⟩ := exists_split_of_nodup hspellings hm hflag
  exact findOption_flag hflag hothers isLast

/-- A word that no other option is a rival for carries a value of its option. -/
theorem findOption_unrivalled {value : Text} (hvalue : m.spec.delimiter ++ value ≠ [])
    (htakes : m.spec.takesValue = true) (hstyle : m.spec.style.acceptsInline = true)
    (hrivals : ∀ other ∈ members, other ≠ m →
      ¬ Rivals (flag ++ m.spec.delimiter ++ value) m.spec other.spec) (isLast : Bool) :
    findOption members (flag ++ m.spec.delimiter ++ value) isLast = .inline m value := by
  obtain ⟨before, after, rfl, hothers⟩ := exists_split_of_nodup hspellings hm hflag
  refine findOption_joined hflag hvalue htakes hstyle (fun other hother => ?_) isLast
  have hmem : other ∈ before ++ m :: after :=
    List.perm_middle.mem_iff.2 (List.mem_cons_of_mem m hother)
  exact hrivals other hmem fun hsame => hothers other hother (hsame ▸ hflag)

end Lookup

/-! ### The word of either form -/

section Word

variable {l : Line} {m : Member} {flag : Text} (hdash : flag ≠ ['-'])

include hdash

/-- What begins with a spelling looks like an option if the spelling begins with a dash. -/
theorem isFlagLike_of_flag (tail : Text) (isLast : Bool)
    (hstarts : Text.startsWith ['-'] flag = true) : isFlagLike (flag ++ tail) isLast = true := by
  obtain ⟨rest, rfl⟩ := Text.startsWith_iff.1 hstarts
  cases rest with
  | nil => exact absurd rfl hdash
  | cons c rest => rfl

/-- An available option is matched by its spelling, if the lookup says so. -/
theorem step_spelled (hmarker : flag ≠ endOfOptions) (hm : m ∈ l.available)
    (hflag : m.spec.flag? = some flag)
    (hfind : findOption l.available flag l.tokens.isEmpty = .named m) :
    step l false flag = ⟨(acceptNamed l m flag).1, false, (acceptNamed l m flag).2⟩ := by
  have hwants : wantsOption l.available (isFlagLike flag l.tokens.isEmpty) = true :=
    wantsOption_of_flag hm hflag fun hstarts => by
      simpa using isFlagLike_of_flag hdash [] l.tokens.isEmpty hstarts
  rw [step_eq_readOption (Or.inl hmarker) hwants, readOption_named hfind]

/-- An available option is matched by a word that its spelling begins, if the lookup says so. -/
theorem step_joined (hne : flag ≠ []) (hm : m ∈ l.available) (hflag : m.spec.flag? = some flag)
    {tail value : Text} (htail : tail ≠ [])
    (hfind : findOption l.available (flag ++ tail) l.tokens.isEmpty = .inline m value) :
    step l false (flag ++ tail)
      = ⟨(acceptInline l m value).1, false, (acceptInline l m value).2⟩ := by
  have hword : flag ++ tail ≠ endOfOptions := by
    intro heq
    have hlength : flag.length + tail.length = 2 := by
      rw [← List.length_append, heq]
      rfl
    have hshort := List.length_pos_iff.2 htail
    have hspelled := List.length_pos_iff.2 hne
    obtain ⟨c, rfl⟩ : ∃ c, flag = [c] := List.length_eq_one_iff.1 (by omega)
    have hc : c = '-' := (List.cons.inj heq).1
    exact hdash (by rw [hc])
  have hwants : wantsOption l.available (isFlagLike (flag ++ tail) l.tokens.isEmpty) = true :=
    wantsOption_of_flag hm hflag (isFlagLike_of_flag hdash tail _)
  rw [step_eq_readOption (Or.inl hword) hwants, readOption_inline hfind]

end Word

/-! ### The match of either form -/

section Match

variable (l : Line) {m : Member} {action : Action} {actions : List Action}
  (hplain : m.spec.embedded = none) (hactions : m.spec.actions = action :: actions)
  (value : Text) (rest : List Text)

def firstRecord (m : Member) (action : Action) (value : Text) : Record :=
  valueRecord m (nextOccurrence l.history) 0 action [] value

/-- The records of the values after the first one, and the words left over. -/
def otherValues (m : Member) (actions : List Action) : List Record × List Text :=
  takeValues m (nextOccurrence l.history) 1 [value] actions rest

include hplain hactions

/-- The joined form records the value, and fills the other slots. -/
theorem acceptInline_eq_matched :
    acceptInline { l with tokens := rest } m value
      = (l.matched m (otherValues l value rest m actions).2
          (firstRecord l m action value :: (otherValues l value rest m actions).1), none) := by
  unfold acceptInline fillSlots
  rw [hplain, hactions]
  simp [matched, firstRecord, otherValues]

/-- The form with two words records the name and the value, and fills the other slots alike. -/
theorem acceptNamed_eq_matched (flag : Text) (hrequired : m.spec.valueOptional = false) :
    acceptNamed { l with tokens := value :: rest } m flag
      = (l.matched m (otherValues l value rest m actions).2
          (nameRecord l m flag :: firstRecord l m action value
            :: (otherValues l value rest m actions).1), none) := by
  have hkeeps : leavesOut m.spec value rest = false := by
    unfold leavesOut
    rw [hrequired, Bool.false_and]
  unfold acceptNamed fillSlots
  rw [hplain, hactions]
  simp [matched, firstRecord, otherValues, nameRecord, takeValues, hkeeps]

end Match

/-! ### The rest of the line -/

/-- **After a match with one more record**, a name before a value, the words that follow are read
alike. -/
theorem run_of_name (lookup : Text → Option Grammar) (l : Line) (m : Member) (left : List Text)
    {name first : Record} (hnumber : first.occurrence = name.occurrence) (records : List Record) :
    ∃ later,
      (run lookup (l.matched m left (first :: records)) false).history
        = l.history ++ first :: later ∧
      run lookup (l.matched m left (name :: first :: records)) false
        = { run lookup (l.matched m left (first :: records)) false with
            history := l.history ++ name :: first :: later } := by
  have hnumbers : nextOccurrence (l.history ++ name :: first :: records)
      = nextOccurrence (l.history ++ first :: records) :=
    nextOccurrence_name hnumber _ _
  obtain ⟨later, hlater, hrun⟩ :=
    run_of_history lookup (l.matched m left (first :: records)) false hnumbers
  refine ⟨records ++ later, ?_, ?_⟩
  · rw [hlater, history_matched, List.append_assoc, List.cons_append]
  · rw [List.append_assoc] at hrun
    exact hrun

/-- **The two forms of a first value agree.** Let the spellings on a level be all different, as they
are in a compiled grammar. At some moment of the level, before the options have ended, let an option
be available that takes its values in either form, must have them, and hands no words over. A value
joined to its flag, for which no other available option is a rival, is then read to the end of the
line as the flag and the value in two words: with the same specifications left, and with the same
records but for that of the name, which stands before the first value. So both say the same about
the values of the line. -/
theorem value_forms_agree {lookup : Text → Option Grammar} {start : Line} {now : Moment}
    (hspellings : (flagsOf start.available).Nodup) (hnow : Reaches lookup start now)
    (hopen : now.ended = false) {m : Member} (hm : m ∈ now.line.available) {flag : Text}
    (hflag : m.spec.flag? = some flag) (hne : flag ≠ []) (hdash : flag ≠ ['-'])
    (hmarker : flag ≠ endOfOptions) (hplain : m.spec.embedded = none)
    (hstyle : m.spec.style = .separateOrInline) (htakes : m.spec.takesValue = true)
    (hrequired : m.spec.valueOptional = false) {value : Text}
    (hvalue : m.spec.delimiter = [] → value ≠ [])
    (hrivals : ∀ other ∈ now.line.available, other ≠ m →
      ¬ Rivals (flag ++ m.spec.delimiter ++ value) m.spec other.spec) (rest : List Text) :
    let joined := run lookup
      { now.line with tokens := (flag ++ m.spec.delimiter ++ value) :: rest } now.ended
    let separate := run lookup { now.line with tokens := flag :: value :: rest } now.ended
    ∃ action later, m.spec.actions.head? = some action ∧
      joined.history = now.line.history ++ firstRecord now.line m action value :: later ∧
      separate = { joined with
        history := now.line.history ++ nameRecord now.line m flag
          :: firstRecord now.line m action value :: later } ∧
      Context.ofHistory separate.history = Context.ofHistory joined.history := by
  intro joined separate
  obtain ⟨action, actions, hactions⟩ := List.exists_cons_of_ne_nil (Spec.takesValue_iff.1 htakes)
  have hdistinct : (flagsOf now.line.available).Nodup := by
    rw [available_of_reaches hnow]
    exact hspellings.sublist (List.filter_sublist.filterMap _)
  have htail : m.spec.delimiter ++ value ≠ [] := by
    intro hempty
    obtain ⟨hdelimiter, hempty⟩ := List.append_eq_nil_iff.1 hempty
    exact hvalue hdelimiter hempty
  have hinline := findOption_unrivalled hdistinct hm hflag htail htakes (by rw [hstyle]; rfl)
    hrivals
  -- Both matches leave the same words, and all records but the one.
  let others := otherValues now.line value rest m actions
  have hjoined : joined = run lookup (now.line.matched m others.2
      (firstRecord now.line m action value :: others.1)) false := by
    have hstep := step_joined (l := { now.line with tokens := rest }) hdash hne hm hflag htail
      (by rw [← List.append_assoc]; exact hinline _)
    rw [acceptInline_eq_matched now.line hplain hactions, ← List.append_assoc] at hstep
    unfold joined
    rw [hopen, run_cons lookup _ false _ rest rfl, hstep]
    rfl
  have hseparate : separate = run lookup (now.line.matched m others.2
      (nameRecord now.line m flag :: firstRecord now.line m action value :: others.1)) false := by
    have hstep := step_spelled (l := { now.line with tokens := value :: rest }) hdash hmarker hm
      hflag (findOption_spelled hdistinct hm hflag _)
    rw [acceptNamed_eq_matched now.line hplain hactions value rest flag hrequired] at hstep
    unfold separate
    rw [hopen, run_cons lookup _ false _ (value :: rest) rfl, hstep]
    rfl
  have hnumber : (firstRecord now.line m action value).occurrence
      = (nameRecord now.line m flag).occurrence := rfl
  obtain ⟨later, hlater, hrun⟩ := run_of_name lookup now.line m others.2 hnumber others.1
  rw [← hjoined] at hlater hrun
  rw [← hseparate] at hrun
  refine ⟨action, later, by rw [hactions]; rfl, hlater, hrun, ?_⟩
  rw [hrun, hlater]
  have hmatch : (nameRecord now.line m flag).isMatch = true := rfl
  have hmatch' : (firstRecord now.line m action value).isMatch = true := rfl
  exact Context.ofHistory_name hmatch hmatch' hnumber rfl rfl now.line.history later

/-- Either form of a format, before another option. -/
theorem value_forms_agree_format :
    let joined := parse listLookup ["--format=json".toList, "-c".toList] renderGrammar.members
    let separate := parse listLookup ["--format".toList, "json".toList, "-c".toList]
      renderGrammar.members
    ∃ name first later, name.stub = "--format".toList ∧ first.stub = "json".toList ∧
      joined.history = first :: later ∧ separate.history = name :: first :: later ∧
      Context.ofHistory separate.history = Context.ofHistory joined.history := by
  obtain ⟨format, hformat, hflag, hplain, hstyle, htakes, hrequired, hdelimiter, hrivals⟩ :
      ∃ m ∈ renderGrammar.members, m.spec.flag? = some "--format".toList ∧
        m.spec.embedded = none ∧ m.spec.style = .separateOrInline ∧ m.spec.takesValue = true ∧
        m.spec.valueOptional = false ∧ m.spec.delimiter = ['='] ∧
        ∀ other ∈ renderGrammar.members, other ≠ m →
          ¬ Rivals "--format=json".toList m.spec other.spec := by decide
  let start : Line := { tokens := [], available := renderGrammar.members }
  have hspellings : (flagsOf start.available).Nodup := renderGrammar_compiled.nodup
  have hnow : Reaches listLookup start ⟨start, false, []⟩ := Reaches.start
  have hvalue : format.spec.delimiter = [] → "json".toList ≠ [] := fun _ => by decide
  have hagree := value_forms_agree hspellings hnow rfl hformat hflag (by decide) (by decide)
    (by decide) hplain hstyle htakes hrequired hvalue (by rw [hdelimiter]; exact hrivals)
    ["-c".toList]
  rw [hdelimiter] at hagree
  obtain ⟨action, later, -, hjoined, hseparate, hcontext⟩ := hagree
  exact ⟨_, _, later, rfl, rfl, hjoined, congrArg Line.history hseparate, hcontext⟩

end Line

end CommandGrammar
