import CommandGrammar.Proofs.Accounting
import CommandGrammar.Proofs.Availability
import CommandGrammar.Proofs.Registry

/-!
# The grammar that a guess belongs to

A guess in the last word of a line is settled with the hints of the grammar to which the matched
specification belongs. The session looks for it after the line has been read: first in the
program's own grammar, then in those of the embedded commands, each found by its recorded name once
more. Unknown words may be spelled like the record of a command and stand in its way, and grammars
may share specifications.

* `run_sourced`: whatever a line matches is a member of the program's own grammar or of that of a
  command recorded on the line;
* `owner_of_last_match`: the search finds a grammar that owns the specification, and the guess is
  settled with its hints;
* `Separate.serve`: registering what is compiled keeps the grammars of a session separate, and so
  does handing in a grammar that no other one shares specifications with;
* `Offline.separate`: in the sessions that such requests lead to no two grammars share any.
-/

namespace CommandGrammar

/-- Whether a record is of the command of an embedded line: of the records without a specification
it is the only one that stands in a slot. -/
def Record.isCommand (r : Record) : Bool := r.member.isNone && r.isValue

namespace Line

/-! ### Where specifications come from -/

/-- Whether a specification is one of `own`, or a member of the grammar of a command recorded in a
trace. -/
def HasSource (lookup : Text → Option Grammar) (own : List Member) (history : List Record)
    (m : Member) : Prop :=
  m ∈ own ∨ ∃ r ∈ history, r.isCommand = true ∧ r.name = commandName ∧
    ∃ g, lookup (programName r.stub) = some g ∧ m ∈ g.members

/-- A line whose specifications, available and matched, all have a source, and whose other records
are of words by their own name or of commands. -/
structure Sourced (lookup : Text → Option Grammar) (own : List Member) (l : Line) : Prop where
  available : ∀ m ∈ l.available, HasSource lookup own l.history m
  matched : ∀ r ∈ l.history, ∀ m ∈ r.member, HasSource lookup own l.history m
  unmatched : ∀ r ∈ l.history, r.member = none → r.name = r.stub ∨ r.isCommand = true

variable {lookup : Text → Option Grammar} {own : List Member}

/-- A source is not lost when more is recorded. -/
theorem HasSource.append {history : List Record} {m : Member}
    (h : HasSource lookup own history m) (records : List Record) :
    HasSource lookup own (history ++ records) m := by
  rcases h with hown | ⟨r, hr, hcommand⟩
  · exact Or.inl hown
  · exact Or.inr ⟨r, List.mem_append_left records hr, hcommand⟩

/-- A line stays sourced when it goes on with matches of what was available, and nothing else
becomes available. -/
theorem Sourced.of_append {l l' : Line} (h : Sourced lookup own l) {records : List Record}
    (havailable : l'.available ⊆ l.available) (hhistory : l'.history = l.history ++ records)
    (hrecords : ∀ r ∈ records, ∀ m ∈ r.member, m ∈ l.available)
    (hothers : ∀ r ∈ records, r.member = none → r.name = r.stub ∨ r.isCommand = true) :
    Sourced lookup own l' where
  available := by
    intro m hm
    rw [hhistory]
    exact (h.available m (havailable hm)).append records
  matched := by
    intro r hr m hm
    rw [hhistory] at hr ⊢
    rcases List.mem_append.1 hr with hr | hr
    · exact (h.matched r hr m hm).append records
    · exact (h.available m (hrecords r hr m hm)).append records
  unmatched := by
    intro r hr
    rw [hhistory] at hr
    exact (List.mem_append.1 hr).elim (h.unmatched r) (hothers r)

/-- A word keeps a line sourced. -/
theorem Outcome.sourced {l : Line} {ended : Bool} {token : Text} {s : Step}
    (h : Outcome l ended token s) (hl : Sourced lookup own l) : Sourced lookup own s.line := by
  obtain ⟨records, hhistory, ⟨havailable, hnone, hname, -⟩ |
    ⟨m, hm, havailable, -, hmember, -⟩⟩ := h.takes
  · refine hl.of_append (fun m hm => havailable ▸ hm) hhistory (fun r hr m hm => ?_)
      fun r hr _ => Or.inl (hname r hr)
    rw [hnone r hr] at hm
    exact absurd hm (by simp)
  · refine hl.of_append ?_ hhistory (fun r hr m' hm' => ?_) fun r hr hnone => ?_
    · rw [havailable]
      exact fun m hm => (List.mem_filter.1 hm).1
    · rw [hmember r hr] at hm'
      obtain rfl := Option.some.inj hm'
      exact hm
    · rw [hmember r hr] at hnone
      cases hnone

/-! ### Embedded lines -/

/-- A record without a specification keeps a line sourced. -/
theorem Sourced.push {l : Line} (h : Sourced lookup own l) {r : Record} (hr : r.member = none)
    (hname : r.name = r.stub ∨ r.isCommand = true) : Sourced lookup own (l.push r) := by
  refine h.of_append (List.Subset.refl _) rfl (fun r' hr' m hm => ?_) fun r' hr' _ => ?_
  · rw [List.mem_singleton.1 hr', hr] at hm
    exact absurd hm (by simp)
  · rw [List.mem_singleton.1 hr']
    exact hname

theorem Sourced.resume {l : Line} (h : Sourced lookup own l) (cut : Cut) :
    Sourced lookup own (l.resume cut) := by
  have htokens : Sourced lookup own { l with tokens := cut.after } :=
    ⟨h.available, h.matched, h.unmatched⟩
  unfold Line.resume
  dsimp only
  split
  · exact htokens.push rfl (Or.inl rfl)
  · exact htokens

theorem Sourced.pushCommand {l : Line} (h : Sourced lookup own l) (command : Text) :
    Sourced lookup own (l.pushCommand command) :=
  h.push (r := l.commandRecord command) rfl (Or.inr rfl)

/-- An embedded line is sourced, as its command is recorded before it is read. -/
theorem Sourced.nested {l : Line} (h : Sourced lookup own l) (command : Text)
    (arguments : List Text) :
    Sourced lookup own (nested lookup (l.pushCommand command) command arguments) where
  available := by
    intro m hm
    cases hfound : lookup (programName command) with
    | none =>
      unfold Line.nested at hm
      rw [hfound] at hm
      exact absurd hm List.not_mem_nil
    | some g =>
      unfold Line.nested at hm
      rw [hfound] at hm
      exact Or.inr ⟨l.commandRecord command, List.mem_append_right _ (List.mem_singleton.2 rfl),
        rfl, rfl, g, hfound, hm⟩
  matched := (h.pushCommand command).matched
  unmatched := (h.pushCommand command).unmatched

/-- The outer line is sourced after an embedded one that is. -/
theorem Sourced.absorb {l inner : Line} {records : List Record} (h : Sourced lookup own l)
    (hinner : Sourced lookup own inner) (hhistory : inner.history = l.history ++ records) :
    Sourced lookup own (l.absorb inner) where
  available := by
    intro m hm
    show HasSource lookup own inner.history m
    rw [hhistory]
    exact (h.available m hm).append records
  matched := hinner.matched
  unmatched := hinner.unmatched

theorem Sourced.readEmbedded {e : Embedding} {l : Line} (h : Sourced lookup own l)
    (hinner : ∀ command arguments,
      (cutEmbedded e.terminators l.tokens).inner = command :: arguments →
      Sourced lookup own
        (run lookup (Line.nested lookup (l.pushCommand command) command arguments) false)) :
    Sourced lookup own (l.readEmbedded lookup e) := by
  unfold Line.readEmbedded
  dsimp only
  split
  · exact h.resume _
  · rename_i command _
    exact (h.pushCommand command).resume _
  · rename_i command argument arguments hcut
    obtain ⟨-, groups, hhistory, -⟩ := run_records_every_word lookup
      (Line.nested lookup (l.pushCommand command) command (argument :: arguments)) false
    exact ((h.pushCommand command).absorb (hinner command _ hcut) hhistory).resume _

/-! ### Whole lines -/

/-- **What a line matches has a source**, at every level of it. -/
theorem run_sourced (l : Line) (ended : Bool) (h : Sourced lookup own l) :
    Sourced lookup own (run lookup l ended) := by
  induction l, ended using run_induction lookup with
  | nil l ended hread =>
    rw [run_nil lookup l ended hread]
    exact h
  | cons l ended token rest hread hinner ih =>
    rw [run_cons lookup l ended token rest hread]
    have hstep : Sourced lookup own (step { l with tokens := rest } ended token).line :=
      (step_outcome { l with tokens := rest } ended token).sourced
        ⟨h.available, h.matched, h.unmatched⟩
    generalize step { l with tokens := rest } ended token = s at *
    refine ih ?_
    unfold settled
    cases hembedded : s.embedded with
    | none => exact hstep
    | some e =>
      exact hstep.readEmbedded fun command arguments hcut =>
        hinner e command arguments hembedded hcut (hstep.nested command arguments)

theorem parse_sourced (tokens : List Text) : Sourced lookup own (parse lookup tokens own) :=
  run_sourced _ false ⟨fun _ hm => Or.inl hm, fun _ hr => absurd hr List.not_mem_nil,
    fun _ hr => absurd hr List.not_mem_nil⟩

end Line

namespace Session

/-! ### Sessions without a help desk -/

/-- The line of the words after a program's name, read with what is registered for the program. -/
def lineOf (s : Session) (program : Text) (tokens : List Text) : Line :=
  Line.parse s.lookup tokens
    (((s.registered? (Line.programName program)).map Grammar.members).getD [])

section Desk

variable {s : Session} (h : s.desk = none)

include h

/-- A session without a help desk answers what is registered, and stays as it is. -/
theorem grammarFor_offline (command : Text) :
    s.grammarFor command = some (s.registered? (Line.programName command), s) := by
  unfold grammarFor
  dsimp only
  rw [h]
  cases s.registered? (Line.programName command) <;> rfl

theorem lookup_offline (command : Text) :
    s.lookup command = s.registered? (Line.programName command) := by
  rw [lookup, grammarFor_offline h]
  rfl

theorem replay_offline (commands : List Text) : s.replay commands = some s := by
  unfold replay
  induction commands with
  | nil => rfl
  | cons command commands ih =>
    rw [List.foldlM_cons, grammarFor_offline h]
    exact ih

theorem firstOwner_offline (m : Member) (commands : List Text) :
    firstOwner m commands s
      = some (commands.findSome? fun command =>
          (s.registered? (Line.programName command)).filter fun g => g.owns m, s) := by
  induction commands with
  | nil => rfl
  | cons command commands ih =>
    rw [firstOwner, grammarFor_offline h, List.findSome?_cons]
    dsimp only [Option.bind_eq_bind, Option.bind_some]
    split
    · rename_i g hg
      rw [hg]
    · rename_i hg
      rw [hg, ih]

/-- The line that a session without a help desk reads. -/
theorem matchLine_offline (program : Text) (tokens : List Text) :
    s.matchLine program tokens
      = some (s.registered? (Line.programName program), s.lineOf program tokens,
          { s with editions := s.editions + 1 }) := by
  unfold matchLine
  rw [grammarFor_offline h]
  dsimp only [Option.bind_eq_bind, Option.bind_some]
  rw [replay_offline h]
  rfl

end Desk

/-! ### The owner of the last match -/

theorem mem_registered {s : Session} {program : Text} {g : Grammar}
    (h : s.registered? program = some g) : (program, g) ∈ s.registered := by
  obtain ⟨r, hr, rfl⟩ := Option.map_eq_some_iff.1 h
  obtain rfl : r.1 = program := by simpa using List.find?_some hr
  exact List.mem_of_find?_eq_some hr

/-- Whether an identity is that of one specification. -/
def Identified (s : Session) : Prop :=
  ∀ r ∈ s.registered, ∀ r' ∈ s.registered, ∀ m ∈ r.2.members, ∀ m' ∈ r'.2.members,
    m.id = m'.id → m = m'

/-- Whether the grammar of a program, if it has one, shares no specification with one registered
under another name. -/
def Apart (s : Session) (program : Text) : Prop :=
  ∀ g, s.registered? program = some g → ∀ other g', other ≠ program →
    s.registered? other = some g' → ∀ m ∈ g'.members, g.owns m = false

/-- A grammar that owns a registered specification has it as a member. -/
theorem Identified.mem_of_owns {s : Session} (h : s.Identified) {program other : Text}
    {g g' : Grammar} {m : Member} (hg : s.registered? program = some g) (howns : g.owns m = true)
    (hg' : s.registered? other = some g') (hm : m ∈ g'.members) : m ∈ g.members := by
  obtain ⟨own, hown, hid⟩ := Grammar.owns_iff.1 howns
  rw [← h _ (mem_registered hg) _ (mem_registered hg') own hown m hm hid]
  exact hown

/-- The place on a line where a grammar comes in: it is the program's own, or that of a word which
the record given fits. -/
def ComesIn (s : Session) (program : Text) (history : List Record) (fits : Record → Prop)
    (g : Grammar) : Prop :=
  s.registered? (Line.programName program) = some g ∨
    ∃ r ∈ history, fits r ∧ s.registered? (Line.programName r.stub) = some g

theorem ComesIn.exists_registered {s : Session} {program : Text} {history : List Record}
    {fits : Record → Prop} {g : Grammar} (h : s.ComesIn program history fits g) :
    ∃ name, s.registered? name = some g := by
  rcases h with hg | ⟨r, -, -, hg⟩
  · exact ⟨_, hg⟩
  · exact ⟨_, hg⟩

/-- What a member of a session is a member of: the program's own grammar, or the one registered for
a command recorded on the line. -/
theorem exists_registered_of_sourced {s : Session} (h : s.desk = none) {program : Text}
    {history : List Record} {m : Member}
    (hm : Line.HasSource s.lookup
      (((s.registered? (Line.programName program)).map Grammar.members).getD []) history m) :
    ∃ g, m ∈ g.members ∧
      s.ComesIn program history (fun r => r.isCommand = true ∧ r.name = Line.commandName) g := by
  rcases hm with hm | ⟨r, hr, hcommand, hname, g, hg, hm⟩
  · cases htop : s.registered? (Line.programName program) with
    | none =>
      rw [htop] at hm
      exact absurd hm List.not_mem_nil
    | some g =>
      rw [htop] at hm
      exact ⟨g, hm, Or.inl htop⟩
  · rw [lookup_offline h, Line.programName_programName] at hg
    exact ⟨g, hm, Or.inr ⟨r, hr, ⟨hcommand, hname⟩, hg⟩⟩

theorem mem_embeddedCommands {history : List Record} {command : Text} :
    command ∈ embeddedCommands history ↔
      ∃ r ∈ history, (r.member = none ∧ r.name = Line.commandName) ∧ r.stub = command := by
  simp [embeddedCommands, and_assoc]

/-- The search finds a grammar that owns a registered member, if only among those of all words by
the name of the records of commands. -/
theorem exists_owner {s : Session} (h : s.desk = none) {program : Text} {history : List Record}
    {g : Grammar} {m : Member} (hlast : history.getLast?.bind Record.member = some m)
    (hm : m ∈ g.members)
    (hg : s.ComesIn program history (fun r => r.isCommand = true ∧ r.name = Line.commandName) g) :
    ∃ owner, owner.owns m = true ∧
      s.owningGrammar (s.registered? (Line.programName program)) history = some (some owner, s) ∧
      s.ComesIn program history (fun r => r.member = none ∧ r.name = Line.commandName) owner := by
  unfold owningGrammar
  rw [hlast]
  dsimp only
  split
  · rename_i top htop
    obtain ⟨htop, howns⟩ := Option.filter_eq_some_iff.1 htop
    exact ⟨top, howns, rfl, Or.inl htop⟩
  · rename_i htop
    rw [firstOwner_offline h]
    rcases hg with hg | ⟨r, hr, ⟨hcommand, hname⟩, hg⟩
    · rw [hg, Option.filter_some, if_pos (Grammar.owns_of_mem hm)] at htop
      cases htop
    · -- The first command whose grammar owns the member need not be the one that was read.
      have hfound : ((embeddedCommands history).findSome? fun command =>
          (s.registered? (Line.programName command)).filter fun g => g.owns m).isSome = true := by
        rw [Record.isCommand, Bool.and_eq_true, Option.isNone_iff_eq_none] at hcommand
        rw [List.findSome?_isSome_iff]
        refine ⟨r.stub, mem_embeddedCommands.2 ⟨r, hr, ⟨hcommand.1, hname⟩, rfl⟩, ?_⟩
        rw [hg, Option.filter_some, if_pos (Grammar.owns_of_mem hm)]
        rfl
      obtain ⟨owner, howner⟩ := Option.isSome_iff_exists.1 hfound
      obtain ⟨command, hmem, hcommand'⟩ := List.exists_of_findSome?_eq_some howner
      obtain ⟨hregistered, howns⟩ := Option.filter_eq_some_iff.1 hcommand'
      obtain ⟨r', hr', hfits, rfl⟩ := mem_embeddedCommands.1 hmem
      exact ⟨owner, howns, by rw [howner], Or.inr ⟨r', hr', hfits, hregistered⟩⟩

/-- A word that only looks like the record of a command leads to the grammar registered under this
name, which owns nothing else. -/
theorem comesIn_of_apart {s : Session} (h : s.Apart Line.commandName) {program : Text}
    {history : List Record} {g owner : Grammar} {m : Member} (hm : m ∈ g.members)
    (hg : s.ComesIn program history (fun r => r.isCommand = true) g)
    (howns : owner.owns m = true)
    (hunmatched : ∀ r ∈ history, r.member = none → r.name = r.stub ∨ r.isCommand = true)
    (howner : s.ComesIn program history (fun r => r.member = none ∧ r.name = Line.commandName)
      owner) :
    s.ComesIn program history (fun r => r.isCommand = true) owner := by
  rcases howner with htop | ⟨r, hr, ⟨hnone, hname⟩, howner⟩
  · exact Or.inl htop
  rcases hunmatched r hr hnone with hstub | hcommand
  · have hself : Line.programName Line.commandName = Line.commandName := by decide
    rw [← hstub, hname, hself] at howner
    obtain ⟨name, hname⟩ := hg.exists_registered
    by_cases heq : name = Line.commandName
    · rw [heq, howner] at hname
      obtain rfl := Option.some.inj hname
      exact hg
    · rw [h owner howner name g heq hname m hm] at howns
      cases howns
  · exact Or.inr ⟨r, hr, hcommand, howner⟩

/-- A grammar that shares no specification with a registered one, but for the one it replaces. -/
structure Unshared (s : Session) (g : Grammar) : Prop where
  own : ∀ m ∈ g.members, ∀ m' ∈ g.members, m.id = m'.id → m = m'
  others : ∀ r ∈ s.registered, r.1 ≠ g.program → ∀ m ∈ r.2.members, g.owns m = false

/-- A session without a help desk in which every registered specification is a member of one
grammar, and older than those to come. -/
structure Separate (s : Session) : Prop where
  desk : s.desk = none
  old : ∀ r ∈ s.registered, ∀ m ∈ r.2.members, m.id.edition < s.editions
  eq_of_id : ∀ r ∈ s.registered, ∀ r' ∈ s.registered, ∀ m ∈ r.2.members, ∀ m' ∈ r'.2.members,
    m.id = m'.id → r = r' ∧ m = m'

theorem Separate.identified {s : Session} (h : s.Separate) : s.Identified :=
  fun r hr r' hr' m hm m' hm' hid => (h.eq_of_id r hr r' hr' m hm m' hm' hid).2

theorem Separate.apart {s : Session} (h : s.Separate) (program : Text) : s.Apart program := by
  intro g hg other g' hne hg' m hm
  rw [Bool.eq_false_iff]
  intro howns
  obtain ⟨own, hown, hid⟩ := Grammar.owns_iff.1 howns
  have heq : (program, g) = (other, g') :=
    (h.eq_of_id _ (mem_registered hg) _ (mem_registered hg') own hown m hm hid).1
  exact hne (congrArg Prod.fst heq).symm

theorem Separate.searched {s s' : Session} (h : s.Separate) (hsearched : Searched s s') :
    s'.Separate where
  desk := hsearched.desk h.desk
  old := by
    rw [hsearched.registered]
    exact fun r hr m hm => Nat.lt_of_lt_of_le (h.old r hr m hm) hsearched.editions
  eq_of_id := by
    rw [hsearched.registered]
    exact h.eq_of_id

theorem Separate.register {s : Session} (h : s.Separate) {g : Grammar} (hg : s.Unshared g) :
    (s.register g).Separate where
  desk := h.desk
  old := by
    intro r hr m hm
    rcases List.mem_append.1 hr with hr | hr
    · exact Nat.lt_of_lt_of_le (h.old r (List.mem_filter.1 hr).1 m hm) (Nat.le_max_left _ _)
    · rw [List.mem_singleton.1 hr] at hm
      exact Nat.lt_of_lt_of_le (Grammar.edition_lt_nextEdition hm) (Nat.le_max_right _ _)
  eq_of_id := by
    have hclash : ∀ r ∈ s.registered.filter (fun r => !(r.1 == g.program)), ∀ m ∈ r.2.members,
        ∀ m' ∈ g.members, m.id ≠ m'.id := by
      intro r hr m hm m' hm' hid
      obtain ⟨hr, hne⟩ := List.mem_filter.1 hr
      have howns : g.owns m = true := Grammar.owns_iff.2 ⟨m', hm', hid.symm⟩
      rw [hg.others r hr (by simpa using hne) m hm] at howns
      cases howns
    intro r hr r' hr' m hm m' hm' hid
    rcases List.mem_append.1 hr with hr | hr <;> rcases List.mem_append.1 hr' with hr' | hr'
    · exact h.eq_of_id r (List.mem_filter.1 hr).1 r' (List.mem_filter.1 hr').1 m hm m' hm' hid
    · rw [List.mem_singleton.1 hr'] at hm'
      exact absurd hid (hclash r hr m hm m' hm')
    · rw [List.mem_singleton.1 hr] at hm
      exact absurd hid.symm (hclash r' hr' m' hm' m hm)
    · rw [List.mem_singleton.1 hr] at hm ⊢
      rw [List.mem_singleton.1 hr'] at hm' ⊢
      exact ⟨rfl, hg.own m hm m' hm' hid⟩

/-- What is compiled for a new edition is shared with nothing. -/
theorem Separate.unshared_issue {s : Session} (h : s.Separate) {edition : Nat}
    (hedition : s.editions ≤ edition) (g : Grammar) : s.Unshared (g.issue edition) where
  own := fun _ hm _ hm' hid => Grammar.eq_of_mem_issue hm hm' hid
  others := by
    intro r hr _ m hm
    rw [Bool.eq_false_iff]
    intro howns
    obtain ⟨own, hown, hid⟩ := Grammar.owns_iff.1 howns
    have hlt := h.old r hr m hm
    rw [← hid, Grammar.edition_of_mem_issue hown] at hlt
    omega

theorem Separate.registerAll_issueAll {s : Session} (h : s.Separate) {edition : Nat}
    (hedition : s.editions ≤ edition) (grammars : List Grammar) :
    (s.registerAll (Grammar.issueAll edition grammars)).Separate := by
  induction grammars generalizing s edition with
  | nil => exact h
  | cons g grammars ih =>
    have hnext := Grammar.nextEdition_issue_le edition g
    exact ih (h.register (h.unshared_issue hedition g)) (Nat.max_le.2 ⟨by omega, hnext⟩)

/-- **A request keeps a session separate**, if what it hands in as a grammar is unshared. -/
theorem Separate.serve {s s' : Session} (h : s.Separate) {r : Request}
    (hr : ∀ g, r = .register g → s.Unshared g) (hserve : r.serve s = some s') : s'.Separate := by
  rcases Request.serve_cases hserve with rfl | ⟨-, hsearched⟩
  · cases r with
    | register g => exact h.register (hr g rfl)
    | _ => exact h.registerAll_issueAll (Nat.le_refl _) _
  · exact h.searched hsearched

/-- The sessions without a help desk that requests lead to which hand in unshared grammars. -/
inductive Offline : Session → Prop
  | start (config : Config) : Offline (.start config none)
  | serve {s s' : Session} {r : Request} : Offline s →
      (∀ g, r = .register g → s.Unshared g) → r.serve s = some s' → Offline s'

theorem Offline.separate {s : Session} (h : s.Offline) : s.Separate := by
  induction h with
  | start config =>
    exact ⟨rfl, fun r hr => absurd hr List.not_mem_nil, fun r hr => absurd hr List.not_mem_nil⟩
  | serve _ hr hserve ih => exact ih.serve hr hserve

/-! ### A line of three programs -/

/-- A command with one slot whose guess is left to its hints. -/
def portGrammar (program : String) (hint : String) : Grammar :=
  .ofSpecs program.toList
    [{ name := .flag "-p".toList, actions := [{ metavar := "PORT".toList }] }]
    [.builtin "=PORT$" (.listed [{ value := hint.toList }])]

/-- A command that runs others, one that it may run, and another one. -/
def watchSession (other : Grammar) : Session :=
  (start {} none).registerAll
    [.ofSpecs "watch".toList [{ name := .flag "-x".toList, embedded := some {} }] [],
      portGrammar "ssh" "22", other]

/-- A line on which a word is spelled like the record of a command. -/
def watchTokens : List Text :=
  ["-x".toList, "/bin/ssh".toList, "COMMAND".toList, "-p".toList, []]

theorem watchSession_offline : (watchSession (portGrammar "COMMAND" "80")).Offline := by
  refine .serve (r := .register _) (.serve (r := .register _) (.serve (r := .register _)
    (.start {}) ?_ rfl) ?_ rfl) ?_ rfl
  all_goals
    rintro g ⟨⟩
    exact ⟨by decide +kernel, by decide +kernel⟩

/-- A copy of a grammar, registered under the name of the records of commands, owns what it shares
with the one that the word was read with, and comes before it. -/
example :
    let s := watchSession { portGrammar "ssh" "22" with program := Line.commandName }
    let line := s.lineOf "watch".toList watchTokens
    (s.owningGrammar (s.registered? "watch".toList) line.history).bind
      (fun found => found.1.map Grammar.program) = some Line.commandName := by
  decide +kernel

end Session

end CommandGrammar
