import CommandGrammar.Grammar.Guess
import CommandGrammar.Grammar.Spec

/-!
# Grammars

A grammar is what one program accepts: its specifications and the hints for guesses that are
settled only when a line has been read. Two specifications of equal content are still different
ones when they were compiled apart, so every member of a grammar carries an identity: the program,
the edition it was compiled for, and its place. A copy of a grammar, or another grammar with some of
its members, shares these identities.
-/

namespace CommandGrammar

/-- What tells a specification from all others. -/
structure SpecId where
  program : Text
  /-- Counts the grammars compiled before. -/
  edition : Nat
  place : Nat
deriving DecidableEq, Repr

/-- A specification as a member of a grammar. -/
structure Member where
  id : SpecId
  spec : Spec
deriving DecidableEq, Repr

/-- What one program accepts. -/
structure Grammar where
  program : Text
  members : List Member := []
  /-- Hints for the guesses left open, consulted before the built-in table. -/
  guesses : List GuessRule := []
deriving DecidableEq, Repr

namespace Grammar

def enlist (program : Text) (edition : Nat) (specs : List Spec) : List Member :=
  specs.mapIdx (fun i s => ⟨⟨program, edition, i⟩, s⟩)

/-- The first edition of a grammar. -/
def ofSpecs (program : Text) (specs : List Spec) (guesses : List GuessRule) : Grammar :=
  ⟨program, enlist program 0 specs, guesses⟩

def specs (g : Grammar) : List Spec := g.members.map Member.spec

/-- The grammar as a given edition, with specifications of its own. -/
def issue (edition : Nat) (g : Grammar) : Grammar :=
  { g with members := enlist g.program edition g.specs }

/-- Grammars as editions one after the other. -/
def issueAll : Nat → List Grammar → List Grammar
  | _, [] => []
  | edition, g :: grammars => g.issue edition :: issueAll (edition + 1) grammars

/-- An edition later than those of all members. -/
def nextEdition (g : Grammar) : Nat :=
  g.members.foldr (fun m bound => max (m.id.edition + 1) bound) 0

/-- Whether a specification is one of the grammar's own members. -/
def owns (g : Grammar) (m : Member) : Bool := g.members.any (fun own => own.id == m.id)

def findOption? (g : Grammar) (flag : Text) : Option Member :=
  g.members.find? (fun m => m.spec.flag? == some flag)

def optionNames (g : Grammar) : List Text := g.specs.filterMap Spec.flag?

def positionals (g : Grammar) : List Member := g.members.filter (fun m => m.spec.isPositional)

/-! ### Members -/

theorem specs_enlist (program : Text) (edition : Nat) (specs : List Spec) :
    (enlist program edition specs).map Member.spec = specs := by
  apply List.ext_getElem?
  intro i
  simp [enlist, Function.comp_def]

@[simp] theorem specs_ofSpecs (program : Text) (specs : List Spec) (guesses : List GuessRule) :
    (ofSpecs program specs guesses).specs = specs := specs_enlist program 0 specs

@[simp] theorem specs_issue (edition : Nat) (g : Grammar) : (g.issue edition).specs = g.specs :=
  specs_enlist g.program edition g.specs

theorem edition_lt_nextEdition {g : Grammar} {m : Member} (h : m ∈ g.members) :
    m.id.edition < g.nextEdition := by
  unfold nextEdition
  generalize g.members = members at h ⊢
  induction members with
  | nil => exact absurd h List.not_mem_nil
  | cons first rest ih =>
    rw [List.foldr_cons]
    rcases List.mem_cons.1 h with rfl | hrest
    · omega
    · have := ih hrest
      omega

/-- Every member of an edition is of this edition. -/
theorem edition_of_mem_issue {edition : Nat} {g : Grammar} {m : Member}
    (h : m ∈ (g.issue edition).members) : m.id.edition = edition := by
  obtain ⟨i, hi, rfl⟩ := List.mem_mapIdx.1 h
  rfl

/-- The members of an edition stand at places of their own. -/
theorem eq_of_mem_issue {edition : Nat} {g : Grammar} {m m' : Member}
    (h : m ∈ (g.issue edition).members) (h' : m' ∈ (g.issue edition).members) (hid : m.id = m'.id) :
    m = m' := by
  obtain ⟨i, hi, rfl⟩ := List.mem_mapIdx.1 h
  obtain ⟨i', hi', rfl⟩ := List.mem_mapIdx.1 h'
  obtain rfl : i = i' := congrArg SpecId.place hid
  rfl

theorem nextEdition_issue_le (edition : Nat) (g : Grammar) :
    (g.issue edition).nextEdition ≤ edition + 1 := by
  have hedition : ∀ m ∈ (g.issue edition).members, m.id.edition = edition :=
    fun m hm => edition_of_mem_issue hm
  unfold nextEdition
  generalize (g.issue edition).members = members at hedition ⊢
  induction members with
  | nil => exact Nat.zero_le _
  | cons first rest ih =>
    have hfirst := hedition first List.mem_cons_self
    have hrest := ih fun m hm => hedition m (List.mem_cons_of_mem _ hm)
    rw [List.foldr_cons]
    omega

theorem owns_iff {g : Grammar} {m : Member} :
    g.owns m = true ↔ ∃ own ∈ g.members, own.id = m.id := by
  simp only [owns, List.any_eq_true, beq_iff_eq]

theorem owns_of_mem {g : Grammar} {m : Member} (h : m ∈ g.members) : g.owns m = true :=
  owns_iff.2 ⟨m, h, rfl⟩

end Grammar

end CommandGrammar
