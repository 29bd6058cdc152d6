import CommandGrammar.Proofs.Reading
import Mathlib.Data.List.Forall2

/-!
# Every word of a line is recorded

Reading a line is a matter of bookkeeping as well: every word turns into records, no word is lost,
recorded twice or recorded out of order. A record *covers* a word if it holds the whole word, or
the value at the end of it. A word is *accounted for* by one record that covers it, or, if it is a
cluster, by the records of its flags and one that covers what follows them.

`Accounted l l'` says this of all words read between two moments of a line. Every step keeps it but
for one: a cluster puts a word back, and only the records of that word complete its own. The books
are therefore balanced from the end of the line, in `Outcome.accounted`.
-/

namespace CommandGrammar

/-- Whether a record holds a whole word, or the value at the end of it. -/
def Record.Covers (r : Record) (word : Text) : Prop :=
  r.stub = word ∨ (r.slot = some 0 ∧ r.stub <:+ word)

/-- The records of one word: a single one that covers it, or those of the flags of a cluster and
one that covers the rest of the cluster with a dash of its own. -/
inductive Accounts (word : Text) : List Record → Prop
  | single (r : Record) : r.Covers word → Accounts word [r]
  | cluster (flags : List Char) (rest : Text) (heads : List Record) (last : Record) :
      word = '-' :: flags ++ rest → flags ≠ [] → rest ≠ [] →
      List.Forall₂ (fun c r => r.stub = ['-', c] ∧ r.slot = none) flags heads →
      last.Covers ('-' :: rest) → Accounts word (heads ++ [last])

/-- A word that begins with one more flag has one more record. -/
theorem Accounts.flag {c : Char} {rest : Text} {r : Record} {group : List Record}
    (h : Accounts ('-' :: rest) group) (hrest : rest ≠ []) (hstub : r.stub = ['-', c])
    (hslot : r.slot = none) : Accounts ('-' :: c :: rest) (r :: group) := by
  cases h with
  | single last hcovers =>
    exact .cluster [c] rest [r] last rfl (by simp) hrest
      (List.Forall₂.cons ⟨hstub, hslot⟩ List.Forall₂.nil) hcovers
  | cluster flags rest' heads last hword hflags hrest' hheads hcovers =>
    have htail : rest = flags ++ rest' := by simpa using hword
    rw [htail]
    exact .cluster (c :: flags) rest' (r :: heads) last rfl (by simp) hrest'
      (List.Forall₂.cons ⟨hstub, hslot⟩ hheads) hcovers

namespace Line

/-- What was read between two moments of a line: its words, each with the records that account
for it. -/
def Accounted (l l' : Line) : Prop :=
  ∃ (words : List Text) (groups : List (List Record)),
    l.tokens = words ++ l'.tokens ∧ l'.history = l.history ++ groups.flatten ∧
      List.Forall₂ Accounts words groups

theorem Accounted.refl (l : Line) : Accounted l l := ⟨[], [], by simp, by simp, .nil⟩

theorem Accounted.trans {l l' l'' : Line} (h : Accounted l l') (h' : Accounted l' l'') :
    Accounted l l'' := by
  obtain ⟨words, groups, htokens, hhistory, hgroups⟩ := h
  obtain ⟨words', groups', htokens', hhistory', hgroups'⟩ := h'
  refine ⟨words ++ words', groups ++ groups', ?_, ?_, List.rel_append hgroups hgroups'⟩
  · rw [htokens, htokens', List.append_assoc]
  · rw [hhistory', hhistory, List.flatten_append, List.append_assoc]

/-! ### Records that hold whole words -/

/-- Records that hold some words one by one account for them. -/
theorem accounts_of_stubs {records : List Record} {words : List Text}
    (h : records.map Record.stub = words) :
    List.Forall₂ Accounts words (records.map fun r => [r]) := by
  induction records generalizing words with
  | nil =>
    rw [← h]
    exact .nil
  | cons r records ih =>
    rw [← h]
    exact .cons (.single r (Or.inl rfl)) (ih rfl)

theorem flatten_map_singleton (records : List Record) :
    (records.map fun r => [r]).flatten = records := by
  rw [← List.flatMap_def, List.flatMap_singleton']

/-- A line that went on by some words and the records that hold them. -/
theorem accounted_of_stubs {l l' : Line} (words : List Text) (records : List Record)
    (htokens : l.tokens = words ++ l'.tokens) (hhistory : l'.history = l.history ++ records)
    (hstubs : records.map Record.stub = words) : Accounted l l' :=
  ⟨words, records.map fun r => [r], htokens, by rw [hhistory, flatten_map_singleton],
    accounts_of_stubs hstubs⟩

/-- A word that a single record holds. -/
theorem accounted_push {l : Line} {r : Record} {token : Text} (h : r.stub = token) :
    Accounted { l with tokens := token :: l.tokens } (l.push r) :=
  accounted_of_stubs [token] [r] rfl rfl (by rw [List.map_singleton, h])

/-! ### One word -/

/-- A word that carries a value and the words after it that fill further slots. -/
theorem accounted_inline {l : Line} {m : Member} {token value : Text} {words left : List Text}
    (htakes : m.spec.takesValue = true) (hsuffix : value <:+ token)
    (htaken : Taken m.spec (m.spec.actions.length - 1) l.tokens words left) :
    Accounted { l with tokens := token :: l.tokens }
      (l.matched m left
        (valueRecords m (nextOccurrence l.history) 0 [] m.spec.actions (value :: words))) := by
  obtain ⟨action, actions, hactions⟩ := List.exists_cons_of_ne_nil (Spec.takesValue_iff.1 htakes)
  have hfits : words.length ≤ actions.length := by simpa [hactions] using htaken.fits
  have hstubs := stubs_valueRecords m (nextOccurrence l.history) actions 1 [value] words hfits
  rw [hactions, valueRecords]
  refine ⟨token :: words, [valueRecord m (nextOccurrence l.history) 0 action [] value] :: _, ?_, ?_,
    .cons (.single _ (Or.inr ⟨rfl, hsuffix⟩)) (accounts_of_stubs hstubs)⟩
  · rw [htaken.split]
    rfl
  · rw [List.flatten_cons, flatten_map_singleton]
    rfl

/-- **The books of one word.** A word and the words its match takes are accounted for as soon as
all words left are. -/
theorem Outcome.accounted {l final : Line} {ended : Bool} {token : Text} {s : Step}
    (h : Outcome l ended token s) (hfinal : final.tokens = []) (hrest : Accounted s.line final) :
    Accounted { l with tokens := token :: l.tokens } final := by
  cases h with
  | marker => exact (accounted_push rfl).trans hrest
  | unknownOption => exact (accounted_push rfl).trans hrest
  | unknownOperand => exact (accounted_push rfl).trans hrest
  | named m words left _ _ htaken =>
    refine Accounted.trans (accounted_of_stubs (token :: words) _ ?_ rfl ?_) hrest
    · rw [htaken.split]
      rfl
    · rw [List.map_cons, stubs_valueRecords m _ _ 0 [] words htaken.fits]
      rfl
  | inline m value words left _ _ _ _ htakes hsuffix htaken =>
    exact (accounted_inline htakes hsuffix htaken).trans hrest
  | cluster m rest _ _ hcluster _ =>
    obtain ⟨c, htoken, -, hne, -, hflag, -⟩ := splitCluster_eq_some hcluster
    obtain ⟨words, groups, htokens, hhistory, hgroups⟩ := hrest
    -- All words left are read in the end, so the word put back comes first among them.
    rw [hfinal, List.append_nil] at htokens
    subst htokens
    rw [htoken]
    cases hgroups with
    | cons hfirst hothers =>
      have hstub : (nameRecord l m (m.spec.flag?.getD [])).stub = ['-', c] := by
        rw [hflag]
        rfl
      refine ⟨_, _, ?_, ?_, .cons (Accounts.flag hfirst hne hstub rfl) hothers⟩
      · rw [hfinal, List.append_nil]
      · rw [hhistory]
        simp
  | operand m words left _ _ htaken =>
    refine Accounted.trans (accounted_of_stubs (token :: words) _ ?_ rfl ?_) hrest
    · rw [htaken.split]
      rfl
    · exact stubs_restRecords m _ (token :: words) []

/-! ### Embedded lines -/

/-- A terminator is recorded, and so is nothing where there is none. -/
theorem accounted_resume (l : Line) (cut : Cut) :
    Accounted { l with tokens := cut.terminator.toList ++ cut.after } (l.resume cut) := by
  unfold resume
  dsimp only
  cases cut.terminator with
  | none => exact accounted_of_stubs [] [] rfl (by simp) rfl
  | some token => exact accounted_of_stubs [token] [_] rfl rfl rfl

theorem accounted_pushCommand (l : Line) (command : Text) (tokens : List Text) :
    Accounted { l with tokens := command :: tokens }
      { l.pushCommand command with tokens := tokens } :=
  accounted_of_stubs [command] [l.commandRecord command] rfl rfl rfl

/-- What an inner line recorded of its words counts for the outer line. -/
theorem accounted_absorb {lookup : Text → Option Grammar} {l inner : Line} {command : Text}
    {arguments : List Text} (tokens : List Text) (hdone : inner.tokens = [])
    (h : Accounted (nested lookup l command arguments) inner) :
    Accounted { l with tokens := arguments ++ tokens } { l.absorb inner with tokens := tokens } := by
  obtain ⟨words, groups, hwords, hgroups, hall⟩ := h
  refine ⟨words, groups, ?_, hgroups, hall⟩
  rw [hdone, List.append_nil] at hwords
  rw [← hwords]
  rfl

/-- The words of an embedded line are accounted for if those of its arguments are. -/
theorem accounted_readEmbedded (lookup : Text → Option Grammar) (e : Embedding) (l : Line)
    (hinner : ∀ command arguments,
      (cutEmbedded e.terminators l.tokens).inner = command :: arguments →
      (run lookup (nested lookup (l.pushCommand command) command arguments) false).tokens = [] ∧
      Accounted (nested lookup (l.pushCommand command) command arguments)
        (run lookup (nested lookup (l.pushCommand command) command arguments) false)) :
    Accounted l (l.readEmbedded lookup e) := by
  have hsplit := cutEmbedded_split e.terminators l.tokens
  unfold readEmbedded
  dsimp only
  generalize cutEmbedded e.terminators l.tokens = cut at *
  have hl : l = { l with tokens := cut.inner ++ (cut.terminator.toList ++ cut.after) } := by
    rw [← List.append_assoc, hsplit]
  rw [hl]
  split
  · rename_i hcut
    rw [hcut]
    exact accounted_resume l cut
  · rename_i command hcut
    rw [hcut]
    exact (accounted_pushCommand l command _).trans (accounted_resume (l.pushCommand command) cut)
  · rename_i command argument arguments hcut
    obtain ⟨hdone, haccounted⟩ := hinner command (argument :: arguments) hcut
    rw [hcut]
    exact ((accounted_pushCommand l command _).trans
      (accounted_absorb _ hdone haccounted)).trans (accounted_resume _ cut)

/-! ### Whole lines -/

theorem run_accounted (lookup : Text → Option Grammar) (l : Line) (ended : Bool) :
    (run lookup l ended).tokens = [] ∧ Accounted l (run lookup l ended) := by
  induction l, ended using run_induction lookup with
  | nil l ended hread =>
    rw [run_nil lookup l ended hread]
    exact ⟨hread, Accounted.refl l⟩
  | cons l ended token rest hread hinner ih =>
    rw [run_cons lookup l ended token rest hread]
    have houtcome := step_outcome { l with tokens := rest } ended token
    generalize step { l with tokens := rest } ended token = s at *
    have hsettled : Accounted s.line (settled lookup s) := by
      unfold settled
      cases hembedded : s.embedded with
      | none => exact Accounted.refl _
      | some e =>
        exact accounted_readEmbedded lookup e s.line
          fun command arguments hcut => hinner e command arguments hembedded hcut
    refine ⟨ih.1, ?_⟩
    have hline : l = { l with tokens := token :: rest } := by rw [← hread]
    rw [hline]
    exact houtcome.accounted ih.1 (hsettled.trans ih.2)

/-- **Every word of a line is recorded.** Reading a line reads all of its words, and appends to
what was recorded before one group of records for every word, in the order of the words: the words
handed to embedded commands and their terminators included. -/
theorem run_records_every_word (lookup : Text → Option Grammar) (l : Line) (ended : Bool) :
    (run lookup l ended).tokens = [] ∧
      ∃ groups : List (List Record),
        (run lookup l ended).history = l.history ++ groups.flatten ∧
          List.Forall₂ Accounts l.tokens groups := by
  obtain ⟨hdone, words, groups, hwords, hhistory, hgroups⟩ := run_accounted lookup l ended
  rw [hdone, List.append_nil] at hwords
  rw [hwords]
  exact ⟨hdone, groups, hhistory, hgroups⟩

end Line

end CommandGrammar
