import CommandGrammar.Proofs.FirstValue
import CommandGrammar.Proofs.Offers

/-!
# A value from the next word

On a line of two words the second may be the first value of the option that the first one names. If
the line ends with this value then nothing else has happened on it: there are two records, of the
name and of the value. In every other reading the second word is left to be read by itself, and a
word by itself is no value of an option; at most a part of it is, after a flag of its own.

* `length_stub_lt_of_last_value`: what a last word by itself is recorded as;
* `history_of_endsInValue`: the records of a flag and its value.
-/

namespace CommandGrammar

namespace Line

/-! ### Words handed over at the end of a line -/

theorem settled_of_no_tokens (lookup : Text → Option Grammar) {s : Step}
    (h : s.line.tokens = []) : settled lookup s = s.line := by
  unfold settled
  cases s.embedded with
  | none => rfl
  | some e =>
    show s.line.readEmbedded lookup e = s.line
    unfold readEmbedded
    rw [h]
    show s.line.resume ⟨[], none, []⟩ = s.line
    unfold resume
    rw [← h]

/-- A word handed over alone names the program of an embedded line. -/
theorem settled_of_one_token (lookup : Text → Option Grammar) {s : Step} {e : Embedding}
    {word : Text} (hembedded : s.embedded = some e) (h : s.line.tokens = [word]) :
    settled lookup s = { s.line.pushCommand word with tokens := [] } := by
  unfold settled
  rw [hembedded]
  show s.line.readEmbedded lookup e = _
  unfold readEmbedded
  rw [h]
  rfl

/-! ### The last word by itself -/

section LastWord

variable {lookup : Text → Option Grammar} {l : Line} {ended : Bool} {word : Text}

/-- **The last word is no value of an option** if nothing before it waits for one: no more than a
part of it is recorded so. -/
theorem length_stub_lt_of_last_value (hflags : ∀ m ∈ l.available, m.spec.flag? ≠ some [])
    (htokens : l.tokens = [word]) :
    ∀ r ∈ (run lookup l ended).history.getLast?, ∀ m, r.member = some m →
      m.spec.isOption = true → r.slot ≠ none → r.stub.length < word.length := by
  intro r hr option hmember hoption hslot
  rw [Option.mem_def, run_cons lookup l ended word [] htokens] at hr
  have houtcome := step_outcome { l with tokens := [] } ended word
  generalize step { l with tokens := [] } ended word = s at *
  -- Where no words are left, nothing is handed over and the line is read.
  have hdone : s.line.tokens = [] → s.line.history.getLast? = some r := by
    intro hnone
    rwa [settled_of_no_tokens lookup hnone, run_nil lookup _ _ hnone] at hr
  cases houtcome with
  | marker _ _ hne => exact absurd rfl hne
  | unknownOption =>
    obtain rfl : l.unknownRecord .unknownOption word = r := eq_of_getLast?_concat (hdone rfl)
    exact absurd rfl hslot
  | unknownOperand =>
    obtain rfl : l.unknownRecord .unknownPositional word = r := eq_of_getLast?_concat (hdone rfl)
    exact absurd rfl hslot
  | named m words left _ _ htaken =>
    obtain ⟨rfl, rfl⟩ := List.append_eq_nil_iff.1 htaken.split.symm
    have hlast := hdone rfl
    rw [valueRecords_nil_right] at hlast
    obtain rfl : nameRecord l m word = r := eq_of_getLast?_concat hlast
    exact absurd rfl hslot
  | inline m value words left _ hcarries _ _ htakes _ htaken =>
    obtain ⟨rfl, rfl⟩ := List.append_eq_nil_iff.1 htaken.split.symm
    obtain ⟨action, actions, hactions⟩ := List.exists_cons_of_ne_nil (Spec.takesValue_iff.1 htakes)
    have hlast := hdone rfl
    rw [hactions, valueRecords, valueRecords_nil_right] at hlast
    obtain rfl : valueRecord m (nextOccurrence l.history) 0 action [] value = r :=
      eq_of_getLast?_concat hlast
    show value.length < word.length
    rcases hcarries with hinline | ⟨-, hcluster⟩
    · exact length_lt_of_findOption_inline hflags hinline
    · have hlength := length_splitCluster hcluster
      omega
  | cluster m rest _ _ hcluster _ =>
    have hlength := length_splitCluster hcluster
    cases hembedded : m.spec.embedded with
    | some e =>
      -- What is put back is handed over, and the program it names is no value of an option.
      rw [settled_of_one_token lookup hembedded rfl, run_nil lookup _ _ rfl] at hr
      obtain rfl := eq_of_getLast?_concat hr
      exact absurd hmember (by simp [commandRecord])
    | none =>
      unfold settled at hr
      rw [hembedded] at hr
      have hshort : r.stub.length ≤ ('-' :: rest).length := length_stub_le_of_last rfl r hr
      rw [List.length_cons] at hshort
      omega
  | operand m words left _ hfirst htaken =>
    obtain ⟨rfl, rfl⟩ := List.append_eq_nil_iff.1 htaken.split.symm
    obtain rfl : operandRecord m (nextOccurrence l.history) (restSlot m.spec []) [] word = r :=
      eq_of_getLast?_concat (hdone rfl)
    obtain rfl : m = option := Option.some.inj hmember
    rw [Spec.isOption_eq_not_isPositional, (firstPositional?_eq_some hfirst).2] at hoption
    exact absurd hoption Bool.false_ne_true

end LastWord

/-! ### The value after a flag -/

/-- **A value from the next word.** If a line of a flag and another word ends with this word as the
first value of the option, then it has two records, of the name and of the value. -/
theorem history_of_endsInValue {lookup : Text → Option Grammar} {before after : List Member}
    {m : Member} {flag value : Text} (hflag : m.spec.flag? = some flag)
    (hothers : ∀ other ∈ before ++ after, other.spec.flag? ≠ some flag)
    (hflags : ∀ other ∈ before ++ m :: after, other.spec.flag? ≠ some [])
    (h : EndsInValue (parse lookup [flag, value] (before ++ m :: after)) m value) :
    ∃ action actions, m.spec.actions = action :: actions ∧
      (parse lookup [flag, value] (before ++ m :: after)).history
        = [nameRecord { tokens := [value], available := before ++ m :: after } m flag,
            valueRecord m 0 0 action [] value] := by
  obtain ⟨r, hlast, -, hmember, hslot, -, hstub⟩ := h
  have hoption : m.spec.isOption = true := Spec.isOption_of_flag? hflag
  have hvalue : r.slot ≠ none := by rw [hslot]; exact Option.some_ne_none 0
  -- Whatever the flag leads to, the value is none if it is left to be read by itself.
  have hpending : ∀ s : Step, s.line.available ⊆ before ++ m :: after → s.line.tokens = [value] →
      (run lookup (settled lookup s) s.ended).history.getLast? ≠ some r := by
    intro s hsubset htokens hr
    cases hembedded : s.embedded with
    | some e =>
      rw [settled_of_one_token lookup hembedded htokens, run_nil lookup _ _ rfl] at hr
      obtain rfl := eq_of_getLast?_concat hr
      exact absurd hmember (by simp [commandRecord])
    | none =>
      unfold settled at hr
      rw [hembedded] at hr
      have hshort := length_stub_lt_of_last_value
        (fun other hother => hflags other (hsubset hother)) htokens r hr m hmember hoption hvalue
      rw [hstub] at hshort
      exact absurd hshort (Nat.lt_irrefl _)
  have hnamed := findOption_flag hflag hothers false
  rw [parse, run_cons lookup _ false flag [value] rfl] at hlast ⊢
  have houtcome := step_outcome { tokens := [value], available := before ++ m :: after } false flag
  generalize step { tokens := [value], available := before ++ m :: after } false flag = s at *
  cases houtcome with
  | marker => exact absurd hlast (hpending _ (List.Subset.refl _) rfl)
  | unknownOption _ hunknown =>
    rcases hunknown with hambiguous | ⟨⟨hmiss, -⟩, -⟩
    · cases hnamed.symm.trans hambiguous
    · cases hnamed.symm.trans hmiss
  | unknownOperand => exact absurd hlast (hpending _ (List.Subset.refl _) rfl)
  | inline m' value' words left _ hcarries =>
    rcases hcarries with hinline | ⟨hmiss, -⟩
    · cases hnamed.symm.trans hinline
    · cases hnamed.symm.trans hmiss
  | cluster m' rest _ hmiss => cases hnamed.symm.trans hmiss
  | named m' words left _ hhit htaken =>
    obtain rfl : m = m' := OptionHit.named.inj (hnamed.symm.trans hhit)
    cases words with
    | nil => exact absurd hlast (hpending _ (List.filter_subset_self _) htaken.split.symm)
    | cons word words =>
      obtain ⟨rfl, hrest⟩ := List.cons.inj htaken.split
      obtain ⟨rfl, rfl⟩ := List.append_eq_nil_iff.1 hrest.symm
      obtain ⟨action, actions, hactions⟩ := List.exists_cons_of_length_pos htaken.fits
      refine ⟨action, actions, hactions, ?_⟩
      rw [settled_of_no_tokens lookup rfl, run_nil lookup _ _ rfl, hactions]
      show [] ++ (_ :: valueRecord m 0 0 action [] value :: valueRecords m 0 1 _ actions []) = _
      rw [valueRecords_nil_right]
      rfl
  | operand m' words left _ hfirst htaken =>
    cases words with
    | nil => exact absurd hlast (hpending _ (List.filter_subset_self _) htaken.split.symm)
    | cons word words =>
      obtain ⟨rfl, hrest⟩ := List.cons.inj htaken.split
      obtain ⟨rfl, rfl⟩ := List.append_eq_nil_iff.1 hrest.symm
      rw [settled_of_no_tokens lookup rfl, run_nil lookup _ _ rfl] at hlast
      have hmem : r ∈ restRecords m' 0 [] [flag, value] := List.mem_of_getLast? hlast
      obtain rfl : m' = m := Option.some.inj ((mem_restRecords hmem).2.2.1.symm.trans hmember)
      rw [Spec.isOption_eq_not_isPositional, (firstPositional?_eq_some hfirst).2] at hoption
      exact absurd hoption Bool.false_ne_true

end Line

end CommandGrammar
