import CommandGrammar.Help.Entry
import CommandGrammar.Proofs.Overstrike

/-!
# What cleaning leaves behind

A clean page has no backspaces and no carriage returns. It may still have an escape sequence: the
sequences are dropped once, from left to right, and what is dropped later on, a sequence between two
parts of another one or a character that is taken back, can bring such parts together. Cleaning the
page again drops the sequence, so a page is clean for good exactly if it has none; and it has none
if every escape character of the raw page begins a sequence.

* `afterEscape?_eq_some_iff`: what is dropped is a sequence;
* `stripEscapes_eq_self_iff`: a text stays as it is exactly if it has none;
* `hasEscape_unifyLineEnds`: line ends make no sequence, and none disappears with them;
* `clean_clean_iff`: when a clean page is clean for good, and what that means for its entries.
-/

namespace CommandGrammar

namespace Text

/-! ### Replacing what is no part of a text -/

theorem infix_append_iff {part : Text} (hne : part ≠ []) {first : Text}
    (h : ∀ c ∈ part, c ∉ first) (second : Text) :
    part <:+: first ++ second ↔ part <:+: second := by
  induction first with
  | nil => rfl
  | cons d ds ih =>
    obtain ⟨c, cs, rfl⟩ := List.exists_cons_of_ne_nil hne
    have hbegins : ¬ c :: cs <+: d :: (ds ++ second) := by
      intro hp
      have hcd : c = d := (List.cons_prefix_cons.1 hp).1
      exact h c List.mem_cons_self (hcd ▸ List.mem_cons_self)
    rw [List.cons_append, List.infix_cons_iff,
      ih fun x hx hmem => h x hx (List.mem_cons_of_mem d hmem)]
    exact or_iff_right hbegins

/-- The recursion of replacing: a copy at the beginning is taken whole, and any other character
alone. -/
theorem replaceAll_induction {old : Text} (hold : old ≠ []) {P : Text → Prop} (nil : P [])
    (copy : ∀ rest, P rest → P (old ++ rest))
    (keep : ∀ c cs, ¬ old <+: c :: cs → P cs → P (c :: cs)) (text : Text) : P text := by
  have hpos : 0 < old.length := List.length_pos_iff.2 hold
  induction hlength : text.length using Nat.strongRecOn generalizing text with
  | _ length ih =>
    cases text with
    | nil => exact nil
    | cons c cs =>
      by_cases hp : old <+: c :: cs
      · obtain ⟨rest, hrest⟩ := hp
        rw [← hrest] at hlength ⊢
        rw [List.length_append] at hlength
        exact copy rest (ih rest.length (by omega) rest rfl)
      · rw [List.length_cons] at hlength
        exact keep c cs hp (ih cs.length (by omega) cs rfl)

section Apart

variable {old new : Text} (hold : old ≠ []) (hnew : new ≠ [])

include hold hnew

theorem prefix_replaceAll_iff {part : Text} (h : ∀ c ∈ part, c ∉ old ∧ c ∉ new) (text : Text) :
    part <+: replaceAll old new text ↔ part <+: text := by
  have hstart {c : Char} {cs first second : Text} (hfirst : first ≠ []) (hc : c ∉ first) :
      ¬ c :: cs <+: first ++ second := by
    obtain ⟨d, ds, rfl⟩ := List.exists_cons_of_ne_nil hfirst
    intro hp
    have hcd : c = d := (List.cons_prefix_cons.1 hp).1
    exact hc (hcd ▸ List.mem_cons_self)
  induction text using replaceAll_induction hold generalizing part with
  | nil => rw [Text.replaceAll_of_not_infix (by simpa using hold)]
  | copy rest _ =>
    rw [replaceAll_append hold]
    cases part with
    | nil => exact iff_of_true List.nil_prefix List.nil_prefix
    | cons c cs =>
      obtain ⟨hcold, hcnew⟩ := h c List.mem_cons_self
      exact iff_of_false (hstart hnew hcnew) (hstart hold hcold)
  | keep d ds hp ih =>
    rw [replaceAll_cons hp]
    cases part with
    | nil => exact iff_of_true List.nil_prefix List.nil_prefix
    | cons c cs =>
      have hrest : cs <+: replaceAll old new ds ↔ cs <+: ds :=
        ih fun x hx => h x (List.mem_cons_of_mem c hx)
      rw [List.cons_prefix_cons, List.cons_prefix_cons, hrest]

/-- **What has nothing in common with the texts exchanged** is part of a text before and after. -/
theorem infix_replaceAll_iff {part : Text} (hne : part ≠ []) (h : ∀ c ∈ part, c ∉ old ∧ c ∉ new)
    (text : Text) : part <:+: replaceAll old new text ↔ part <:+: text := by
  induction text using replaceAll_induction hold with
  | nil => rw [Text.replaceAll_of_not_infix (by simpa using hold)]
  | copy rest ih =>
    rw [replaceAll_append hold, infix_append_iff hne (fun x hx => (h x hx).2),
      infix_append_iff hne (fun x hx => (h x hx).1), ih]
  | keep c cs hp ih =>
    have hbegins := prefix_replaceAll_iff hold hnew h (c :: cs)
    rw [replaceAll_cons hp] at hbegins ⊢
    rw [List.infix_cons_iff, List.infix_cons_iff, hbegins, ih]

end Apart

end Text

namespace Page

/-! ### Escape sequences -/

/-- Escape sequences: parameters, intermediate characters and a final one. -/
def IsEscape (sequence : Text) : Prop :=
  ∃ parameters intermediates final,
    sequence = '\x1b' :: '[' :: (parameters ++ (intermediates ++ [final])) ∧
      (∀ c ∈ parameters, isParameter c = true) ∧
      (∀ c ∈ intermediates, isIntermediate c = true) ∧ isFinal final = true

/-- The shortest sequence, which takes back all marks. -/
theorem isEscape_normal : IsEscape "\x1b[m".toList :=
  ⟨[], [], 'm', rfl, List.forall_mem_nil _, List.forall_mem_nil _, rfl⟩

def HasEscape (text : Text) : Prop := ∃ sequence, IsEscape sequence ∧ sequence <:+: text

theorem isIntermediate_iff {c : Char} : isIntermediate c = true ↔ 32 ≤ c.toNat ∧ c.toNat ≤ 47 := by
  rw [isIntermediate, Bool.and_eq_true, decide_eq_true_eq, decide_eq_true_eq]
  exact and_congr UInt32.le_iff_toNat_le UInt32.le_iff_toNat_le

theorem isFinal_iff {c : Char} : isFinal c = true ↔ 64 ≤ c.toNat ∧ c.toNat ≤ 126 := by
  rw [isFinal, Bool.and_eq_true, decide_eq_true_eq, decide_eq_true_eq]
  exact and_congr UInt32.le_iff_toNat_le UInt32.le_iff_toNat_le

theorem bounds_of_isParameter {c : Char} (h : isParameter c = true) :
    48 ≤ c.toNat ∧ c.toNat ≤ 63 := by
  simp only [isParameter, Bool.or_eq_true, Bool.and_eq_true, decide_eq_true_eq, beq_iff_eq] at h
  rcases h with (⟨hlow, hhigh⟩ | rfl) | rfl
  · have hlow : 48 ≤ c.toNat := UInt32.le_iff_toNat_le.1 hlow
    have hhigh : c.toNat ≤ 57 := UInt32.le_iff_toNat_le.1 hhigh
    omega
  · decide
  · decide

theorem isParameter_eq_false {c : Char} (h : isIntermediate c = true ∨ isFinal c = true) :
    isParameter c = false := by
  rw [isIntermediate_iff, isFinal_iff] at h
  cases hp : isParameter c with
  | false => rfl
  | true =>
    have hbounds := bounds_of_isParameter hp
    omega

theorem isIntermediate_eq_false {c : Char} (h : isFinal c = true) : isIntermediate c = false := by
  rw [isFinal_iff] at h
  cases hi : isIntermediate c with
  | false => rfl
  | true =>
    have hbounds := isIntermediate_iff.1 hi
    omega

/-- **What is dropped is a sequence**, and every sequence at the beginning is. -/
theorem afterEscape?_eq_some_iff {text rest : Text} :
    afterEscape? text = some rest ↔ ∃ sequence, IsEscape sequence ∧ text = sequence ++ rest := by
  constructor
  · intro h
    unfold afterEscape? at h
    split at h
    · rename_i body
      split at h
      · rename_i c tail hbody
        split at h
        · rename_i hfinal
          obtain rfl := Option.some.inj h
          obtain ⟨intermediates, hmiddle, hintermediates, -⟩ :=
            Text.exists_of_dropWhile_eq_cons hbody
          refine ⟨_, ⟨body.takeWhile isParameter, intermediates, c, rfl,
            List.all_eq_true.1 List.all_takeWhile, hintermediates, hfinal⟩, ?_⟩
          have hsplit : body = body.takeWhile isParameter ++ (intermediates ++ c :: tail) := by
            rw [← hmiddle, List.takeWhile_append_dropWhile]
          simpa using hsplit
        · exact nomatch h
      · exact nomatch h
    · exact nomatch h
  · rintro ⟨sequence, ⟨parameters, intermediates, final, rfl, hparameters, hintermediates, hfinal⟩,
      rfl⟩
    have hmiddle : ∀ c ∈ (intermediates ++ final :: rest).head?, isParameter c = false := by
      intro c hc
      apply isParameter_eq_false
      cases intermediates with
      | nil => exact Or.inr (Option.some.inj hc ▸ hfinal)
      | cons d ds => exact Or.inl (Option.some.inj hc ▸ hintermediates d List.mem_cons_self)
    have hend : ∀ c ∈ (final :: rest).head?, isIntermediate c = false := by
      intro c hc
      exact isIntermediate_eq_false (Option.some.inj hc ▸ hfinal)
    have hbody : parameters ++ (intermediates ++ [final]) ++ rest
        = parameters ++ (intermediates ++ final :: rest) := by simp
    rw [List.cons_append, List.cons_append, afterEscape?, hbody,
      (Text.takeWhile_dropWhile_append hparameters hmiddle).2,
      (Text.takeWhile_dropWhile_append hintermediates hend).2]
    exact if_pos hfinal

theorem IsEscape.length_pos {sequence : Text} (h : IsEscape sequence) : 0 < sequence.length := by
  obtain ⟨parameters, intermediates, final, rfl, -⟩ := h
  simp

theorem IsEscape.escape_mem {sequence : Text} (h : IsEscape sequence) : '\x1b' ∈ sequence := by
  obtain ⟨parameters, intermediates, final, rfl, -⟩ := h
  exact List.mem_cons_self

/-- No line end is part of a sequence. -/
theorem IsEscape.ne_lineEnd {sequence : Text} (h : IsEscape sequence) {c : Char}
    (hc : c ∈ sequence) : c ≠ '\r' ∧ c ≠ '\n' := by
  obtain ⟨parameters, intermediates, final, rfl, hparameters, hintermediates, hfinal⟩ := h
  have hrange : c = '\x1b' ∨ 32 ≤ c.toNat := by
    simp only [List.mem_cons, List.mem_append, List.not_mem_nil, or_false] at hc
    rcases hc with rfl | rfl | hc | hc | rfl
    · exact Or.inl rfl
    · exact Or.inr (by decide)
    · have hbounds := bounds_of_isParameter (hparameters c hc)
      exact Or.inr (by omega)
    · exact Or.inr (isIntermediate_iff.1 (hintermediates c hc)).1
    · have hbounds := isFinal_iff.1 hfinal
      exact Or.inr (by omega)
  constructor
  · rintro rfl
    exact absurd hrange (by decide)
  · rintro rfl
    exact absurd hrange (by decide)

/-! ### Dropping them -/

theorem stripEscapesFrom_eq_drop (skip : Nat) (text : Text) :
    stripEscapesFrom skip text = stripEscapes (text.drop skip) := by
  induction text generalizing skip with
  | nil => rw [List.drop_nil]; cases skip <;> rfl
  | cons c cs ih =>
    cases skip with
    | zero => rfl
    | succ skip => exact ih skip

/-- A sequence at the beginning is dropped. -/
theorem stripEscapes_append {sequence : Text} (h : IsEscape sequence) (rest : Text) :
    stripEscapes (sequence ++ rest) = stripEscapes rest := by
  have hafter : afterEscape? (sequence ++ rest) = some rest :=
    afterEscape?_eq_some_iff.2 ⟨sequence, h, rfl⟩
  obtain ⟨c, cs, rfl⟩ := List.exists_cons_of_length_pos h.length_pos
  rw [List.cons_append] at hafter ⊢
  rw [stripEscapes, stripEscapesFrom, hafter]
  show stripEscapesFrom ((cs ++ rest).length - rest.length) (cs ++ rest) = _
  rw [stripEscapesFrom_eq_drop, List.length_append, Nat.add_sub_cancel, List.drop_left]

/-- A character that begins no sequence stays. -/
theorem stripEscapes_cons {c : Char} {cs : Text} (h : afterEscape? (c :: cs) = none) :
    stripEscapes (c :: cs) = c :: stripEscapes cs := by
  rw [stripEscapes, stripEscapesFrom, h]
  rfl

/-- The recursion of dropping sequences. -/
theorem escape_induction {P : Text → Prop} (nil : P [])
    (plain : ∀ c cs, afterEscape? (c :: cs) = none → P cs → P (c :: cs))
    (escape : ∀ sequence rest, IsEscape sequence → P rest → P (sequence ++ rest)) (text : Text) :
    P text := by
  induction hlength : text.length using Nat.strongRecOn generalizing text with
  | _ length ih =>
    cases text with
    | nil => exact nil
    | cons c cs =>
      cases hafter : afterEscape? (c :: cs) with
      | none =>
        rw [List.length_cons] at hlength
        exact plain c cs hafter (ih cs.length (by omega) cs rfl)
      | some rest =>
        obtain ⟨sequence, hsequence, heq⟩ := afterEscape?_eq_some_iff.1 hafter
        have hpos := hsequence.length_pos
        rw [heq] at hlength ⊢
        rw [List.length_append] at hlength
        exact escape sequence rest hsequence (ih rest.length (by omega) rest rfl)

theorem stripEscapes_sublist (text : Text) : (stripEscapes text).Sublist text := by
  induction text using escape_induction with
  | nil => exact List.Sublist.refl []
  | plain c cs h ih =>
    rw [stripEscapes_cons h]
    exact ih.cons_cons c
  | escape sequence rest h ih =>
    rw [stripEscapes_append h]
    exact ih.trans (List.sublist_append_right sequence rest)

/-- Behind a character that begins no sequence stand all there are. -/
theorem hasEscape_cons {c : Char} {cs : Text} (h : afterEscape? (c :: cs) = none) :
    HasEscape (c :: cs) ↔ HasEscape cs := by
  refine exists_congr fun sequence => and_congr_right fun hsequence => ?_
  rw [List.infix_cons_iff]
  refine or_iff_right fun hp => ?_
  obtain ⟨rest, hrest⟩ := hp
  have hafter := afterEscape?_eq_some_iff.2 ⟨sequence, hsequence, hrest.symm⟩
  exact nomatch h.symm.trans hafter

/-- **A text stays as it is** exactly if it has no sequence. -/
theorem stripEscapes_eq_self_iff (text : Text) : stripEscapes text = text ↔ ¬ HasEscape text := by
  induction text using escape_induction with
  | nil =>
    refine iff_of_true rfl ?_
    rintro ⟨sequence, hsequence, hpart⟩
    have hpos := hsequence.length_pos
    have hle := hpart.length_le
    rw [List.length_nil] at hle
    omega
  | plain c cs h ih =>
    rw [stripEscapes_cons h, hasEscape_cons h, ← ih]
    exact ⟨List.tail_eq_of_cons_eq, congrArg (List.cons c)⟩
  | escape sequence rest h _ =>
    refine iff_of_false (fun heq => ?_) ?_
    · have hpos := h.length_pos
      have hle := (stripEscapes_sublist rest).length_le
      rw [stripEscapes_append h] at heq
      rw [heq, List.length_append] at hle
      omega
    · exact not_not_intro ⟨sequence, h, (List.prefix_append sequence rest).isInfix⟩

/-! ### Clean pages -/

/-- Ending lines otherwise neither makes a sequence nor breaks one. -/
theorem hasEscape_unifyLineEnds (text : Text) :
    HasEscape (unifyLineEnds text) ↔ HasEscape text := by
  refine exists_congr fun sequence => and_congr_right fun hsequence => ?_
  have hne : sequence ≠ [] := List.length_pos_iff.1 hsequence.length_pos
  have hapart {old : Text} (hold : ∀ c ∈ old, c = '\r' ∨ c = '\n') :
      ∀ c ∈ sequence, c ∉ old ∧ c ∉ ['\n'] := by
    intro c hc
    obtain ⟨hreturn, hfeed⟩ := hsequence.ne_lineEnd hc
    refine ⟨fun hmem => ?_, fun hmem => hfeed (List.mem_singleton.1 hmem)⟩
    rcases hold c hmem with heq | heq
    · exact hreturn heq
    · exact hfeed heq
  rw [unifyLineEnds,
    Text.infix_replaceAll_iff (List.cons_ne_nil _ _) (List.cons_ne_nil _ _) hne
      (hapart (by simp)),
    Text.infix_replaceAll_iff (List.cons_ne_nil _ _) (List.cons_ne_nil _ _) hne
      (hapart (by simp))]

theorem mem_of_mem_clean {c : Char} {raw : Text} (h : c ∈ clean raw) :
    c ≠ '\r' ∧ c ≠ backspace ∧ (c = '\n' ∨ c ∈ stripEscapes raw) := by
  obtain ⟨hreturn, hc⟩ := mem_of_mem_unifyLineEnds h
  rcases hc with rfl | hc
  · exact ⟨hreturn, by decide, Or.inl rfl⟩
  · rw [(rounds_stripOverstrike _).eq_shown] at hc
    obtain ⟨hmem, hbackspace⟩ := mem_shown hc
    exact ⟨hreturn, hbackspace, Or.inr hmem⟩

/-- Of a clean page only escape sequences are dropped. -/
theorem clean_clean (raw : Text) : clean (clean raw) = stripEscapes (clean raw) := by
  have hsub : stripEscapes (clean raw) ⊆ clean raw := (stripEscapes_sublist _).subset
  have hbackspace : backspace ∉ stripEscapes (clean raw) :=
    fun hc => (mem_of_mem_clean (hsub hc)).2.1 rfl
  have hreturn : '\r' ∉ stripEscapes (clean raw) :=
    fun hc => (mem_of_mem_clean (hsub hc)).1 rfl
  rw [clean, stripOverstrike_of_not_mem hbackspace, unifyLineEnds_of_not_mem hreturn]

/-- Pages on which every escape character begins a sequence. -/
inductive Marked : Text → Prop
  | nil : Marked []
  | plain {c : Char} {rest : Text} : c ≠ '\x1b' → Marked rest → Marked (c :: rest)
  | escape {sequence rest : Text} : IsEscape sequence → Marked rest → Marked (sequence ++ rest)

theorem marked_of_not_mem {text : Text} (h : '\x1b' ∉ text) : Marked text := by
  induction text with
  | nil => exact Marked.nil
  | cons c cs ih =>
    rw [List.mem_cons, not_or] at h
    exact Marked.plain (Ne.symm h.1) (ih h.2)

theorem Marked.append {first second : Text} (h : Marked first) (hsecond : Marked second) :
    Marked (first ++ second) := by
  induction h with
  | nil => exact hsecond
  | plain hc _ ih => exact Marked.plain hc ih
  | escape hsequence _ ih =>
    rw [List.append_assoc]
    exact Marked.escape hsequence ih

/-- No escape character is left of such a page. -/
theorem Marked.not_mem {raw : Text} (h : Marked raw) : '\x1b' ∉ stripEscapes raw := by
  induction h with
  | nil => exact List.not_mem_nil
  | @plain c rest hc _ ih =>
    have hafter : afterEscape? (c :: rest) = none := by
      cases hafter : afterEscape? (c :: rest) with
      | none => rfl
      | some after =>
        obtain ⟨sequence, ⟨_, _, _, rfl, -⟩, heq⟩ := afterEscape?_eq_some_iff.1 hafter
        exact absurd (List.head_eq_of_cons_eq heq) hc
    rw [stripEscapes_cons hafter, List.mem_cons, not_or]
    exact ⟨Ne.symm hc, ih⟩
  | escape hsequence _ ih =>
    rw [stripEscapes_append hsequence]
    exact ih

theorem Marked.not_hasEscape {raw : Text} (h : Marked raw) : ¬ HasEscape (clean raw) := by
  rintro ⟨sequence, hsequence, hpart⟩
  obtain ⟨-, -, hfeed | hmem⟩ := mem_of_mem_clean (hpart.subset hsequence.escape_mem)
  · exact absurd hfeed (by decide)
  · exact h.not_mem hmem

/-- A page that cleaning does not change has the entries of the page it was made of. -/
theorem entries_clean {raw : Text} (h : clean (clean raw) = clean raw) (options : ScanOptions) :
    entries options (clean raw) = entries options raw := by
  unfold entries
  rw [h]

/-- **Clean for good.** A clean page has no backspace and no carriage return. Cleaning it again
changes nothing exactly if it has no escape sequence, that is, if the raw page without its sequences
shows none on a terminal; and then it has the entries of the raw page, under all options. It has no
sequence if every escape character of the raw page begins one. -/
theorem clean_clean_iff (raw : Text) :
    (backspace ∉ clean raw ∧ '\r' ∉ clean raw) ∧
      (clean (clean raw) = clean raw ↔ ¬ HasEscape (clean raw)) ∧
      (HasEscape (clean raw) ↔ HasEscape (shown (stripEscapes raw))) ∧
      (¬ HasEscape (clean raw) →
        ∀ options, entries options (clean raw) = entries options raw) ∧
      (Marked raw → ¬ HasEscape (clean raw)) := by
  have hagain : clean (clean raw) = clean raw ↔ ¬ HasEscape (clean raw) := by
    rw [clean_clean, stripEscapes_eq_self_iff]
  refine ⟨⟨?_, ?_⟩, hagain, ?_, ?_, Marked.not_hasEscape⟩
  · exact fun hc => (mem_of_mem_clean hc).2.1 rfl
  · exact fun hc => (mem_of_mem_clean hc).1 rfl
  · rw [clean, hasEscape_unifyLineEnds, (rounds_stripOverstrike _).eq_shown]
  · exact fun hnone => entries_clean (hagain.2 hnone)

def boldPage : Text := "  \x1b[1m-v\x1b[m  verbose".toList

/-- The page without the sequences lists the same option. -/
theorem clean_clean_iff_bold :
    Marked boldPage ∧ ¬ HasEscape (clean boldPage) ∧
      entries {} (clean boldPage) = entries {} boldPage := by
  have hbold : IsEscape "\x1b[1m".toList :=
    ⟨['1'], [], 'm', rfl, List.all_eq_true.1 rfl, List.forall_mem_nil _, rfl⟩
  have hflag : Marked ("\x1b[1m".toList ++ "-v".toList) :=
    Marked.escape hbold (marked_of_not_mem (by decide))
  have hrest : Marked ("\x1b[m".toList ++ "  verbose".toList) :=
    Marked.escape isEscape_normal (marked_of_not_mem (by decide))
  have hmarked : Marked boldPage :=
    (marked_of_not_mem (by decide : '\x1b' ∉ "  ".toList)).append (hflag.append hrest)
  obtain ⟨-, -, -, hentries, hnone⟩ := clean_clean_iff boldPage
  exact ⟨hmarked, hnone hmarked, hentries (hnone hmarked) {}⟩

/-- A sequence between the escape character of another one and its rest. -/
def nestedPage : Text := "\x1b\x1b[m[m  -v  verbose".toList

/-- A character taken back between the escape character of a sequence and its rest. -/
def struckPage : Text := "\x1bx\x08[m".toList

/-- **Not every clean page is clean.** What is dropped may bring the parts of a sequence together;
then a page that has been cleaned before has other entries. -/
theorem escape_left_behind :
    HasEscape (clean nestedPage) ∧ clean (clean nestedPage) ≠ clean nestedPage ∧
      entries {} (clean nestedPage) ≠ entries {} nestedPage ∧ HasEscape (clean struckPage) := by
  refine ⟨⟨_, isEscape_normal, ?_⟩, by decide +kernel, by decide +kernel, ⟨_, isEscape_normal, ?_⟩⟩
  · exact ⟨[], "  -v  verbose".toList, by decide +kernel⟩
  · exact ⟨[], [], by decide +kernel⟩

end Page

end CommandGrammar
