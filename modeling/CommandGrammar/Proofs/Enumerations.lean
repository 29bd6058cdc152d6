import Mathlib.Data.List.Basic
import CommandGrammar.Grammar.Guess

/-!
# Enumerations

A placeholder in braces is an enumeration: its members stand between the braces, bars or commas
between them and blanks around each. Brackets and equals signs around the braces, as an optional
value has them, do not matter. Reading such a placeholder gives back what was listed, every member
once.

* `Text.distinct_eq_eraseDups`: only the first copy of an item is kept;
* `Enumeration.Lists.splitWhere`, `Enumeration.exists_lists`: a listing is read by cutting and
  trimming, and every text without braces is a listing;
* `choiceBody?_eq_some_iff`, `parseChoices_eq_some_iff`: which placeholders are enumerations, and
  of what;
* `guessSource_enumeration`: listed members are read back, and what is read was listed.
-/

namespace CommandGrammar

namespace Text

/-! ### The first copy of every item -/

/-- Keeping the items that are new to those already kept. -/
theorem foldl_distinct (items kept : List Text) :
    items.foldl (fun kept item => if kept.contains item then kept else kept ++ [item]) kept
      = kept ++ (items.filter fun item => !kept.contains item).eraseDups := by
  induction items generalizing kept with
  | nil => exact (List.append_nil kept).symm
  | cons first rest ih =>
    rw [List.foldl_cons, ih]
    cases hseen : kept.contains first with
    | true =>
      have hskip : ((first :: rest).filter fun item => !kept.contains item)
          = rest.filter fun item => !kept.contains item :=
        List.filter_cons_of_neg (by rw [hseen]; exact Bool.false_ne_true)
      rw [if_pos rfl, hskip]
    | false =>
      have hnew : ((first :: rest).filter fun item => !kept.contains item)
          = first :: rest.filter fun item => !kept.contains item :=
        List.filter_cons_of_pos (by rw [hseen]; rfl)
      have hlater : (rest.filter fun item => !(kept ++ [first]).contains item)
          = (rest.filter fun item => !kept.contains item).filter fun item => !item == first := by
        rw [List.filter_filter]
        refine List.filter_congr fun item _ => ?_
        rw [List.contains_append, List.contains_cons, List.contains_nil, Bool.or_false,
          Bool.not_or, Bool.and_comm]
      rw [if_neg Bool.false_ne_true, hnew, List.eraseDups_cons, hlater, List.append_assoc]
      rfl

theorem distinct_eq_eraseDups (items : List Text) : distinct items = items.eraseDups := by
  have hall : (items.filter fun item => !([] : List Text).contains item) = items :=
    List.filter_eq_self.2 fun _ _ => rfl
  rw [distinct, foldl_distinct, hall, List.nil_append]

/-- The first copies stand in the order of the items, and each of them is another one. -/
theorem eraseDups_sublist_nodup :
    ∀ items : List Text, items.eraseDups.Sublist items ∧ items.eraseDups.Nodup
  | [] => ⟨List.Sublist.slnil, List.nodup_nil⟩
  | first :: rest => by
    obtain ⟨hsub, hnodup⟩ := eraseDups_sublist_nodup (rest.filter fun item => !item == first)
    have hfirst : first ∉ (rest.filter fun item => !item == first).eraseDups := by
      simp only [List.mem_eraseDups, List.mem_filter, beq_self_eq_true, Bool.not_true,
        Bool.false_eq_true, and_false, not_false_eq_true]
    rw [List.eraseDups_cons]
    exact ⟨(hsub.trans List.filter_sublist).cons_cons first, List.nodup_cons.2 ⟨hfirst, hnodup⟩⟩
termination_by items => items.length
decreasing_by exact Nat.lt_succ_of_le (List.length_filter_le _ _)

/-! ### Texts with blanks around them -/

/-- Whether a text neither begins nor ends with a blank. -/
structure IsTrimmed (t : Text) : Prop where
  head : ∀ c ∈ t.head?, isBlank c = false
  last : ∀ c ∈ t.getLast?, isBlank c = false

instance (t : Text) : Decidable (IsTrimmed t) :=
  have : Decidable (∀ c ∈ t.head?, isBlank c = false) := Option.decidableForallMem _
  have : Decidable (∀ c ∈ t.getLast?, isBlank c = false) := Option.decidableForallMem _
  decidable_of_iff ((∀ c ∈ t.head?, isBlank c = false) ∧ ∀ c ∈ t.getLast?, isBlank c = false)
    ⟨fun ⟨hhead, hlast⟩ => ⟨hhead, hlast⟩, fun h => ⟨h.head, h.last⟩⟩

/-- Whether a text is another one with blanks around it. -/
def Padded (t padded : Text) : Prop :=
  ∃ left right, padded = left ++ t ++ right ∧ isAllBlank left = true ∧ isAllBlank right = true

/-- An ending that satisfies a test is dropped, up to what does not satisfy it. -/
theorem dropWhileEnd_append {p : Char → Bool} {kept ending : Text}
    (hkept : ∀ c ∈ kept.getLast?, p c = false) (hending : ∀ c ∈ ending, p c = true) :
    dropWhileEnd p (kept ++ ending) = kept := by
  have hhead : ∀ c ∈ kept.reverse.head?, p c = false := by rwa [List.head?_reverse]
  have hreverse : ∀ c ∈ ending.reverse, p c = true := fun c hc => hending c (List.mem_reverse.1 hc)
  rw [dropWhileEnd, List.reverse_append, (takeWhile_dropWhile_append hreverse hhead).2,
    List.reverse_reverse]

/-- What is dropped from the end satisfies the test. -/
theorem exists_dropWhileEnd_append (p : Char → Bool) (text : Text) :
    ∃ ending, text = dropWhileEnd p text ++ ending ∧ ∀ c ∈ ending, p c = true := by
  refine ⟨(text.reverse.takeWhile p).reverse, ?_, fun c hc => ?_⟩
  · rw [dropWhileEnd, ← List.reverse_append, List.takeWhile_append_dropWhile, List.reverse_reverse]
  · exact List.all_eq_true.1 List.all_takeWhile c (List.mem_reverse.1 hc)

theorem isTrimmed_trim (text : Text) : IsTrimmed (trim text) := by
  by_cases hnil : trim text = []
  · rw [hnil]
    decide
  · obtain ⟨⟨c, rest, hhead, hc⟩, before, d, hlast, hd⟩ := exists_ends_of_trim hnil (trim_trim text)
    refine ⟨fun e he => ?_, fun e he => ?_⟩
    · rw [hhead] at he
      exact Option.some.inj he ▸ hc
    · rw [hlast, List.getLast?_concat] at he
      exact Option.some.inj he ▸ hd

/-- **Trimming takes the blanks off**, and nothing else. -/
theorem trim_eq_iff {t text : Text} : trim text = t ↔ IsTrimmed t ∧ Padded t text := by
  constructor
  · rintro rfl
    obtain ⟨right, hright, hblank⟩ := exists_dropWhileEnd_append isBlank (trimStart text)
    refine ⟨isTrimmed_trim text, text.takeWhile isBlank, right, ?_, List.all_takeWhile,
      List.all_eq_true.2 hblank⟩
    rw [List.append_assoc]
    show text = text.takeWhile isBlank ++ (dropWhileEnd isBlank (trimStart text) ++ right)
    rw [← hright]
    exact List.takeWhile_append_dropWhile.symm
  · rintro ⟨htrimmed, left, right, rfl, hleft, hright⟩
    rw [isAllBlank, List.all_eq_true] at hleft hright
    by_cases hnil : t = []
    · rw [hnil, trim_eq_nil_iff, isAllBlank, List.all_eq_true]
      intro c hc
      rcases List.mem_append.1 hc with hc | hc
      · exact hleft c (by simpa using hc)
      · exact hright c hc
    · have hhead : ∀ c ∈ (t ++ right).head?, isBlank c = false := by
        rw [List.head?_append_of_ne_nil t hnil]
        exact htrimmed.head
      rw [trim, trimStart, List.append_assoc, (takeWhile_dropWhile_append hleft hhead).2, trimEnd,
        dropWhileEnd_append htrimmed.last hright]

end Text

/-! ### Listings -/

namespace Enumeration

/-- Whether a character stands between the members of an enumeration. -/
def isBar (c : Char) : Bool := c == ',' || c == '|'

def isBrace (c : Char) : Bool := c == '\x7b' || c == '\x7d'

/-- A text that can be told apart from what stands around it in an enumeration. -/
structure IsMember (t : Text) : Prop where
  trimmed : t.IsTrimmed
  notBar : ∀ c ∈ t, isBar c = false
  notBrace : ∀ c ∈ t, isBrace c = false

instance (t : Text) : Decidable (IsMember t) :=
  decidable_of_iff (t.IsTrimmed ∧ t.any isBar = false ∧ t.any isBrace = false)
    ⟨fun ⟨htrimmed, hbar, hbrace⟩ =>
      ⟨htrimmed, Text.any_eq_false_iff.1 hbar, Text.any_eq_false_iff.1 hbrace⟩,
      fun h => ⟨h.trimmed, Text.any_eq_false_iff.2 h.notBar, Text.any_eq_false_iff.2 h.notBrace⟩⟩

/-- A text that lists members: a bar or a comma between neighbours, and blanks around each. -/
inductive Lists : List Text → Text → Prop
  | last {t padded : Text} : IsMember t → Text.Padded t padded → Lists [t] padded
  | more {t padded : Text} {bar : Char} {ts : List Text} {rest : Text} :
    IsMember t → Text.Padded t padded → isBar bar = true → Lists ts rest →
      Lists (t :: ts) (padded ++ bar :: rest)

theorem isBar_of_isBlank {c : Char} (h : Text.isBlank c = true) :
    isBar c = false ∧ isBrace c = false := by
  have hne {d : Char} (hd : Text.isBlank d = false) : (c == d) = false := by
    rw [beq_eq_false_iff_ne]
    rintro rfl
    exact absurd (h.symm.trans hd) (by decide)
  constructor
  · rw [isBar, hne (by decide), hne (by decide), Bool.or_false]
  · rw [isBrace, hne (by decide), hne (by decide), Bool.or_false]

theorem isBrace_of_isBar {c : Char} (h : isBar c = true) : isBrace c = false := by
  rcases Bool.or_eq_true_iff.1 h with hc | hc
  · rw [beq_iff_eq.1 hc]
    rfl
  · rw [beq_iff_eq.1 hc]
    rfl

theorem IsMember.plain_padded {t padded : Text} (h : IsMember t) (hpadded : Text.Padded t padded) :
    ∀ c ∈ padded, isBar c = false ∧ isBrace c = false := by
  obtain ⟨left, right, rfl, hleft, hright⟩ := hpadded
  intro c hc
  rcases List.mem_append.1 hc with hc | hc
  · rcases List.mem_append.1 hc with hc | hc
    · exact isBar_of_isBlank (List.all_eq_true.1 hleft c hc)
    · exact ⟨h.notBar c hc, h.notBrace c hc⟩
  · exact isBar_of_isBlank (List.all_eq_true.1 hright c hc)

/-- A text without bars and braces is a member with blanks around it. -/
theorem isMember_trim {piece : Text} (hbar : ∀ c ∈ piece, isBar c = false)
    (hbrace : ∀ c ∈ piece, isBrace c = false) : IsMember (Text.trim piece) :=
  ⟨Text.isTrimmed_trim piece, fun c hc => hbar c (Text.mem_of_mem_trim hc),
    fun c hc => hbrace c (Text.mem_of_mem_trim hc)⟩

/-- A listing is read by cutting it at the bars. -/
theorem Lists.splitWhere {ts : List Text} {body : Text} (h : Lists ts body) :
    (Text.splitWhere isBar body).map Text.trim = ts := by
  induction h with
  | last hmember hpadded =>
    have hplain := hmember.plain_padded hpadded
    rw [Text.splitWhere_eq_self fun c hc => (hplain c hc).1, List.map_singleton,
      Text.trim_eq_iff.2 ⟨hmember.trimmed, hpadded⟩]
  | more hmember hpadded hbar _ ih =>
    have hplain := hmember.plain_padded hpadded
    rw [Text.splitWhere_append (fun c hc => (hplain c hc).1) hbar, List.map_cons, ih,
      Text.trim_eq_iff.2 ⟨hmember.trimmed, hpadded⟩]

theorem Lists.notBrace {ts : List Text} {body : Text} (h : Lists ts body) :
    ∀ c ∈ body, isBrace c = false := by
  induction h with
  | last hmember hpadded => exact fun c hc => (hmember.plain_padded hpadded c hc).2
  | more hmember hpadded hbar _ ih =>
    intro c hc
    rcases List.mem_append.1 hc with hc | hc
    · exact (hmember.plain_padded hpadded c hc).2
    · rcases List.mem_cons.1 hc with rfl | hc
      · exact isBrace_of_isBar hbar
      · exact ih c hc

theorem Lists.forall_isMember {ts : List Text} {body : Text} (h : Lists ts body) :
    ∀ t ∈ ts, IsMember t := by
  induction h with
  | last hmember _ => exact List.forall_mem_singleton.2 hmember
  | more hmember _ _ _ ih => exact List.forall_mem_cons.2 ⟨hmember, ih⟩

/-- Every text without braces is a listing. -/
theorem exists_lists (body : Text) (hbody : ∀ c ∈ body, isBrace c = false) :
    ∃ ts, Lists ts body := by
  have hpadded (piece : Text) : Text.Padded (Text.trim piece) piece := (Text.trim_eq_iff.1 rfl).2
  cases hcut : body.dropWhile fun c => !isBar c with
  | nil =>
    rw [Text.dropWhile_eq_nil_iff_all, List.all_eq_true] at hcut
    have hbar : ∀ c ∈ body, isBar c = false := fun c hc => by simpa using hcut c hc
    exact ⟨_, .last (isMember_trim hbar hbody) (hpadded body)⟩
  | cons bar rest =>
    obtain ⟨piece, hsplit, hpiece, hbar⟩ := Text.exists_of_dropWhile_eq_cons hcut
    have hshort : rest.length < body.length := by
      rw [hsplit, List.length_append, List.length_cons]
      omega
    rw [hsplit, List.forall_mem_append, List.forall_mem_cons] at hbody
    obtain ⟨ts, hts⟩ := exists_lists rest hbody.2.2
    have hmember : IsMember (Text.trim piece) :=
      isMember_trim (fun c hc => by simpa using hpiece c hc) hbody.1
    rw [hsplit]
    exact ⟨_, .more hmember (hpadded piece) (by simpa using hbar) hts⟩
termination_by body.length

/-! ### Braces -/

/-- A body in braces, with opening brackets, equals signs and closing brackets around them. -/
def enclosed (opening equals closing : Nat) (body : Text) : Text :=
  List.replicate opening '[' ++ (List.replicate equals '='
    ++ ('\x7b' :: body ++ '\x7d' :: List.replicate closing ']'))

/-- What is left of a text when brackets and equals signs are taken off as they stand around
braces. -/
def inside (text : Text) : Text :=
  Text.dropWhileEnd (· == ']') ((text.dropWhile (· == '[')).dropWhile (· == '='))

/-- Whether a placeholder is a body in braces, alone or as in an optional value, with blanks around
all of it. -/
def Braced (body metavar : Text) : Prop :=
  ∃ opening equals closing, Text.Padded (enclosed opening equals closing body) metavar

theorem mem_head?_replicate_append {n : Nat} {c d : Char} {t : Text}
    (h : c ∈ (List.replicate n d ++ t).head?) : c = d ∨ c ∈ t.head? := by
  cases n with
  | zero => exact Or.inr h
  | succ n => exact Or.inl (Option.some.inj h).symm

section Enclosed

variable (opening equals closing : Nat) (body : Text)

theorem isTrimmed_enclosed : (enclosed opening equals closing body).IsTrimmed := by
  constructor
  · intro c hc
    rcases mem_head?_replicate_append hc with rfl | hc
    · decide
    · rcases mem_head?_replicate_append hc with rfl | hc
      · decide
      · rw [← Option.some.inj hc]
        decide
  · intro c hc
    have hlast : c ∈ ('\x7d' :: List.replicate closing ']').getLast? := by
      simpa only [enclosed, List.getLast?_append, List.getLast?_cons, Option.some_or,
        Option.mem_def] using hc
    rcases List.mem_cons.1 (List.mem_of_getLast? hlast) with rfl | hmem
    · decide
    · rw [List.eq_of_mem_replicate hmem]
      decide

theorem inside_enclosed :
    inside (enclosed opening equals closing body) = '\x7b' :: (body ++ ['\x7d']) := by
  have hbrace : ∀ c ∈ ('\x7b' :: body ++ '\x7d' :: List.replicate closing ']').head?,
      (c == '=') = false := fun c hc => by
    rw [← Option.some.inj hc]
    decide
  have hequals : ∀ c ∈ (List.replicate equals '='
      ++ ('\x7b' :: body ++ '\x7d' :: List.replicate closing ']')).head?, (c == '[') = false := by
    intro c hc
    rcases mem_head?_replicate_append hc with rfl | hc
    · rfl
    · rw [← Option.some.inj hc]
      decide
  have hreplicate (n : Nat) (d : Char) : ∀ c ∈ List.replicate n d, (c == d) = true :=
    fun c hc => beq_iff_eq.2 (List.eq_of_mem_replicate hc)
  have hends : ∀ c ∈ ('\x7b' :: (body ++ ['\x7d'])).getLast?, (c == ']') = false := by
    intro c hc
    rw [← List.cons_append, List.getLast?_concat] at hc
    rw [← Option.some.inj hc]
    decide
  have hsplit : '\x7b' :: body ++ '\x7d' :: List.replicate closing ']'
      = '\x7b' :: (body ++ ['\x7d']) ++ List.replicate closing ']' := by simp
  rw [inside, enclosed, (Text.takeWhile_dropWhile_append (hreplicate _ _) hequals).2,
    (Text.takeWhile_dropWhile_append (hreplicate _ _) hbrace).2, hsplit,
    Text.dropWhileEnd_append hends (hreplicate _ _)]

end Enclosed

theorem exists_replicate_append_dropWhile (d : Char) (text : Text) :
    ∃ n, text = List.replicate n d ++ text.dropWhile (· == d) := by
  have hall : ∀ c ∈ text.takeWhile (· == d), c = d := fun c hc =>
    beq_iff_eq.1 (List.all_eq_true.1 List.all_takeWhile c hc)
  refine ⟨(text.takeWhile (· == d)).length, ?_⟩
  rw [← List.eq_replicate_of_mem hall, List.takeWhile_append_dropWhile]

/-- What leaves a body in braces is this body with what is taken off around it. -/
theorem exists_enclosed {text body : Text} (h : inside text = '\x7b' :: (body ++ ['\x7d'])) :
    ∃ opening equals closing, text = enclosed opening equals closing body := by
  obtain ⟨opening, hopening⟩ := exists_replicate_append_dropWhile '[' text
  obtain ⟨equals, hequals⟩ := exists_replicate_append_dropWhile '=' (text.dropWhile (· == '['))
  obtain ⟨ending, hending, hclosing⟩ := Text.exists_dropWhileEnd_append (· == ']')
    ((text.dropWhile (· == '[')).dropWhile (· == '='))
  have hall : ending = List.replicate ending.length ']' :=
    List.eq_replicate_of_mem fun c hc => beq_iff_eq.1 (hclosing c hc)
  refine ⟨opening, equals, ending.length, ?_⟩
  calc text = List.replicate opening '[' ++ text.dropWhile (· == '[') := hopening
    _ = List.replicate opening '[' ++ (List.replicate equals '=' ++ (inside text ++ ending)) := by
        rw [inside, ← hending, ← hequals]
    _ = List.replicate opening '[' ++ (List.replicate equals '='
          ++ ('\x7b' :: (body ++ ['\x7d']) ++ ending)) := by rw [h]
    _ = List.replicate opening '[' ++ (List.replicate equals '='
          ++ ('\x7b' :: body ++ '\x7d' :: ending)) := by simp
    _ = enclosed opening equals ending.length body := by rw [enclosed, ← hall]

end Enumeration

open Enumeration

/-- The body of a placeholder that opens with a brace, apart from what may stand before it. -/
theorem choiceBody?_of_opening {metavar rest : Text}
    (h : inside (Text.trim metavar) = '\x7b' :: rest) :
    choiceBody? metavar
      = (Text.dropSuffix? ['\x7d'] rest).filter fun body => !body.any isBrace := by
  unfold inside at h
  unfold choiceBody?
  simp only [h]
  cases Text.dropSuffix? ['\x7d'] rest with
  | none => rfl
  | some body =>
    rw [Option.filter_some]
    show (if body.any isBrace then none else some body) = _
    cases body.any isBrace with
    | false => rfl
    | true => rfl

/-- **Which placeholders are in braces.** -/
theorem choiceBody?_eq_some_iff {metavar body : Text} :
    choiceBody? metavar = some body ↔
      Braced body metavar ∧ ∀ c ∈ body, isBrace c = false := by
  constructor
  · intro h
    have hopens : ∃ rest, inside (Text.trim metavar) = '\x7b' :: rest := by
      unfold choiceBody? at h
      dsimp only at h
      split at h
      · exact ⟨_, by assumption⟩
      · exact nomatch h
    obtain ⟨rest, hinner⟩ := hopens
    rw [choiceBody?_of_opening hinner, Option.filter_eq_some_iff] at h
    obtain ⟨hrest, hbrace⟩ := h
    rw [Text.dropSuffix?_eq_some_iff.1 hrest] at hinner
    obtain ⟨opening, equals, closing, htrim⟩ := exists_enclosed hinner
    exact ⟨⟨opening, equals, closing, (Text.trim_eq_iff.1 htrim).2⟩,
      Text.any_eq_false_iff.1 (by simpa using hbrace)⟩
  · rintro ⟨⟨opening, equals, closing, hpadded⟩, hbody⟩
    have htrim : Text.trim metavar = enclosed opening equals closing body :=
      Text.trim_eq_iff.2 ⟨isTrimmed_enclosed opening equals closing body, hpadded⟩
    have hinner : inside (Text.trim metavar) = '\x7b' :: (body ++ ['\x7d']) := by
      rw [htrim, inside_enclosed]
    rw [choiceBody?_of_opening hinner, Option.filter_eq_some_iff, Text.any_eq_false_iff.2 hbody]
    exact ⟨Text.dropSuffix?_eq_some_iff.2 rfl, rfl⟩

/-- **Which placeholders are enumerations**, and of what. -/
theorem parseChoices_eq_some_iff {metavar : Text} {choices : List Text} :
    parseChoices metavar = some choices ↔
      choices ≠ [] ∧ ∃ body written, Braced body metavar ∧ Lists written body ∧
        choices = (written.filter fun t => !t.isEmpty).eraseDups := by
  have hread {body : Text} {written : List Text} (hbraced : Braced body metavar)
      (hlists : Lists written body) :
      parseChoices metavar =
        let choices := (written.filter fun t => !t.isEmpty).eraseDups
        if choices.isEmpty then none else some choices := by
    have hbody : choiceBody? metavar = some body :=
      choiceBody?_eq_some_iff.2 ⟨hbraced, hlists.notBrace⟩
    rw [parseChoices, hbody]
    dsimp only
    have hcut : (Text.splitWhere (fun c => c == ',' || c == '|') body).map Text.trim = written :=
      hlists.splitWhere
    rw [hcut, Text.distinct_eq_eraseDups]
  constructor
  · intro h
    cases hbody : choiceBody? metavar with
    | none =>
      rw [parseChoices, hbody] at h
      exact nomatch h
    | some body =>
      obtain ⟨hbraced, hbrace⟩ := choiceBody?_eq_some_iff.1 hbody
      obtain ⟨written, hlists⟩ := exists_lists body hbrace
      rw [hread hbraced hlists] at h
      dsimp only at h
      split at h
      · exact nomatch h
      · rename_i hne
        obtain rfl := Option.some.inj h
        exact ⟨by simpa using hne, body, written, hbraced, hlists, rfl⟩
  · rintro ⟨hne, body, written, hbraced, hlists, rfl⟩
    rw [hread hbraced hlists]
    dsimp only
    rw [if_neg (by simpa using hne)]

/-- **Enumerations are read exactly.** A placeholder that lists members in braces is guessed to be
the enumeration of just these members, each where it was listed first, under any name and with any
hints. Conversely, what is read from a placeholder are texts without blanks at their ends, none of
them empty or given twice, that are listed in this order between its braces. -/
theorem guessSource_enumeration :
    (∀ {choices : List Text} {body metavar : Text}, (∀ c ∈ choices, c ≠ []) →
      Lists choices body → Braced body metavar → ∀ name hints,
        guessSource name metavar hints = .literal choices.eraseDups) ∧
    ∀ {metavar : Text} {choices : List Text}, parseChoices metavar = some choices →
      (∀ c ∈ choices, c ≠ [] ∧ c.IsTrimmed) ∧ choices.Nodup ∧
        ∃ body written, Braced body metavar ∧ Lists written body ∧ choices.Sublist written := by
  constructor
  · intro choices body metavar hne hlists hbraced name hints
    have hall : (choices.filter fun t => !t.isEmpty) = choices :=
      List.filter_eq_self.2 fun c hc => by simpa using hne c hc
    have hsome : choices.eraseDups ≠ [] := by
      cases hlists <;> simp [List.eraseDups_cons]
    have hread : parseChoices metavar = some choices.eraseDups :=
      parseChoices_eq_some_iff.2 ⟨hsome, body, choices, hbraced, hlists, by rw [hall]⟩
    rw [guessSource, hread]
  · intro metavar choices hread
    obtain ⟨-, body, written, hbraced, hlists, rfl⟩ := parseChoices_eq_some_iff.1 hread
    obtain ⟨hsub, hnodup⟩ := Text.eraseDups_sublist_nodup (written.filter fun t => !t.isEmpty)
    refine ⟨fun c hc => ?_, hnodup, body, written, hbraced, hlists,
      hsub.trans List.filter_sublist⟩
    obtain ⟨hmem, hnonempty⟩ := List.mem_filter.1 (hsub.subset hc)
    exact ⟨by simpa using hnonempty, (hlists.forall_isMember c hmem).trimmed⟩

theorem guessSource_enumeration_color :
    let always := "always".toList
    let never := "never".toList
    Lists [always, never, always] "always | never,always".toList ∧
      Braced "always | never,always".toList "[=\x7balways | never,always\x7d]".toList ∧
      (∀ name hints, guessSource name "[=\x7balways | never,always\x7d]".toList hints
        = .literal [always, never]) ∧
      parseChoices "\x7ba,,b\x7d".toList = some ["a".toList, "b".toList] ∧
      ["a".toList, "b".toList].Nodup := by
  intro always never
  have hlast : Lists [always] "always".toList :=
    .last (by decide) ⟨[], [], rfl, rfl, rfl⟩
  have hrest : Lists [never, always] " never,always".toList :=
    .more (by decide) (show Text.Padded never " never".toList from ⟨[' '], [], rfl, rfl, rfl⟩) rfl
      hlast
  have hlists : Lists [always, never, always] "always | never,always".toList :=
    .more (by decide) (show Text.Padded always "always ".toList from ⟨[], [' '], rfl, rfl, rfl⟩)
      rfl hrest
  have hbraced : Braced "always | never,always".toList
      "[=\x7balways | never,always\x7d]".toList :=
    ⟨1, 1, 1, [], [], rfl, rfl, rfl⟩
  have hread : parseChoices "\x7ba,,b\x7d".toList = some ["a".toList, "b".toList] := by decide
  exact ⟨hlists, hbraced, guessSource_enumeration.1 (by decide) hlists hbraced, hread,
    (guessSource_enumeration.2 hread).2.1⟩

end CommandGrammar
