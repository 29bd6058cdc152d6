import CommandGrammar.Proofs.FirstValue

/-!
# What a word names

The rules for the option of a word, each told without the search that applies it: an exact spelling
comes first, then the longest flag and delimiter that the word begins with, then the only long
option that it abbreviates. Where two options fit equally well the word is ambiguous.

The rules leave no choice as long as no flag stands twice, and they leave no word out: `sweepOption`
goes over the options once, keeps the longest fit so far together with a mark whether another one is
as long, and always ends where some rule applies.

* `abbreviation_of_abbreviates`: the rules for abbreviations;
* `findOption_of_names`: the rules leave no choice;
* `Sweep.Found.see`: what a sweep knows about the options it has seen;
* `findOption_eq_iff`: a word names what the rules say, and a sweep finds it.
-/

namespace CommandGrammar

namespace Text

/-- A text is cut before its first matching character. -/
theorem cutAt?_eq_some_iff {stop : Char} {text before after : Text} :
    cutAt? (· == stop) text = some (before, after) ↔
      text = before ++ stop :: after ∧ stop ∉ before := by
  constructor
  · intro h
    unfold cutAt? at h
    split at h
    · exact absurd h (by simp)
    · rename_i c rest hdrop
      simp only [Option.some.injEq, Prod.mk.injEq] at h
      obtain ⟨rfl, rfl⟩ := h
      obtain ⟨-, -, -, hc⟩ := exists_of_dropWhile_eq_cons hdrop
      obtain rfl : c = stop := by simpa using hc
      constructor
      · rw [← hdrop, List.takeWhile_append_dropWhile]
      · intro hmem
        simpa using List.all_eq_true.1 List.all_takeWhile _ hmem
  · rintro ⟨rfl, hstop⟩
    have hbefore : ∀ c ∈ before, (!(c == stop)) = true := by
      intro c hc
      rw [Bool.not_eq_true', beq_eq_false_iff_ne]
      rintro rfl
      exact hstop hc
    have hafter : ∀ c ∈ (stop :: after).head?, (!(c == stop)) = false := by simp
    have hparts := takeWhile_dropWhile_append hbefore hafter
    unfold cutAt?
    rw [hparts.1, hparts.2]

theorem cutAt?_eq_none_iff {stop : Char} {text : Text} :
    cutAt? (· == stop) text = none ↔ stop ∉ text := by
  constructor
  · intro h hmem
    unfold cutAt? at h
    split at h
    · rename_i hdrop
      rw [dropWhile_eq_nil_iff_all, List.all_eq_true] at hdrop
      simpa using hdrop stop hmem
    · exact absurd h (by simp)
  · intro h
    cases hcut : cutAt? (· == stop) text with
    | none => rfl
    | some parts =>
      refine absurd ?_ h
      rw [(cutAt?_eq_some_iff.1 hcut).1]
      exact List.mem_append_right _ List.mem_cons_self

end Text

/-! ### The rules -/

namespace Spec

/-- Whether a word carries a value for an option: it begins with the flag and the delimiter, the
value is the rest of it, and there is more of it than the flag. -/
def Carries (s : Spec) (token value : Text) : Prop :=
  ∃ flag, s.flag? = some flag ∧ s.takesValue = true ∧ s.style.acceptsInline = true ∧
    flag.length < token.length ∧ token = flag ++ s.delimiter ++ value

/-- The length of the flag of an option together with its delimiter. -/
def headLength (s : Spec) : Nat := (s.flag?.getD [] ++ s.delimiter).length

/-- Whether an option is a long one whose flag begins with a name. -/
def Extends (s : Spec) (name : Text) : Prop :=
  ∃ flag, s.flag? = some flag ∧ ['-', '-'] <+: flag ∧ name <+: flag

theorem Carries.length_eq {s : Spec} {token value : Text} (h : s.Carries token value) :
    token.length = s.headLength + value.length := by
  obtain ⟨flag, hflag, -, -, -, hword⟩ := h
  rw [hword, headLength, hflag, List.length_append]
  rfl

theorem Carries.value_eq {s : Spec} {token value : Text} (h : s.Carries token value) :
    token.drop s.headLength = value := by
  obtain ⟨flag, hflag, -, -, -, rfl⟩ := h
  unfold headLength
  rw [hflag, Option.getD_some, List.drop_left]

end Spec

namespace Line

/-- Whether a word consists of a name and, behind its first equals sign, a value. -/
def Splits (token name : Text) : Option Text → Prop
  | none => token = name ∧ '=' ∉ token
  | some value => token = name ++ '=' :: value ∧ '=' ∉ name

/-- Whether a word may abbreviate a long option. -/
def LooksLong (token : Text) : Prop := ['-', '-'] <+: token ∧ 2 < token.length

/-- What a word abbreviates, by the long options that extend its name: nothing without any, and
nothing certain with more than one. -/
inductive Abbreviates (members : List Member) (token : Text) (isLast : Bool) : OptionHit → Prop
  | short (hlong : ¬ LooksLong token) : Abbreviates members token isLast .miss
  /-- The last word may still grow. -/
  | growing (hname : '=' ∉ token) (hlast : isLast = true) : Abbreviates members token isLast .miss
  | unknown {name : Text} {value? : Option Text} (hlong : LooksLong token)
      (hname : Splits token name value?) (hlast : value? = none → isLast = false)
      (hnone : ∀ m ∈ members, ¬ m.spec.Extends name) : Abbreviates members token isLast .miss
  | ambiguous {name : Text} {value? : Option Text} {m other : Member} (hlong : LooksLong token)
      (hname : Splits token name value?) (hlast : value? = none → isLast = false)
      (hm : m ∈ members) (hother : other ∈ members) (hne : m ≠ other)
      (hextends : m.spec.Extends name) (hextends' : other.spec.Extends name) :
      Abbreviates members token isLast .ambiguous
  | named {m : Member} (hlong : LooksLong token) (hname : '=' ∉ token) (hlast : isLast = false)
      (hm : m ∈ members) (hextends : m.spec.Extends token)
      (honly : ∀ other ∈ members, other.spec.Extends token → other = m) :
      Abbreviates members token isLast (.named m)
  | inline {m : Member} {name value : Text} (hlong : LooksLong token)
      (hname : Splits token name (some value)) (hm : m ∈ members) (hextends : m.spec.Extends name)
      (honly : ∀ other ∈ members, other.spec.Extends name → other = m)
      (hinline : m.spec.takesValue = true ∧ m.spec.style.acceptsInline = true) :
      Abbreviates members token isLast (.inline m value)
  | valueless {m : Member} {name value : Text} (hlong : LooksLong token)
      (hname : Splits token name (some value)) (hm : m ∈ members) (hextends : m.spec.Extends name)
      (honly : ∀ other ∈ members, other.spec.Extends name → other = m)
      (hinline : ¬ (m.spec.takesValue = true ∧ m.spec.style.acceptsInline = true)) :
      Abbreviates members token isLast .miss

/-- What a word names. -/
inductive Names (members : List Member) (token : Text) (isLast : Bool) : OptionHit → Prop
  | spelled {m : Member} (hm : m ∈ members) (hflag : m.spec.flag? = some token) :
      Names members token isLast (.named m)
  | carrying {m : Member} {value : Text} (hspelled : ∀ m ∈ members, m.spec.flag? ≠ some token)
      (hm : m ∈ members) (hvalue : m.spec.Carries token value)
      (hlongest : ∀ other ∈ members, ∀ value', other.spec.Carries token value' → other ≠ m →
        other.spec.headLength < m.spec.headLength) :
      Names members token isLast (.inline m value)
  | tied {m other : Member} {value value' : Text}
      (hspelled : ∀ m ∈ members, m.spec.flag? ≠ some token)
      (hm : m ∈ members) (hother : other ∈ members) (hne : m ≠ other)
      (hvalue : m.spec.Carries token value) (hvalue' : other.spec.Carries token value')
      (hlength : m.spec.headLength = other.spec.headLength)
      (hlongest : ∀ third ∈ members, ∀ value'', third.spec.Carries token value'' →
        third.spec.headLength ≤ m.spec.headLength) :
      Names members token isLast .ambiguous
  | abbreviating {hit : OptionHit} (hspelled : ∀ m ∈ members, m.spec.flag? ≠ some token)
      (hcarries : ∀ m ∈ members, ∀ value, ¬ m.spec.Carries token value)
      (hhit : Abbreviates members token isLast hit) : Names members token isLast hit

/-! ### Abbreviations -/

theorem mem_abbreviated_iff {members : List Member} {name : Text} {m : Member} :
    m ∈ abbreviated members name ↔ m ∈ members ∧ m.spec.Extends name := by
  refine ⟨mem_abbreviated, fun ⟨hm, flag, hflag, hlong, hname⟩ => ?_⟩
  refine List.mem_filter.2 ⟨hm, ?_⟩
  rw [hflag]
  dsimp only
  rw [Text.startsWith_iff.2 hlong, Text.startsWith_iff.2 hname]
  rfl

theorem looksLong_iff {token : Text} :
    LooksLong token ↔ (!Text.startsWith ['-', '-'] token || token.length < 3) = false := by
  rw [Bool.or_eq_false_iff, Bool.not_eq_false', Text.startsWith_iff, decide_eq_false_iff_not,
    Nat.not_lt]
  rfl

/-- Of the members that have some property there is none, one, or more than one. -/
theorem none_one_or_more (members : List Member) (p : Member → Prop) :
    (∀ m ∈ members, ¬ p m) ∨ (∃ m ∈ members, p m ∧ ∀ other ∈ members, p other → other = m) ∨
      ∃ m ∈ members, ∃ other ∈ members, m ≠ other ∧ p m ∧ p other := by
  by_cases hany : ∃ m ∈ members, p m
  · obtain ⟨m, hm, hpm⟩ := hany
    refine Or.inr ?_
    by_cases honly : ∀ other ∈ members, p other → other = m
    · exact Or.inl ⟨m, hm, hpm, honly⟩
    · simp only [not_forall] at honly
      obtain ⟨other, hother, hpother, hne⟩ := honly
      exact Or.inr ⟨m, hm, other, hother, Ne.symm hne, hpm, hpother⟩
  · exact Or.inl fun m hm hpm => hany ⟨m, hm, hpm⟩

/-- Some rule applies to every word. -/
theorem exists_abbreviates (members : List Member) (token : Text) (isLast : Bool) :
    ∃ hit, Abbreviates members token isLast hit := by
  by_cases hlong : LooksLong token
  · by_cases hgrowing : '=' ∉ token ∧ isLast = true
    · exact ⟨_, .growing hgrowing.1 hgrowing.2⟩
    · obtain ⟨name, value?, hname, hlast⟩ : ∃ name value?, Splits token name value? ∧
          (value? = none → isLast = false) := by
        cases hcut : Text.cutAt? (· == '=') token with
        | none =>
          have hequals := Text.cutAt?_eq_none_iff.1 hcut
          refine ⟨token, none, ⟨rfl, hequals⟩, fun _ => ?_⟩
          exact Bool.eq_false_iff.2 fun hlast => hgrowing ⟨hequals, hlast⟩
        | some parts => exact ⟨parts.1, some parts.2, Text.cutAt?_eq_some_iff.1 hcut, nofun⟩
      rcases none_one_or_more members (fun m => m.spec.Extends name) with
        hnone | ⟨m, hm, hextends, honly⟩ | ⟨m, hm, other, hother, hne, hextends, hextends'⟩
      · exact ⟨_, .unknown hlong hname hlast hnone⟩
      · cases value? with
        | none =>
          obtain ⟨rfl, hequals⟩ := hname
          exact ⟨_, .named hlong hequals (hlast rfl) hm hextends honly⟩
        | some value =>
          by_cases hinline : m.spec.takesValue = true ∧ m.spec.style.acceptsInline = true
          · exact ⟨_, .inline hlong hname hm hextends honly hinline⟩
          · exact ⟨_, .valueless hlong hname hm hextends honly hinline⟩
      · exact ⟨_, .ambiguous hlong hname hlast hm hother hne hextends hextends'⟩
  · exact ⟨_, .short hlong⟩

/-- What a name abbreviates, by the long options that extend it. -/
def readName : Option Text → List Member → OptionHit
  | _, [] => .miss
  | none, [m] => .named m
  | some value, [m] =>
    if m.spec.takesValue && m.spec.style.acceptsInline then .inline m value else .miss
  | _, _ => .ambiguous

theorem abbreviation_of_not_looksLong {members : List Member} {token : Text} {isLast : Bool}
    (hlong : ¬ LooksLong token) : abbreviation members token isLast = .miss := by
  rw [looksLong_iff, Bool.not_eq_false] at hlong
  unfold abbreviation
  rw [if_pos hlong]

theorem abbreviation_of_splits {members : List Member} {token name : Text} {isLast : Bool}
    {value? : Option Text} (hlong : LooksLong token) (hname : Splits token name value?)
    (hlast : value? = none → isLast = false) :
    abbreviation members token isLast = readName value? (abbreviated members name) := by
  unfold abbreviation
  rw [looksLong_iff.1 hlong, if_neg Bool.false_ne_true]
  cases value? with
  | none =>
    obtain ⟨rfl, hequals⟩ := hname
    rw [Text.cutAt?_eq_none_iff.2 hequals, hlast rfl]
    rcases abbreviated members token with _ | ⟨m, _ | _⟩ <;> rfl
  | some value =>
    rw [Text.cutAt?_eq_some_iff.2 hname]
    dsimp only
    rcases abbreviated members name with _ | ⟨m, _ | _⟩ <;> rfl

section Distinct

variable {members : List Member} (hnodup : (members.filterMap fun m => m.spec.flag?).Nodup)
  {token : Text} {isLast : Bool}

theorem abbreviated_eq_nil {name : Text} (hnone : ∀ m ∈ members, ¬ m.spec.Extends name) :
    abbreviated members name = [] := by
  refine List.eq_nil_iff_forall_not_mem.2 fun m hm => ?_
  obtain ⟨hm, hextends⟩ := mem_abbreviated_iff.1 hm
  exact hnone m hm hextends

/-- A list with two different items is more than one item long. -/
theorem exists_cons_cons_of_ne {α : Type} {items : List α} {a b : α} (ha : a ∈ items)
    (hb : b ∈ items) (hne : a ≠ b) : ∃ first second rest, items = first :: second :: rest := by
  rcases items with _ | ⟨first, _ | ⟨second, rest⟩⟩
  · exact absurd ha List.not_mem_nil
  · exact absurd ((List.mem_singleton.1 ha).trans (List.mem_singleton.1 hb).symm) hne
  · exact ⟨first, second, rest, rfl⟩

include hnodup

theorem abbreviated_eq_singleton {name : Text} {m : Member} (hm : m ∈ members)
    (hextends : m.spec.Extends name)
    (honly : ∀ other ∈ members, other.spec.Extends name → other = m) :
    abbreviated members name = [m] := by
  obtain ⟨flag, hflag, -⟩ := id hextends
  obtain ⟨before, after, rfl, hothers⟩ := exists_split_of_nodup hnodup hm hflag
  refine filter_eq_singleton (List.mem_filter.1 (mem_abbreviated_iff.2 ⟨hm, hextends⟩)).2 ?_
  intro other hother hfits
  have hmem : other ∈ before ++ m :: after := by
    rw [List.mem_append] at hother ⊢
    exact hother.imp_right (List.mem_cons_of_mem m)
  have hsame := honly other hmem (mem_abbreviated_iff.1 (List.mem_filter.2 ⟨hmem, hfits⟩)).2
  exact hothers other hother (hsame ▸ hflag)

/-- The rules for abbreviations leave no choice. -/
theorem abbreviation_of_abbreviates {hit : OptionHit} (h : Abbreviates members token isLast hit) :
    abbreviation members token isLast = hit := by
  cases h with
  | short hlong => exact abbreviation_of_not_looksLong hlong
  | growing hname hlast =>
    unfold abbreviation
    rw [Text.cutAt?_eq_none_iff.2 hname, hlast]
    exact ite_self _
  | unknown hlong hname hlast hnone =>
    rw [abbreviation_of_splits hlong hname hlast, abbreviated_eq_nil hnone]
    rfl
  | ambiguous hlong hname hlast hm hother hne hextends hextends' =>
    obtain ⟨first, second, rest, htwo⟩ := exists_cons_cons_of_ne
      (mem_abbreviated_iff.2 ⟨hm, hextends⟩) (mem_abbreviated_iff.2 ⟨hother, hextends'⟩) hne
    rw [abbreviation_of_splits hlong hname hlast, htwo]
    rfl
  | named hlong hname hlast hm hextends honly =>
    have hwhole : Splits token token none := ⟨rfl, hname⟩
    rw [abbreviation_of_splits hlong hwhole fun _ => hlast,
      abbreviated_eq_singleton hnodup hm hextends honly]
    rfl
  | inline hlong hname hm hextends honly hinline =>
    rw [abbreviation_of_splits hlong hname nofun,
      abbreviated_eq_singleton hnodup hm hextends honly]
    exact if_pos (Bool.and_eq_true_iff.2 hinline)
  | valueless hlong hname hm hextends honly hinline =>
    rw [abbreviation_of_splits hlong hname nofun,
      abbreviated_eq_singleton hnodup hm hextends honly]
    exact if_neg (mt Bool.and_eq_true_iff.1 hinline)

theorem abbreviates_abbreviation (token : Text) (isLast : Bool) :
    Abbreviates members token isLast (abbreviation members token isLast) := by
  obtain ⟨hit, hhit⟩ := exists_abbreviates members token isLast
  rwa [abbreviation_of_abbreviates hnodup hhit]

end Distinct

/-! ### Values joined to a flag -/

theorem inlineValue?_eq_some_iff {s : Spec} {token value : Text} :
    inlineValue? token s = some value ↔ s.Carries token value := by
  constructor
  · intro h
    obtain ⟨flag, hflag, htakes, hstyle, hword⟩ := inlineValue?_eq_some h
    refine ⟨flag, hflag, htakes, hstyle, ?_, hword⟩
    unfold inlineValue? at h
    rw [hflag] at h
    dsimp only at h
    split at h
    · rename_i hcond
      simp only [Bool.and_eq_true, decide_eq_true_eq] at hcond
      exact hcond.2
    · exact absurd h (by simp)
  · rintro ⟨flag, hflag, htakes, hstyle, hlonger, rfl⟩
    exact inlineValue?_joined hflag htakes hstyle hlonger

theorem mem_inlineFits_iff {members : List Member} {token value : Text} {m : Member} :
    (m, value) ∈ inlineFits members token ↔ m ∈ members ∧ m.spec.Carries token value := by
  constructor
  · intro h
    obtain ⟨hm, hvalue⟩ := mem_inlineFits h
    exact ⟨hm, inlineValue?_eq_some_iff.1 hvalue⟩
  · rintro ⟨hm, hvalue⟩
    exact List.mem_filterMap.2 ⟨m, hm, by rw [inlineValue?_eq_some_iff.2 hvalue]; rfl⟩

theorem mem_longestFits_of_longest {members : List Member} {token value : Text} {m : Member}
    (hm : m ∈ members) (hvalue : m.spec.Carries token value)
    (hlongest : ∀ other ∈ members, ∀ value', other.spec.Carries token value' →
      other.spec.headLength ≤ m.spec.headLength) :
    (m, value) ∈ longestFits (inlineFits members token) := by
  refine List.mem_filter.2 ⟨mem_inlineFits_iff.2 ⟨hm, hvalue⟩, List.all_eq_true.2 ?_⟩
  intro fit hfit
  obtain ⟨hother, hvalue'⟩ := mem_inlineFits_iff.1 hfit
  have hlength := hlongest fit.1 hother fit.2 hvalue'
  have hparts := hvalue.length_eq
  have hparts' := hvalue'.length_eq
  have hshorter : value.length ≤ fit.2.length := by omega
  exact decide_eq_true hshorter

theorem exactly?_eq_none_iff {members : List Member} {token : Text} :
    exactly? members token = none ↔ ∀ m ∈ members, m.spec.flag? ≠ some token := by
  unfold exactly?
  simp only [List.find?_eq_none, beq_iff_eq]

/-! ### The rules leave no choice -/

section Distinct

variable {members : List Member} (hnodup : (members.filterMap fun m => m.spec.flag?).Nodup)
  {token : Text} {isLast : Bool}

include hnodup

/-- The rules leave no choice, and a word names what they say. -/
theorem findOption_of_names {hit : OptionHit} (h : Names members token isLast hit) :
    findOption members token isLast = hit := by
  cases h with
  | spelled hm hflag =>
    obtain ⟨before, after, rfl, hothers⟩ := exists_split_of_nodup hnodup hm hflag
    exact findOption_flag hflag hothers isLast
  | @carrying m value hspelled hm hvalue hlongest =>
    obtain ⟨flag, hflag, -⟩ := id hvalue
    obtain ⟨before, after, rfl, hothers⟩ := exists_split_of_nodup hnodup hm hflag
    have hsingle : longestFits (inlineFits (before ++ m :: after) token) = [(m, value)] := by
      refine longestFits_eq_singleton (inlineValue?_eq_some_iff.2 hvalue) ?_
      intro other hother value' hvalue'
      rw [inlineValue?_eq_some_iff] at hvalue'
      have hmem : other ∈ before ++ m :: after := by
        rw [List.mem_append] at hother ⊢
        exact hother.imp_right (List.mem_cons_of_mem m)
      have hne : other ≠ m := fun hsame => hothers other hother (hsame ▸ hflag)
      have hlength := hlongest other hmem value' hvalue' hne
      have hparts := hvalue.length_eq
      have hparts' := hvalue'.length_eq
      omega
    unfold findOption
    rw [exactly?_eq_none_iff.2 hspelled, hsingle]
  | @tied m other value value' hspelled hm hother hne hvalue hvalue' hlength hlongest =>
    have hfit := mem_longestFits_of_longest hm hvalue hlongest
    have hfit' := mem_longestFits_of_longest hother hvalue' (hlength ▸ hlongest)
    obtain ⟨first, second, rest, htwo⟩ := exists_cons_cons_of_ne hfit hfit'
      fun hsame => hne (congrArg Prod.fst hsame)
    unfold findOption
    rw [exactly?_eq_none_iff.2 hspelled, htwo]
  | abbreviating hspelled hcarries hhit =>
    have hfits : inlineFits members token = [] := by
      refine List.eq_nil_iff_forall_not_mem.2 fun fit hfit => ?_
      obtain ⟨hm, hvalue⟩ := mem_inlineFits_iff.1 hfit
      exact hcarries fit.1 hm fit.2 hvalue
    unfold findOption
    rw [exactly?_eq_none_iff.2 hspelled, hfits]
    exact abbreviation_of_abbreviates hnodup hhit

end Distinct

/-! ### One pass over the options -/

/-- What a pass over the options keeps: the option with the longest flag and delimiter so far, with
their length, and whether another one is as long. -/
structure Sweep where
  best : Option (Nat × Member) := none
  tied : Bool := false

namespace Sweep

def see (token : Text) (w : Sweep) (m : Member) : Sweep :=
  match inlineValue? token m.spec with
  | none => w
  | some _ =>
    match w.best with
    | none => ⟨some (m.spec.headLength, m), false⟩
    | some (length, _) =>
      if m.spec.headLength < length then w
      else if m.spec.headLength = length then { w with tied := true }
      else ⟨some (m.spec.headLength, m), false⟩

/-- What a word names after a sweep; `abbreviated` is what it names if no option fits. -/
def hit (token : Text) (abbreviated : OptionHit) (w : Sweep) : OptionHit :=
  if w.tied then .ambiguous
  else
    match w.best with
    | some (length, m) => .inline m (token.drop length)
    | none => abbreviated

/-- What a sweep knows of the options it has seen: the word carries no value for any of them, or it
does so longest for one, or for one as long as for another. -/
inductive Found (token : Text) (seen : List Member) : Sweep → Prop
  | nothing (hcarries : ∀ m ∈ seen, ∀ value, ¬ m.spec.Carries token value) : Found token seen {}
  | single {m : Member} {value : Text} (hm : m ∈ seen) (hvalue : m.spec.Carries token value)
      (hlongest : ∀ other ∈ seen, ∀ value', other.spec.Carries token value' → other ≠ m →
        other.spec.headLength < m.spec.headLength) :
      Found token seen ⟨some (m.spec.headLength, m), false⟩
  | several {m other : Member} {value value' : Text} (hm : m ∈ seen) (hother : other ∈ seen)
      (hne : m ≠ other) (hvalue : m.spec.Carries token value)
      (hvalue' : other.spec.Carries token value')
      (hlength : m.spec.headLength = other.spec.headLength)
      (hlongest : ∀ third ∈ seen, ∀ value'', third.spec.Carries token value'' →
        third.spec.headLength ≤ m.spec.headLength) :
      Found token seen ⟨some (m.spec.headLength, m), true⟩

section See

variable {token : Text} {seen : List Member} {m : Member}

theorem forall_mem_concat {p : Member → Prop} (hseen : ∀ other ∈ seen, p other) (hm : p m) :
    ∀ other ∈ seen ++ [m], p other :=
  List.forall_mem_append.2 ⟨hseen, List.forall_mem_singleton.2 hm⟩

/-- An option that the word carries no value for is passed over. -/
theorem Found.pass {w : Sweep} (h : Found token seen w)
    (hm : ∀ value, ¬ m.spec.Carries token value) : Found token (seen ++ [m]) (w.see token m) := by
  have hsame : w.see token m = w := by
    unfold see
    rw [Option.eq_none_iff_forall_ne_some.2 fun value hvalue =>
      hm value (inlineValue?_eq_some_iff.1 hvalue)]
  rw [hsame]
  cases h with
  | nothing hcarries => exact .nothing (forall_mem_concat hcarries hm)
  | single hbest hvalue hlongest =>
    exact .single (List.mem_append_left _ hbest) hvalue
      (forall_mem_concat hlongest fun value' hvalue' => absurd hvalue' (hm value'))
  | several hbest hother hne hvalue hvalue' hlength hlongest =>
    exact .several (List.mem_append_left _ hbest) (List.mem_append_left _ hother) hne hvalue
      hvalue' hlength (forall_mem_concat hlongest fun value' hvalue' => absurd hvalue' (hm value'))

/-- An option whose flag and delimiter are longer than all before is the best one, and no other is
as long. -/
theorem Found.longer {value : Text} {length : Nat} (hvalue : m.spec.Carries token value)
    (hseen : ∀ other ∈ seen, ∀ value', other.spec.Carries token value' →
      other.spec.headLength ≤ length) (hlength : length < m.spec.headLength) :
    Found token (seen ++ [m]) ⟨some (m.spec.headLength, m), false⟩ := by
  refine .single (List.mem_append_right _ (List.mem_singleton_self m)) hvalue
    (forall_mem_concat ?_ fun _ _ hself => absurd rfl hself)
  intro other hother value' hvalue' _
  exact Nat.lt_of_le_of_lt (hseen other hother value' hvalue') hlength

/-- A sweep stays true of what it has seen. A tie is forgotten only for a longer fit, and comes
about only with an option that was not seen before. -/
theorem Found.see {w : Sweep} (h : Found token seen w) (hnew : m.spec.flag?.isSome → m ∉ seen) :
    Found token (seen ++ [m]) (w.see token m) := by
  by_cases hcarries : ∃ value, m.spec.Carries token value
  · obtain ⟨value, hvalue⟩ := hcarries
    have hlast : m ∈ seen ++ [m] := List.mem_append_right _ (List.mem_singleton_self m)
    unfold Sweep.see
    rw [inlineValue?_eq_some_iff.2 hvalue]
    cases h with
    | nothing hnone =>
      refine .single hlast hvalue (forall_mem_concat ?_ fun _ _ hself => absurd rfl hself)
      exact fun other hother value' hvalue' => absurd hvalue' (hnone other hother value')
    | @single best _ hbest hbest' hlongest =>
      have hseen : ∀ other ∈ seen, ∀ value', other.spec.Carries token value' →
          other.spec.headLength ≤ best.spec.headLength := by
        intro other hother value' hvalue'
        by_cases hsame : other = best
        · exact Nat.le_of_eq (congrArg (fun m => m.spec.headLength) hsame)
        · exact Nat.le_of_lt (hlongest other hother value' hvalue' hsame)
      dsimp only
      split
      · rename_i hshorter
        exact .single (List.mem_append_left _ hbest) hbest'
          (forall_mem_concat hlongest fun _ _ _ => hshorter)
      · split
        · rename_i hequal
          have hne : best ≠ m := by
            rintro rfl
            obtain ⟨flag, hflag, -⟩ := hvalue
            exact hnew (by rw [hflag]; rfl) hbest
          exact .several (List.mem_append_left _ hbest) hlast hne hbest' hvalue hequal.symm
            (forall_mem_concat hseen fun _ _ => Nat.le_of_eq hequal)
        · exact .longer hvalue hseen (by omega)
    | several hbest hother hne hbest' hother' hlength hlongest =>
      dsimp only
      split
      · rename_i hshorter
        exact .several (List.mem_append_left _ hbest) (List.mem_append_left _ hother) hne hbest'
          hother' hlength (forall_mem_concat hlongest fun _ _ => Nat.le_of_lt hshorter)
      · split
        · rename_i hequal
          exact .several (List.mem_append_left _ hbest) (List.mem_append_left _ hother) hne hbest'
            hother' hlength (forall_mem_concat hlongest fun _ _ => Nat.le_of_eq hequal)
        · exact .longer hvalue hlongest (by omega)
  · exact h.pass (not_exists.1 hcarries)

/-- What a sweep over all options finds. -/
theorem Found.foldl {rest : List Member} {w : Sweep} (h : Found token seen w)
    (hnodup : ((seen ++ rest).filterMap fun m => m.spec.flag?).Nodup) :
    Found token (seen ++ rest) (rest.foldl (fun w m => w.see token m) w) := by
  induction rest generalizing seen w with
  | nil => rwa [List.append_nil]
  | cons m rest ih =>
    have hnew : m.spec.flag?.isSome → m ∉ seen := by
      intro hflag hm
      obtain ⟨flag, hflag⟩ := Option.isSome_iff_exists.1 hflag
      have hflags : (m :: rest).filterMap (fun m => m.spec.flag?)
          = flag :: rest.filterMap fun m => m.spec.flag? := List.filterMap_cons_some hflag
      rw [List.filterMap_append, hflags, List.nodup_middle, List.nodup_cons] at hnodup
      exact hnodup.1 (List.mem_append_left _ (List.mem_filterMap.2 ⟨m, hm, hflag⟩))
    rw [List.append_cons] at hnodup ⊢
    exact ih (h.see hnew) hnodup

end See

end Sweep

/-- The option a word names, found in one pass over the options. -/
def sweepOption (members : List Member) (token : Text) (isLast : Bool) : OptionHit :=
  match exactly? members token with
  | some m => .named m
  | none =>
    (members.foldl (fun w m => Sweep.see token w m) {}).hit token
      (abbreviation members token isLast)

/-- Some rule applies to every word, and it says what a sweep finds. -/
theorem names_sweepOption {members : List Member}
    (hnodup : (members.filterMap fun m => m.spec.flag?).Nodup) (token : Text) (isLast : Bool) :
    Names members token isLast (sweepOption members token isLast) := by
  unfold sweepOption
  cases hexact : exactly? members token with
  | some m =>
    obtain ⟨hm, hflag⟩ := exactly?_eq_some hexact
    exact .spelled hm hflag
  | none =>
    rw [exactly?_eq_none_iff] at hexact
    have hstart : Sweep.Found token [] {} := .nothing fun m hm => absurd hm List.not_mem_nil
    have hfound : Sweep.Found token members
        (members.foldl (fun w m => Sweep.see token w m) {}) := hstart.foldl hnodup
    dsimp only
    generalize members.foldl (fun w m => Sweep.see token w m) {} = w at hfound ⊢
    cases hfound with
    | nothing hcarries =>
      exact .abbreviating hexact hcarries (abbreviates_abbreviation hnodup token isLast)
    | single hm hvalue hlongest =>
      refine .carrying hexact hm ?_ hlongest
      rwa [hvalue.value_eq]
    | several hm hother hne hvalue hvalue' hlength hlongest =>
      exact .tied hexact hm hother hne hvalue hvalue' hlength hlongest

/-- **A word names what the rules say.** Among options no two of which have the same flag, whatever
their order, a word names an option, carries a value, is ambiguous or names nothing just as the
rules have it: the option spelled so, else the one whose flag and delimiter are the longest that the
word begins with, unless another one's are as long, else the only long option that it abbreviates.
One pass that keeps the longest fit so far and a mark for a tie finds the same. -/
theorem findOption_eq_iff {members : List Member}
    (hnodup : (members.filterMap fun m => m.spec.flag?).Nodup) (token : Text) (isLast : Bool)
    (hit : OptionHit) :
    (findOption members token isLast = hit ↔ Names members token isLast hit) ∧
      sweepOption members token isLast = findOption members token isLast := by
  have hsweep := findOption_of_names hnodup (names_sweepOption hnodup token isLast)
  refine ⟨⟨?_, findOption_of_names hnodup⟩, hsweep.symm⟩
  rintro rfl
  rw [hsweep]
  exact names_sweepOption hnodup token isLast

/-- Two options whose flags and delimiters add up to the same text, and behind them one with a
longer flag. -/
def filterMembers : List Member :=
  Grammar.enlist "tool".toList 0
    [{ name := .flag "-f".toList, style := .inline, delimiter := ['='], actions := [{}] },
      { name := .flag "-f=".toList, style := .inline, actions := [{}] },
      { name := .flag "-f=no".toList, style := .inline, actions := [{}] }]

/-- The tie of the first two options is forgotten when the third one fits better. -/
theorem findOption_eq_iff_filter :
    (filterMembers.filterMap fun m => m.spec.flag?).Nodup ∧
      Names filterMembers "-f=new".toList false .ambiguous ∧
      ∃ m ∈ filterMembers, m.spec.flag? = some "-f=no".toList ∧
        Names filterMembers "-f=now".toList false (.inline m ['w']) ∧
        sweepOption filterMembers "-f=now".toList false = .inline m ['w'] := by
  have hnodup : (filterMembers.filterMap fun m => m.spec.flag?).Nodup := by decide
  have hnew : findOption filterMembers "-f=new".toList false = .ambiguous := by decide
  have hnow : ∃ m ∈ filterMembers, m.spec.flag? = some "-f=no".toList ∧
      findOption filterMembers "-f=now".toList false = .inline m ['w'] := by decide
  obtain ⟨m, hm, hflag, hfound⟩ := hnow
  have hrules := findOption_eq_iff hnodup "-f=now".toList false (.inline m ['w'])
  exact ⟨hnodup, (findOption_eq_iff hnodup _ _ _).1.1 hnew, m, hm, hflag, hrules.1.1 hfound,
    hrules.2.trans hfound⟩

end Line

end CommandGrammar
