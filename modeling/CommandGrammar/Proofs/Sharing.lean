import CommandGrammar.Grammar.Sharing
import Mathlib.Data.List.Nodup

/-!
# What sharing comes to

Sharing walks over the places of a list, forms a group around every option that no group has had
before, and changes the list as it goes. If the spellings of the options are all different and an
option and its aliases answer to the same names, the groups are the classes of spellings of one
option: no two of them overlap, none is met half changed, and the walk leaves no trace.

* `shareAliases_eq_map`: every specification then shares, once, with the donors of its own class;
* `shareAliases_append`: two lists that keep to themselves share each on its own.

`sharedAt` is the list after the groups at some places have been met. The walk is followed from one
such list to the next (`shareStep_sharedAt`, `foldl_shareStep_sharedAt`).
-/

namespace CommandGrammar

/-! ### Classes of spellings -/

namespace Spec

/-- Whether an option has another specification in its class: that one is spelled like the option
or like one of its aliases. -/
def isSpelledBy (s t : Spec) : Bool := s.isOption && t.flag?.any s.answersTo

theorem isSpelledBy_iff {s t : Spec} :
    s.isSpelledBy t = true ↔
      s.isOption = true ∧ ∃ flag, t.flag? = some flag ∧ s.answersTo flag = true := by
  simp [isSpelledBy, Option.any_eq_true]

theorem answersTo_iff {s : Spec} {name : Text} :
    s.answersTo name = true ↔ s.flag? = some name ∨ name ∈ s.aliases := by
  simp [answersTo]

/-- An option is in its own class. -/
theorem isSpelledBy_self {s : Spec} (h : s.isOption = true) : s.isSpelledBy s = true := by
  obtain ⟨flag, hflag⟩ := Option.isSome_iff_exists.1 h
  exact isSpelledBy_iff.2 ⟨h, flag, hflag, answersTo_iff.2 (Or.inl hflag)⟩

end Spec

/-- The specifications that give value slots to one of their class. -/
def donorsFor (specs : List Spec) (s : Spec) : List Spec :=
  specs.filter fun t => t.isDonor && s.isSpelledBy t

/-- Whether all options of a class have the same class: aliases are mutual, and the aliases of an
alias are among one's own. -/
def AliasesAgree (specs : List Spec) : Prop :=
  ∀ s ∈ specs, ∀ t ∈ specs, s.isSpelledBy t = true →
    ∀ u ∈ specs, t.isSpelledBy u = s.isSpelledBy u

instance (specs : List Spec) : Decidable (AliasesAgree specs) :=
  inferInstanceAs (Decidable (∀ s ∈ specs, ∀ t ∈ specs, _ → ∀ u ∈ specs, _ = _))

/-- Whether every alias is a spelling in the list, and of an option of the same class. -/
structure SelfContained (specs : List Spec) : Prop where
  listed : ∀ s ∈ specs, ∀ name ∈ s.aliases, name ∈ specs.filterMap Spec.flag?
  agree : AliasesAgree specs

namespace Spec

/-- Without donors nothing is shared. -/
@[simp] theorem shareWith_nil (s : Spec) : s.shareWith [] = s := by
  unfold shareWith
  split <;> rfl

/-- What sharing may do: it leaves a specification alone, because that takes nothing or nobody
gives it anything, or lets it receive the value slots of one donor. -/
theorem shareWith_cases (donors : List Spec) (s : Spec) :
    (s.shareWith donors = s ∧ (s.isRecipient = true → donors = [])) ∨
      (s.isRecipient = true ∧ ∃ d ∈ donors, s.shareWith donors = s.receive d) := by
  unfold shareWith
  cases hrecipient : s.isRecipient with
  | false => exact Or.inl ⟨rfl, fun h => absurd h Bool.false_ne_true⟩
  | true =>
    rw [if_pos rfl]
    unfold donorFor?
    cases hfind : donors.find? fun d => d.isLong == s.isLong with
    | some d => exact Or.inr ⟨rfl, d, List.mem_of_find?_eq_some hfind, rfl⟩
    | none =>
      cases donors with
      | nil => exact Or.inl ⟨rfl, fun _ => rfl⟩
      | cons d donors => exact Or.inr ⟨rfl, d, List.mem_cons_self, rfl⟩

@[simp] theorem flag?_shareWith (donors : List Spec) (s : Spec) :
    (s.shareWith donors).flag? = s.flag? := by
  rw [flag?, shareWith_name]
  rfl

end Spec

/-- What is no option has no donors. -/
theorem donorsFor_of_not_isOption (specs : List Spec) {s : Spec} (h : s.isOption = false) :
    donorsFor specs s = [] := by
  refine List.filter_eq_nil_iff.2 fun t _ => ?_
  simp [Spec.isSpelledBy, h]

/-! ### Places of spellings -/

theorem filterMap_range_getElem? {α β : Type} (f : α → Option β) (items : List α) :
    (List.range items.length).filterMap (fun i => (items[i]?).bind f) = items.filterMap f := by
  induction items with
  | nil => rfl
  | cons item items ih =>
    rw [List.length_cons, List.range_succ_eq_map, List.filterMap_cons, List.filterMap_map,
      List.filterMap_cons]
    have htail : ((fun i => ((item :: items)[i]?).bind f) ∘ Nat.succ)
        = fun i => (items[i]?).bind f := rfl
    rw [htail, ih]
    rfl

/-- The items at the places where a test succeeds are the items for which it does. -/
theorem filterMap_filter_range {α : Type} (p : α → Bool) (items : List α) :
    ((List.range items.length).filter (fun i => (items[i]?).any p)).filterMap (fun i => items[i]?)
      = items.filter p := by
  rw [List.filterMap_filter, ← List.filterMap_eq_filter]
  refine (List.filterMap_congr fun i _ => ?_).trans (filterMap_range_getElem? _ items)
  cases items[i]? with
  | none => rfl
  | some item => simp [Option.guard]

section Places

variable {specs : List Spec} (hnodup : (specs.filterMap Spec.flag?).Nodup)

include hnodup

/-- A spelling stands in one place only. -/
theorem place_unique {i j : Nat} {s t : Spec} {flag : Text} (hs : specs[i]? = some s)
    (ht : specs[j]? = some t) (hsflag : s.flag? = some flag) (htflag : t.flag? = some flag) :
    i = j := by
  obtain ⟨hi, rfl⟩ := List.getElem?_eq_some_iff.1 hs
  obtain ⟨hj, rfl⟩ := List.getElem?_eq_some_iff.1 ht
  have hpairs := List.pairwise_iff_getElem.1 (List.pairwise_filterMap.1 hnodup)
  rcases Nat.lt_trichotomy i j with hlt | heq | hlt
  · exact absurd rfl (hpairs i j hi hj hlt flag hsflag flag htflag)
  · exact heq
  · exact absurd rfl (hpairs j i hj hi hlt flag htflag flag hsflag)

theorem lastPlace?_eq_some_iff {flag : Text} {i : Nat} :
    lastPlace? specs flag = some i ↔ ∃ t, specs[i]? = some t ∧ t.flag? = some flag := by
  have hmem : ∀ j, j ∈ (List.range specs.length).filter
      (fun i => ((specs[i]?).bind Spec.flag?) == some flag) ↔
        ∃ t, specs[j]? = some t ∧ t.flag? = some flag := by
    intro j
    rw [List.mem_filter, List.mem_range, beq_iff_eq, Option.bind_eq_some_iff]
    constructor
    · exact fun h => h.2
    · rintro ⟨t, ht, hflag⟩
      exact ⟨(List.getElem?_eq_some_iff.1 ht).1, t, ht, hflag⟩
  constructor
  · exact fun h => (hmem i).1 (List.mem_of_getLast? h)
  · rintro ⟨t, ht, hflag⟩
    have hne := List.ne_nil_of_mem ((hmem i).2 ⟨t, ht, hflag⟩)
    obtain ⟨u, hu, huflag⟩ := (hmem _).1 (List.getLast_mem hne)
    rw [lastPlace?, List.getLast?_eq_some_getLast hne,
      place_unique hnodup hu ht huflag hflag]

/-- The group around an option is its class. -/
theorem aliasGroup_eq {start : Nat} {s : Spec} (hs : specs[start]? = some s)
    (hoption : s.isOption = true) :
    aliasGroup specs start
      = (List.range specs.length).filter fun i => (specs[i]?).any s.isSpelledBy := by
  unfold aliasGroup
  rw [hs]
  refine List.filter_congr fun i hi => ?_
  obtain ⟨t, ht⟩ : ∃ t, specs[i]? = some t := ⟨_, List.getElem?_eq_getElem (List.mem_range.1 hi)⟩
  rw [ht, Option.any_some, Bool.eq_iff_iff, Bool.or_eq_true, beq_iff_eq, List.contains_iff_mem,
    List.mem_filterMap, Spec.isSpelledBy_iff]
  constructor
  · rintro (rfl | ⟨name, hname, hplace⟩)
    · obtain rfl : s = t := Option.some.inj (hs.symm.trans ht)
      exact Spec.isSpelledBy_iff.1 (Spec.isSpelledBy_self hoption)
    · obtain ⟨u, hu, hflag⟩ := (lastPlace?_eq_some_iff hnodup).1 hplace
      obtain rfl : u = t := Option.some.inj (hu.symm.trans ht)
      exact ⟨hoption, name, hflag, Spec.answersTo_iff.2 (Or.inr hname)⟩
  · rintro ⟨-, flag, hflag, hanswers⟩
    rcases Spec.answersTo_iff.1 hanswers with hself | hname
    · exact Or.inl (place_unique hnodup ht hs hflag hself)
    · exact Or.inr ⟨flag, hname, (lastPlace?_eq_some_iff hnodup).2 ⟨t, ht, hflag⟩⟩

theorem mem_aliasGroup_iff {start i : Nat} {s : Spec} (hs : specs[start]? = some s)
    (hoption : s.isOption = true) :
    i ∈ aliasGroup specs start ↔ ∃ t, specs[i]? = some t ∧ s.isSpelledBy t = true := by
  rw [aliasGroup_eq hnodup hs hoption, List.mem_filter, List.mem_range, Option.any_eq_true]
  constructor
  · exact fun h => h.2
  · rintro ⟨t, ht, hspelled⟩
    exact ⟨(List.getElem?_eq_some_iff.1 ht).1, t, ht, hspelled⟩

end Places

/-! ### The list on the way -/

/-- The list with sharing done at some places. -/
def sharedAt (specs : List Spec) (visited : List Nat) : List Spec :=
  specs.mapIdx fun i s => if visited.contains i then s.shareWith (donorsFor specs s) else s

theorem getElem?_sharedAt (specs : List Spec) (visited : List Nat) (i : Nat) :
    (sharedAt specs visited)[i]? = (specs[i]?).map fun s =>
      if visited.contains i then s.shareWith (donorsFor specs s) else s := by
  rw [sharedAt, List.getElem?_mapIdx]

theorem length_sharedAt (specs : List Spec) (visited : List Nat) :
    (sharedAt specs visited).length = specs.length := List.length_mapIdx

theorem sharedAt_nil (specs : List Spec) : sharedAt specs [] = specs := by
  refine List.ext_getElem? fun i => ?_
  rw [getElem?_sharedAt]
  simp

/-- Sharing changes neither spellings nor aliases, so the groups stay. -/
theorem aliasGroup_sharedAt (specs : List Spec) (visited : List Nat) (start : Nat) :
    aliasGroup (sharedAt specs visited) start = aliasGroup specs start := by
  have hflag : ∀ i : Nat,
      ((sharedAt specs visited)[i]?).bind Spec.flag? = (specs[i]?).bind Spec.flag? := by
    intro i
    rw [getElem?_sharedAt]
    cases specs[i]? with
    | none => rfl
    | some s =>
      dsimp only [Option.map_some, Option.bind_some]
      split
      · exact Spec.flag?_shareWith _ s
      · rfl
  have hplace : lastPlace? (sharedAt specs visited) = lastPlace? specs := by
    funext flag
    simp only [lastPlace?, length_sharedAt, hflag]
  unfold aliasGroup
  rw [hplace, length_sharedAt, getElem?_sharedAt]
  cases specs[start]? with
  | none => rfl
  | some s =>
    dsimp only [Option.map_some]
    split
    · rw [Spec.shareWith_aliases]
    · rfl

/-- Whether some places are those of whole classes. -/
def Visited (specs : List Spec) (visited : List Nat) : Prop :=
  ∀ i j s t, specs[i]? = some s → specs[j]? = some t → s.isSpelledBy t = true →
    j ∈ visited → i ∈ visited

section Walk

variable {specs : List Spec} (hnodup : (specs.filterMap Spec.flag?).Nodup)
  (hagree : AliasesAgree specs)

include hagree

/-- All of a class have the same donors. -/
theorem donorsFor_eq {s t : Spec} (hs : s ∈ specs) (ht : t ∈ specs)
    (hspelled : s.isSpelledBy t = true) : donorsFor specs t = donorsFor specs s :=
  List.filter_congr fun u hu => by rw [hagree s hs t ht hspelled u hu]

include hnodup

/-- What a group does to the list on the way, if it has not been met before. -/
theorem shareGroup_sharedAt {visited : List Nat} (hvisited : Visited specs visited) {start : Nat}
    {s : Spec} (hs : specs[start]? = some s) (hoption : s.isOption = true)
    (hfresh : start ∉ visited) :
    shareGroup (sharedAt specs visited) (aliasGroup specs start)
      = sharedAt specs (visited ++ aliasGroup specs start) := by
  have hmem : ∀ {i : Nat} {t : Spec}, specs[i]? = some t → t ∈ specs := List.mem_of_getElem?
  have hunmet : ∀ i ∈ aliasGroup specs start, i ∉ visited ∧
      (sharedAt specs visited)[i]? = specs[i]? := by
    intro i hi
    obtain ⟨t, ht, hspelled⟩ := (mem_aliasGroup_iff hnodup hs hoption).1 hi
    have hi : i ∉ visited := fun h => hfresh (hvisited start i s t hs ht hspelled h)
    rw [getElem?_sharedAt, ht]
    simp [hi]
  -- The donors found on the way are those of the whole list: no member has changed yet.
  have hdonors : ((aliasGroup specs start).filterMap fun i => (sharedAt specs visited)[i]?).filter
      Spec.isDonor = donorsFor specs s := by
    have hmembers : ((aliasGroup specs start).filterMap fun i => (sharedAt specs visited)[i]?)
        = (aliasGroup specs start).filterMap fun i => specs[i]? :=
      List.filterMap_congr fun i hi => (hunmet i hi).2
    rw [hmembers, aliasGroup_eq hnodup hs hoption, filterMap_filter_range, List.filter_filter]
    rfl
  unfold shareGroup
  rw [hdonors]
  refine List.ext_getElem? fun i => ?_
  rw [List.getElem?_mapIdx, getElem?_sharedAt, getElem?_sharedAt, Option.map_map]
  cases ht : specs[i]? with
  | none => rfl
  | some t =>
    dsimp only [Option.map_some, Function.comp]
    by_cases hi : i ∈ aliasGroup specs start
    · obtain ⟨u, hu, hspelled⟩ := (mem_aliasGroup_iff hnodup hs hoption).1 hi
      obtain rfl : u = t := Option.some.inj (hu.symm.trans ht)
      rw [donorsFor_eq hagree (hmem hs) (hmem ht) hspelled]
      simp [hi, (hunmet i hi).1]
    · simp [hi]

theorem Visited.append {visited : List Nat} (hvisited : Visited specs visited) {start : Nat}
    {s : Spec} (hs : specs[start]? = some s) (hoption : s.isOption = true) :
    Visited specs (visited ++ aliasGroup specs start) := by
  intro i j t u ht hu hspelled hj
  rw [List.mem_append] at hj ⊢
  refine hj.imp (hvisited i j t u ht hu hspelled) fun hj => ?_
  obtain ⟨u', hu', hspelled'⟩ := (mem_aliasGroup_iff hnodup hs hoption).1 hj
  obtain rfl : u' = u := Option.some.inj (hu'.symm.trans hu)
  -- Both have the class of `u'`, and `t` is in its own.
  have ht' := List.mem_of_getElem? ht
  have hu' := List.mem_of_getElem? hu
  refine (mem_aliasGroup_iff hnodup hs hoption).2 ⟨t, ht, ?_⟩
  rw [← hagree s (List.mem_of_getElem? hs) u' hu' hspelled' t ht',
    hagree t ht' u' hu' hspelled t ht']
  exact Spec.isSpelledBy_self (Spec.isSpelledBy_iff.1 hspelled).1

/-- **One place of the walk.** -/
theorem shareStep_sharedAt {visited : List Nat} (hvisited : Visited specs visited) (start : Nat) :
    ∃ visited', shareStep (sharedAt specs visited, visited) start
        = (sharedAt specs visited', visited') ∧ Visited specs visited' ∧ visited ⊆ visited' ∧
      ∀ s, specs[start]? = some s → s.isOption = true → start ∈ visited' := by
  have hoption : ((sharedAt specs visited)[start]?).any Spec.isOption
      = (specs[start]?).any Spec.isOption := by
    rw [getElem?_sharedAt]
    cases specs[start]? with
    | none => rfl
    | some s =>
      dsimp only [Option.map_some, Option.any_some]
      split
      · rw [Spec.isOption, Spec.flag?_shareWith]
        rfl
      · rfl
  unfold shareStep
  dsimp only
  rw [hoption, aliasGroup_sharedAt]
  split
  · rename_i hskip
    refine ⟨visited, rfl, hvisited, List.Subset.refl _, fun s hs hs' => ?_⟩
    simpa [hs, hs'] using hskip
  · rename_i hmeet
    simp only [Bool.or_eq_true, List.contains_iff_mem, Bool.not_eq_true', not_or,
      Bool.not_eq_false, Option.any_eq_true] at hmeet
    obtain ⟨hfresh, s, hs, hs'⟩ := hmeet
    refine ⟨visited ++ aliasGroup specs start, ?_, hvisited.append hnodup hagree hs hs',
      List.subset_append_left _ _, fun _ _ _ => List.mem_append_right _ ?_⟩
    · rw [shareGroup_sharedAt hnodup hagree hvisited hs hs' hfresh]
    · exact (mem_aliasGroup_iff hnodup hs hs').2 ⟨s, hs, Spec.isSpelledBy_self hs'⟩

/-- **The walk over some places.** -/
theorem foldl_shareStep_sharedAt (starts : List Nat) : ∀ {visited : List Nat},
    Visited specs visited → ∃ visited', starts.foldl shareStep (sharedAt specs visited, visited)
        = (sharedAt specs visited', visited') ∧ visited ⊆ visited' ∧
      ∀ start ∈ starts, ∀ s, specs[start]? = some s → s.isOption = true → start ∈ visited' := by
  induction starts with
  | nil => exact fun {visited} _ => ⟨visited, rfl, List.Subset.refl _, by simp⟩
  | cons start starts ih =>
    intro visited hvisited
    obtain ⟨now, hstep, hnow, hsub, hstart⟩ := shareStep_sharedAt hnodup hagree hvisited start
    obtain ⟨visited', hwalk, hsub', hstarts⟩ := ih hnow
    refine ⟨visited', ?_, List.Subset.trans hsub hsub', ?_⟩
    · rw [List.foldl_cons, hstep, hwalk]
    · intro i hi s hs hoption
      rcases List.mem_cons.1 hi with rfl | hi
      · exact hsub' (hstart s hs hoption)
      · exact hstarts i hi s hs hoption

/-- **Sharing in classes.** Every specification shares with the donors of its class. -/
theorem shareAliases_eq_map :
    shareAliases specs = specs.map fun s => s.shareWith (donorsFor specs s) := by
  have hstart : Visited specs [] := by simp [Visited]
  obtain ⟨visited, hwalk, -, hall⟩ :=
    foldl_shareStep_sharedAt hnodup hagree (List.range specs.length) hstart
  rw [sharedAt_nil] at hwalk
  rw [shareAliases, hwalk]
  refine List.ext_getElem? fun i => ?_
  rw [getElem?_sharedAt, List.getElem?_map]
  cases hs : specs[i]? with
  | none => rfl
  | some s =>
    dsimp only [Option.map_some]
    cases hoption : s.isOption with
    | true =>
      have hi := List.mem_range.2 (List.getElem?_eq_some_iff.1 hs).1
      rw [if_pos (List.contains_iff_mem.2 (hall i hi s hs hoption))]
    | false =>
      rw [donorsFor_of_not_isOption specs hoption, Spec.shareWith_nil, ite_self]

end Walk

/-! ### Two lists one after the other -/

section Append

variable {first second : List Spec}

/-- The class of a specification in a list that keeps to itself lies in this list. -/
theorem SelfContained.isSpelledBy_eq_false (hfirst : SelfContained first)
    (hdisjoint : (first.filterMap Spec.flag?).Disjoint (second.filterMap Spec.flag?)) {s t : Spec}
    (hs : s ∈ first) (ht : t ∈ second) : s.isSpelledBy t = false := by
  rw [Bool.eq_false_iff, Ne, Spec.isSpelledBy_iff]
  rintro ⟨-, flag, hflag, hanswers⟩
  have hlisted : flag ∈ first.filterMap Spec.flag? := by
    rcases Spec.answersTo_iff.1 hanswers with hself | hname
    · exact List.mem_filterMap.2 ⟨s, hs, hself⟩
    · exact hfirst.listed s hs flag hname
  exact hdisjoint hlisted (List.mem_filterMap.2 ⟨t, ht, hflag⟩)

/-- So do its donors. -/
theorem SelfContained.donorsFor_eq_nil (hfirst : SelfContained first)
    (hdisjoint : (first.filterMap Spec.flag?).Disjoint (second.filterMap Spec.flag?)) {s : Spec}
    (hs : s ∈ first) : donorsFor second s = [] := by
  refine List.filter_eq_nil_iff.2 fun t ht => ?_
  rw [hfirst.isSpelledBy_eq_false hdisjoint hs ht, Bool.and_false]
  exact Bool.false_ne_true

theorem donorsFor_append (s : Spec) :
    donorsFor (first ++ second) s = donorsFor first s ++ donorsFor second s :=
  List.filter_append _ _

theorem SelfContained.append (hfirst : SelfContained first) (hsecond : SelfContained second)
    (hdisjoint : (first.filterMap Spec.flag?).Disjoint (second.filterMap Spec.flag?)) :
    SelfContained (first ++ second) where
  listed := by
    intro s hs name hname
    rw [List.filterMap_append, List.mem_append]
    rcases List.mem_append.1 hs with hs | hs
    · exact Or.inl (hfirst.listed s hs name hname)
    · exact Or.inr (hsecond.listed s hs name hname)
  agree := by
    have hacross : ∀ {s t : Spec}, s ∈ first → t ∈ second → s.isSpelledBy t = false :=
      hfirst.isSpelledBy_eq_false hdisjoint
    have hback : ∀ {s t : Spec}, s ∈ second → t ∈ first → s.isSpelledBy t = false :=
      hsecond.isSpelledBy_eq_false (List.disjoint_symm hdisjoint)
    intro s hs t ht hspelled u hu
    rcases List.mem_append.1 hs with hs | hs <;> rcases List.mem_append.1 ht with ht | ht
    · rcases List.mem_append.1 hu with hu | hu
      · exact hfirst.agree s hs t ht hspelled u hu
      · rw [hacross hs hu, hacross ht hu]
    · rw [hacross hs ht] at hspelled
      exact absurd hspelled Bool.false_ne_true
    · rw [hback hs ht] at hspelled
      exact absurd hspelled Bool.false_ne_true
    · rcases List.mem_append.1 hu with hu | hu
      · rw [hback hs hu, hback ht hu]
      · exact hsecond.agree s hs t ht hspelled u hu

theorem shareAliases_append (hfirst : SelfContained first) (hsecond : SelfContained second)
    (hnodup : ((first ++ second).filterMap Spec.flag?).Nodup) :
    shareAliases (first ++ second) = shareAliases first ++ shareAliases second := by
  have hparts := hnodup
  rw [List.filterMap_append, List.nodup_append'] at hparts
  obtain ⟨hnodup₁, hnodup₂, hdisjoint⟩ := hparts
  rw [shareAliases_eq_map hnodup (hfirst.append hsecond hdisjoint).agree,
    shareAliases_eq_map hnodup₁ hfirst.agree, shareAliases_eq_map hnodup₂ hsecond.agree,
    List.map_append]
  congr 1
  · refine List.map_congr_left fun s hs => ?_
    rw [donorsFor_append, hfirst.donorsFor_eq_nil hdisjoint hs, List.append_nil]
  · refine List.map_congr_left fun s hs => ?_
    rw [donorsFor_append, hsecond.donorsFor_eq_nil (List.disjoint_symm hdisjoint) hs,
      List.nil_append]

end Append

end CommandGrammar
