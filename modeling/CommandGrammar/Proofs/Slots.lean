import CommandGrammar.Proofs.Operands
import Mathlib.Data.List.Dedup
import Mathlib.Data.List.Sort

/-!
# The slots for operands

Every operand goes to the slot with the least index among those still available, and a numbered slot
is gone once it is filled. So the numbered slots are for the first operands, in the order of their
numbers; of the slots with one number only the first that was declared is ever filled. What comes
after the numbered slots belongs to the slot of the rest, or to nobody.

* `operandSlot`: the slot for the operand in a given place;
* `firstPositional?_eq_operandSlot`: the least slot available is the slot for the first operand;
* `operandSlot_remaining`, `operandSlot_remaining_at`: a match leaves all operands their slots, but
  for one of a numbered slot, which leaves each operand the slot of the one after it.
-/

namespace CommandGrammar

/-! ### The slots of a grammar -/

def Spec.number? (s : Spec) : Option Nat :=
  match s.index? with
  | some (.at n) => some n
  | _ => none

theorem Spec.index?_eq_some_iff {s : Spec} {i : PositionalIndex} :
    s.index? = some i ↔ s.name = .positional i := by
  unfold index?
  cases s.name <;> simp

theorem Spec.number?_eq_some_iff {s : Spec} {n : Nat} :
    s.number? = some n ↔ s.index? = some (.at n) := by
  unfold number?
  split
  · rename_i k hindex
    rw [hindex]
    simp
  · rename_i hother
    constructor
    · exact fun h => absurd h (by simp)
    · exact fun h => absurd h (hother n)

theorem Spec.isUnbounded_iff {s : Spec} : s.isUnbounded = true ↔ s.index? = some .rest := by
  rw [isUnbounded, beq_iff_eq]

namespace PositionalIndex

theorem lt_trans {i j k : PositionalIndex} (h : i.lt j = true) (h' : j.lt k = true) :
    i.lt k = true := by
  cases i <;> cases j <;> cases k <;> simp_all [lt]
  omega

/-- Of two slots one is before the other unless they are the same. -/
theorem eq_of_not_lt {i j : PositionalIndex} (h : i.lt j = false) (h' : j.lt i = false) :
    i = j := by
  cases i <;> cases j <;> simp_all [lt]
  omega

end PositionalIndex

namespace Line

/-- The numbers of the numbered slots, each of them once, in increasing order. -/
def slotNumbers (members : List Member) : List Nat :=
  (members.filterMap fun m => m.spec.number?).dedup.insertionSort (· ≤ ·)

/-- The slot for the operand in a given place: the first one with the number in that place, and the
slot of the rest, if there is one, in all places after the numbered slots. -/
def operandSlot (members : List Member) (i : Nat) : Option Member :=
  match (slotNumbers members)[i]? with
  | some n => members.find? fun m => m.spec.number? == some n
  | none => members.find? fun m => m.spec.isUnbounded

section SlotNumbers

variable {members : List Member}

theorem mem_slotNumbers {n : Nat} :
    n ∈ slotNumbers members ↔ ∃ m ∈ members, m.spec.number? = some n := by
  rw [slotNumbers, List.mem_insertionSort, List.mem_dedup, List.mem_filterMap]

theorem pairwise_slotNumbers : (slotNumbers members).Pairwise (· < ·) := by
  have hle := List.pairwise_insertionSort (· ≤ ·)
    (members.filterMap fun m => m.spec.number?).dedup
  have hne := (List.perm_insertionSort (· ≤ ·)
    (members.filterMap fun m => m.spec.number?).dedup).nodup_iff.2 (List.nodup_dedup _)
  exact hle.imp₂ (fun _ _ hle hne => Nat.lt_of_le_of_ne hle hne) hne

/-- The numbers of the slots are all that is to be known of them. -/
theorem slotNumbers_eq {numbers : List Nat} (hsorted : numbers.Pairwise (· < ·))
    (hmem : ∀ n, n ∈ numbers ↔ ∃ m ∈ members, m.spec.number? = some n) :
    slotNumbers members = numbers := by
  have hperm : (slotNumbers members).Perm numbers :=
    (List.perm_ext_iff_of_nodup (pairwise_slotNumbers.imp Nat.ne_of_lt)
      (hsorted.imp Nat.ne_of_lt)).2 fun n => mem_slotNumbers.trans (hmem n).symm
  exact hperm.eq_of_pairwise (fun a b _ _ hab hba => absurd hab (Nat.lt_asymm hba))
    pairwise_slotNumbers hsorted

end SlotNumbers

/-! ### The least slot -/

/-- Whether a member is the first of those in some place, and no other slot has an earlier one. -/
structure IsLeast (members : List Member) (m : Member) (i : PositionalIndex) : Prop where
  index : m.spec.index? = some i
  first : members.find? (fun m => m.spec.index? == some i) = some m
  least : ∀ other ∈ members, ∀ j, other.spec.index? = some j → j.lt i = false

namespace IsLeast

variable {members : List Member} {m x y : Member} {i j k : PositionalIndex}

/-- A slot in front of an earlier one is not the least. -/
theorem cons_later (h : IsLeast (x :: members) m j) (hx : x.spec.index? = some k)
    (hy : y.spec.index? = some i) (hlt : k.lt i = true) : IsLeast (y :: x :: members) m j := by
  have hleast := h.least x List.mem_cons_self k hx
  have hne : i ≠ j := by
    rintro rfl
    exact absurd (hleast.symm.trans hlt) Bool.false_ne_true
  refine ⟨h.index, ?_, List.forall_mem_cons.2 ⟨fun i' hi' => ?_, h.least⟩⟩
  · rw [List.find?_cons_of_neg (by simpa [hy] using hne)]
    exact h.first
  · obtain rfl := Option.some.inj (hy.symm.trans hi')
    rw [Bool.eq_false_iff]
    intro hij
    exact absurd (hleast.symm.trans (PositionalIndex.lt_trans hlt hij)) Bool.false_ne_true

/-- A slot behind one that is no later makes no difference. -/
theorem insert (h : IsLeast (y :: members) m j) (hy : y.spec.index? = some i)
    (hx : x.spec.index? = some k) (hle : k.lt i = false) : IsLeast (y :: x :: members) m j := by
  have hleast := h.least y List.mem_cons_self i hy
  refine ⟨h.index, ?_, ?_⟩
  · have hfirst := h.first
    by_cases hij : i = j
    · rw [List.find?_cons_of_pos (by simp [hy, hij])] at hfirst ⊢
      exact hfirst
    · have hkj : k ≠ j := by
        rintro rfl
        exact hij (PositionalIndex.eq_of_not_lt hleast hle)
      rw [List.find?_cons_of_neg (by simpa [hy] using hij)] at hfirst
      rw [List.find?_cons_of_neg (by simpa [hy] using hij),
        List.find?_cons_of_neg (by simpa [hx] using hkj)]
      exact hfirst
  · refine List.forall_mem_cons.2 ⟨h.least y List.mem_cons_self, List.forall_mem_cons.2
      ⟨fun k' hk' => ?_, fun other hother => h.least other (List.mem_cons_of_mem y hother)⟩⟩
    obtain rfl := Option.some.inj (hx.symm.trans hk')
    rw [Bool.eq_false_iff]
    intro hkj
    -- The first slot is not before the least one, so it would be after the new one.
    cases hji : j.lt i with
    | true => exact absurd (hle.symm.trans (PositionalIndex.lt_trans hkj hji)) Bool.false_ne_true
    | false =>
      obtain rfl := PositionalIndex.eq_of_not_lt hleast hji
      exact absurd (hle.symm.trans hkj) Bool.false_ne_true

end IsLeast

theorem isLeast_foldl (ms : List Member) :
    ∀ {m : Member} {i : PositionalIndex}, m.spec.index? = some i →
      (∀ other ∈ ms, other.spec.isPositional = true) →
      ∃ j, IsLeast (m :: ms) (ms.foldl earlierSlot m) j := by
  induction ms with
  | nil =>
    intro m i hi _
    refine ⟨i, hi, by simp [hi], fun other hother j hj => ?_⟩
    rw [List.mem_singleton.1 hother, hi] at hj
    obtain rfl := Option.some.inj hj
    cases i <;> simp [PositionalIndex.lt]
  | cons x ms ih =>
    intro m i hi hslots
    obtain ⟨hx, hslots⟩ := List.forall_mem_cons.1 hslots
    obtain ⟨k, hk⟩ := Option.isSome_iff_exists.1 hx
    have hkeeps : earlierSlot m x = if k.lt i then x else m := by
      unfold earlierSlot
      rw [hi, hk]
    rw [List.foldl_cons, hkeeps]
    cases hlt : k.lt i with
    | true =>
      obtain ⟨j, hj⟩ := ih hk hslots
      exact ⟨j, hj.cons_later hk hi hlt⟩
    | false =>
      obtain ⟨j, hj⟩ := ih hi hslots
      exact ⟨j, hj.insert hi hk hlt⟩

/-- The slot that takes the next operand is the least one. -/
theorem isLeast_of_firstPositional? {members : List Member} {m : Member}
    (h : firstPositional? members = some m) : ∃ i, IsLeast members m i := by
  unfold firstPositional? at h
  split at h
  · exact absurd h (by simp)
  · rename_i a ms hfilter
    obtain rfl := Option.some.inj h
    have hslots : ∀ other ∈ a :: ms, other.spec.isPositional = true := by
      intro other hother
      rw [← hfilter] at hother
      exact (List.mem_filter.1 hother).2
    obtain ⟨ha, hms⟩ := List.forall_mem_cons.1 hslots
    obtain ⟨k, hk⟩ := Option.isSome_iff_exists.1 ha
    obtain ⟨i, hi⟩ := isLeast_foldl ms hk hms
    refine ⟨i, hi.index, ?_, fun other hother j hj => ?_⟩
    · have hfirst := hi.first
      rw [← hfilter, List.find?_filter] at hfirst
      rw [← hfirst]
      congr 1
      funext other
      rw [Bool.eq_iff_iff, decide_eq_true_iff, beq_iff_eq]
      exact ⟨fun heq => ⟨by simp [Spec.isPositional, heq], heq⟩, And.right⟩
    · refine hi.least other ?_ j hj
      rw [← hfilter, List.mem_filter]
      exact ⟨hother, by simp [Spec.isPositional, hj]⟩

theorem isPositional_eq_false_of_firstPositional? {members : List Member}
    (h : firstPositional? members = none) : ∀ m ∈ members, m.spec.isPositional = false := by
  unfold firstPositional? at h
  split at h
  · rename_i hfilter
    exact fun m hm => Bool.eq_false_iff.2 (List.filter_eq_nil_iff.1 hfilter m hm)
  · exact absurd h (by simp)

/-! ### The slots of the operands to come -/

section OperandSlot

variable {members : List Member} {m : Member} {n : Nat} {numbers : List Nat}

theorem operandSlot_of_getElem? {i : Nat} (h : (slotNumbers members)[i]? = some n) :
    operandSlot members i = members.find? fun m => m.spec.number? == some n := by
  unfold operandSlot
  rw [h]

theorem operandSlot_after {i : Nat} (h : (slotNumbers members)[i]? = none) :
    operandSlot members i = members.find? fun m => m.spec.isUnbounded := by
  unfold operandSlot
  rw [h]

/-- Where there is no slot, there is none for any operand. -/
theorem operandSlot_eq_none (h : ∀ m ∈ members, m.spec.isPositional = false) (i : Nat) :
    operandSlot members i = none := by
  have hindex : ∀ m ∈ members, m.spec.index? = none := fun m hm => by
    simpa [Spec.isPositional] using h m hm
  have hnumbers : slotNumbers members = [] := slotNumbers_eq List.Pairwise.nil fun n => by
    constructor
    · exact fun hn => absurd hn List.not_mem_nil
    · rintro ⟨m, hm, hn⟩
      rw [Spec.number?_eq_some_iff, hindex m hm] at hn
      exact absurd hn (by simp)
  rw [operandSlot_after (by simp [hnumbers]), List.find?_eq_none]
  intro m hm
  simp [Spec.isUnbounded, hindex m hm]

/-- If the least slot is a numbered one, its number comes first. -/
theorem slotNumbers_of_isLeast_at (h : IsLeast members m (.at n)) :
    ∃ numbers, slotNumbers members = n :: numbers := by
  have hm := List.mem_of_find?_eq_some h.first
  have hn : n ∈ slotNumbers members :=
    mem_slotNumbers.2 ⟨m, hm, Spec.number?_eq_some_iff.2 h.index⟩
  have hsorted : (slotNumbers members).Pairwise (· < ·) := pairwise_slotNumbers
  cases hnumbers : slotNumbers members with
  | nil => simp [hnumbers] at hn
  | cons k numbers =>
    obtain ⟨other, hother, hk⟩ := mem_slotNumbers.1 (hnumbers ▸ List.mem_cons_self)
    have hle := h.least other hother (.at k) (Spec.number?_eq_some_iff.1 hk)
    simp only [PositionalIndex.lt, decide_eq_false_iff_not, Nat.not_lt] at hle
    rw [hnumbers] at hn hsorted
    rcases List.mem_cons.1 hn with rfl | hmem
    · exact ⟨numbers, rfl⟩
    · exact absurd ((List.pairwise_cons.1 hsorted).1 n hmem) (Nat.not_lt.2 hle)

/-- If the least slot is that of the rest, there are no numbered ones. -/
theorem slotNumbers_of_isLeast_rest (h : IsLeast members m .rest) : slotNumbers members = [] := by
  refine slotNumbers_eq List.Pairwise.nil fun n => ⟨fun hn => absurd hn List.not_mem_nil, ?_⟩
  rintro ⟨other, hother, hn⟩
  have := h.least other hother (.at n) (Spec.number?_eq_some_iff.1 hn)
  simp [PositionalIndex.lt] at this

/-- **The slot that takes the next operand** is the one for the first operand. -/
theorem firstPositional?_eq_operandSlot (members : List Member) :
    firstPositional? members = operandSlot members 0 := by
  cases hfirst : firstPositional? members with
  | none => rw [operandSlot_eq_none (isPositional_eq_false_of_firstPositional? hfirst)]
  | some m =>
    obtain ⟨i, hi⟩ := isLeast_of_firstPositional? hfirst
    cases i with
    | «at» n =>
      obtain ⟨numbers, hnumbers⟩ := slotNumbers_of_isLeast_at hi
      rw [operandSlot_of_getElem? (by rw [hnumbers]; rfl), ← hi.first]
      congr 1
      funext other
      rw [Bool.eq_iff_iff, beq_iff_eq, beq_iff_eq, Spec.number?_eq_some_iff]
    | rest =>
      rw [operandSlot_after (by simp [slotNumbers_of_isLeast_rest hi]), ← hi.first]
      rfl

end OperandSlot

/-! ### What a match leaves of the slots -/

/-- Whether every slot is there until it is filled, and a numbered one no longer: no words are
handed over, no specification excludes a slot, and no numbered slot may be used again. -/
structure OneByOne (members : List Member) : Prop where
  plain : Plain members
  keeps : ∀ m ∈ members, ∀ e ∈ m.spec.excludes, ∀ slot ∈ members,
    slot.spec.isPositional = true → e.covers slot.spec = false
  once : ∀ m ∈ members, m.spec.isPositional = true → m.spec.isUnbounded = false →
    m.spec.repeatable = false

theorem OneByOne.mono {members later : List Member} (h : OneByOne members)
    (hsub : later ⊆ members) : OneByOne later where
  plain := fun m hm => h.plain m (hsub hm)
  keeps := fun m hm e he slot hslot => h.keeps m (hsub hm) e he slot (hsub hslot)
  once := fun m hm => h.once m (hsub hm)

section Remaining

variable {members : List Member} {m slot : Member}

/-- A match takes away the slots with its own name, if it is of a numbered slot. -/
theorem OneByOne.staysAfter_iff (h : OneByOne members) (hm : m ∈ members) (hslot : slot ∈ members)
    (hpositional : slot.spec.isPositional = true) :
    staysAfter m.spec slot.spec = true ↔
      m.spec.isUnbounded = true ∨ slot.spec.name ≠ m.spec.name := by
  have hflag : slot.spec.flag? = none := by
    have hoption := Spec.isOption_eq_not_isPositional slot.spec
    rw [hpositional] at hoption
    exact Option.isNone_iff_eq_none.1 (Option.isSome_eq_false_iff.1 hoption)
  have hexcludes : ¬ ∃ e ∈ m.spec.excludes, e.covers slot.spec = true := by
    rintro ⟨e, he, hcovers⟩
    rw [h.keeps m hm e he slot hslot hpositional] at hcovers
    exact absurd hcovers Bool.false_ne_true
  have hremoves : m.spec.Removes slot.spec ↔
      m.spec.isUnbounded = false ∧ slot.spec.name = m.spec.name := by
    rw [Spec.Removes, or_iff_left hexcludes, hflag]
    constructor
    · rintro ⟨-, hunbounded, hname | ⟨flag, -, hnone⟩⟩
      · exact ⟨hunbounded, hname⟩
      · exact absurd hnone (by simp)
    · rintro ⟨hunbounded, hname⟩
      have hm' : m.spec.isPositional = true := by
        rwa [Spec.isPositional, Spec.index?, ← hname]
      exact ⟨h.once m hm hm' hunbounded, hunbounded, Or.inl hname⟩
  rw [Line.staysAfter_iff, hremoves, not_and_or, Bool.not_eq_false]

/-- What is found among the members that stay is what was found among all. -/
theorem find?_remaining {p : Member → Bool}
    (h : ∀ slot ∈ members, p slot = true → staysAfter m.spec slot.spec = true) :
    (remaining members m.spec).find? p = members.find? p := by
  rw [remaining, List.find?_filter]
  induction members with
  | nil => rfl
  | cons x members ih =>
    obtain ⟨hx, hrest⟩ := List.forall_mem_cons.1 h
    cases hp : p x with
    | true => rw [List.find?_cons_of_pos hp, List.find?_cons_of_pos (by simp [hp, hx hp])]
    | false => rw [List.find?_cons_of_neg (by simp [hp]), List.find?_cons_of_neg (by simp [hp]),
        ih hrest]

theorem isPositional_of_number? {s : Spec} {n : Nat} (h : s.number? = some n) :
    s.isPositional = true := by
  rw [Spec.isPositional, Spec.number?_eq_some_iff.1 h]
  rfl

/-- A match that takes no slot leaves all operands their slots. -/
theorem operandSlot_remaining
    (h : ∀ slot ∈ members, slot.spec.isPositional = true → staysAfter m.spec slot.spec = true)
    (i : Nat) : operandSlot (remaining members m.spec) i = operandSlot members i := by
  have hnumbers : slotNumbers (remaining members m.spec) = slotNumbers members := by
    refine slotNumbers_eq pairwise_slotNumbers fun n => mem_slotNumbers.trans ?_
    constructor
    · rintro ⟨slot, hslot, hn⟩
      exact ⟨slot, List.mem_filter.2 ⟨hslot, h slot hslot (isPositional_of_number? hn)⟩, hn⟩
    · rintro ⟨slot, hslot, hn⟩
      exact ⟨slot, (List.mem_filter.1 hslot).1, hn⟩
  cases hi : (slotNumbers members)[i]? with
  | none =>
    rw [operandSlot_after hi, operandSlot_after (by rw [hnumbers, hi])]
    exact find?_remaining fun slot hslot hrest =>
      h slot hslot (Spec.isPositional_of_isUnbounded hrest)
  | some n =>
    rw [operandSlot_of_getElem? hi, operandSlot_of_getElem? (by rw [hnumbers, hi])]
    exact find?_remaining fun slot hslot hn =>
      h slot hslot (isPositional_of_number? (beq_iff_eq.1 hn))

/-- A match of the first numbered slot leaves each operand the slot of the one after it. -/
theorem operandSlot_remaining_at (h : OneByOne members) (hm : m ∈ members) {n : Nat}
    {numbers : List Nat} (hn : m.spec.number? = some n)
    (hnumbers : slotNumbers members = n :: numbers) (i : Nat) :
    operandSlot (remaining members m.spec) i = operandSlot members (i + 1) := by
  have hsorted : (n :: numbers).Pairwise (· < ·) := hnumbers ▸ pairwise_slotNumbers
  have hname : m.spec.name = .positional (.at n) :=
    Spec.index?_eq_some_iff.1 (Spec.number?_eq_some_iff.1 hn)
  have hbounded : m.spec.isUnbounded = false := by
    simp [Spec.isUnbounded, Spec.number?_eq_some_iff.1 hn]
  have hstays : ∀ slot ∈ members, slot.spec.isPositional = true →
      (staysAfter m.spec slot.spec = true ↔ slot.spec.number? ≠ some n) := by
    intro slot hslot hpositional
    rw [h.staysAfter_iff hm hslot hpositional, hbounded, hname, ne_eq, ne_eq,
      Spec.number?_eq_some_iff, Spec.index?_eq_some_iff]
    simp
  have hleft : slotNumbers (remaining members m.spec) = numbers := by
    obtain ⟨hfirst, htail⟩ := List.pairwise_cons.1 hsorted
    have hmem : ∀ k, k ∈ n :: numbers ↔ ∃ slot ∈ members, slot.spec.number? = some k := fun k =>
      hnumbers ▸ mem_slotNumbers
    refine slotNumbers_eq htail fun k => ⟨fun hk => ?_, ?_⟩
    · obtain ⟨slot, hslot, hslotk⟩ := (hmem k).1 (List.mem_cons_of_mem n hk)
      refine ⟨slot, List.mem_filter.2 ⟨hslot, ?_⟩, hslotk⟩
      rw [hstays slot hslot (isPositional_of_number? hslotk), hslotk]
      exact fun heq => Nat.ne_of_gt (hfirst k hk) (Option.some.inj heq)
    · rintro ⟨slot, hslot, hslotk⟩
      obtain ⟨hslot, hkeeps⟩ := List.mem_filter.1 hslot
      rw [hstays slot hslot (isPositional_of_number? hslotk), hslotk] at hkeeps
      rcases List.mem_cons.1 ((hmem k).2 ⟨slot, hslot, hslotk⟩) with rfl | hk
      · exact absurd rfl hkeeps
      · exact hk
  have hshift : (slotNumbers members)[i + 1]? = numbers[i]? := by rw [hnumbers]; rfl
  cases hi : numbers[i]? with
  | none =>
    rw [operandSlot_after (hshift.trans hi), operandSlot_after (by rw [hleft, hi])]
    refine find?_remaining fun slot hslot hrest => ?_
    rw [hstays slot hslot (Spec.isPositional_of_isUnbounded hrest), ne_eq,
      Spec.number?_eq_some_iff, Spec.isUnbounded_iff.1 hrest]
    simp
  | some k =>
    have hlt : n < k := (List.pairwise_cons.1 hsorted).1 k (List.mem_of_getElem? hi)
    rw [operandSlot_of_getElem? (hshift.trans hi), operandSlot_of_getElem? (by rw [hleft, hi])]
    refine find?_remaining fun slot hslot hk => ?_
    rw [beq_iff_eq] at hk
    rw [hstays slot hslot (isPositional_of_number? hk), hk]
    exact fun heq => Nat.ne_of_gt hlt (Option.some.inj heq)

end Remaining

end Line

end CommandGrammar
