import CommandGrammar.Proofs.Expiry

/-!
# Long lifetimes

The lifetime of a stored value is cut twice: to the lifetime of its cache, and, if it is too long to
be counted in milliseconds, to a century. The second cut does not look at the clock and is far below
the durations that escape it. So a value may have to be kept beyond the last instant, which cannot
be done, and a value that asks for more than can be counted is dropped before one that asks for two
centuries. Neither happens in a cache whose own lifetime ends before the clock does.

* `Duration.clamp_le_clamp_iff`: when a longer duration stays as long;
* `Cache.put?_eq_none_iff`: what cannot be stored;
* `Cache.get_put?`: how long a stored value is read;
* `Cache.lifetimes_ordered_iff`: when the longer lifetime is the longer one.
-/

namespace CommandGrammar

namespace Duration

/-- **Cutting durations** keeps their order, but for a longer one that is cut and a shorter one that
is not and lasts for more than a century. -/
theorem clamp_le_clamp_iff {d d' : Duration} (h : d ≤ d') :
    d.clamp ≤ d'.clamp ↔ d' ≤ longest ∨ d ≤ century ∨ longest < d := by
  by_cases hd' : d' ≤ longest
  · have hkept : d.clamp = d := if_pos (Nat.le_trans h hd')
    have hkept' : d'.clamp = d' := if_pos hd'
    rw [hkept, hkept']
    exact iff_of_true h (Or.inl hd')
  · have hcut' : d'.clamp = century := if_neg hd'
    rw [hcut']
    by_cases hd : d ≤ longest
    · have hkept : d.clamp = d := if_pos hd
      rw [hkept]
      exact ⟨fun h => Or.inr (Or.inl h), fun h =>
        (h.resolve_left hd').resolve_right (Nat.not_lt.2 hd)⟩
    · have hcut : d.clamp = century := if_neg hd
      rw [hcut]
      exact iff_of_true (Nat.le_refl _) (Or.inr (Or.inr (Nat.not_le.1 hd)))

end Duration

namespace Cache

variable {κ ν : Type} [DecidableEq κ] (c : Cache κ ν) (now : Instant) (key : κ) (value : ν)

/-- The lifetime for which a value is kept. -/
def granted (d : Duration) : Duration := (min d c.maxLifetime).clamp

/-- What is stored for no time changes nothing. -/
theorem put?_of_zero {d : Duration} (h : min d c.maxLifetime = 0) :
    c.put? now key value d = some c := if_pos h

/-- Storing a value sets its entry, if it expires before the clock ends. -/
theorem put?_of_ne_zero {d : Duration} (h : min d c.maxLifetime ≠ 0) :
    c.put? now key value d
      = if now + c.granted d ≤ Instant.last then some (c.set key ⟨value, now + c.granted d⟩)
        else none := by
  have hput : c.put? now key value d
      = (now.later? (min d c.maxLifetime)).map fun expires => c.set key ⟨value, expires⟩ :=
    if_neg h
  rw [hput]
  show Option.map _ (if now + c.granted d ≤ Instant.last then _ else _) = _
  by_cases hfits : now + c.granted d ≤ Instant.last
  · rw [if_pos hfits, if_pos hfits]
    rfl
  · rw [if_neg hfits, if_neg hfits]
    rfl

/-- **What cannot be stored** is what would expire after the last instant. -/
theorem put?_eq_none_iff {d : Duration} :
    c.put? now key value d = none ↔
      min d c.maxLifetime ≠ 0 ∧ Instant.last < now + c.granted d := by
  by_cases hzero : min d c.maxLifetime = 0
  · rw [put?_of_zero c now key value hzero]
    exact iff_of_false (fun h => nomatch h) fun h => h.1 hzero
  · rw [put?_of_ne_zero c now key value hzero]
    by_cases hfits : now + c.granted d ≤ Instant.last
    · rw [if_pos hfits]
      exact iff_of_false (fun h => nomatch h) fun h => Int.not_lt.2 hfits h.2
    · rw [if_neg hfits]
      exact iff_of_true rfl ⟨hzero, Int.not_le.1 hfits⟩

variable {c now key value}

/-- **How long a stored value is read.** -/
theorem get_put? {d : Duration} {c' : Cache κ ν} (hzero : min d c.maxLifetime ≠ 0)
    (hput : c.put? now key value d = some c') (i : Instant) :
    (c'.get i key).1 = some value ↔ i < now + c.granted d := by
  rw [put?_of_ne_zero c now key value hzero] at hput
  split at hput
  · rw [← Option.some.inj hput, get_fst, find?_set_self]
    by_cases hlive : i < now + c.granted d <;> simp [Option.filter, hlive]
  · exact nomatch hput

/-- A value that is read for longer is granted a longer lifetime. -/
theorem forall_readable_iff {d d' : Duration} {c₁ c₂ : Cache κ ν}
    (hzero : min d c.maxLifetime ≠ 0) (hzero' : min d' c.maxLifetime ≠ 0)
    (hput : c.put? now key value d = some c₁) (hput' : c.put? now key value d' = some c₂) :
    (∀ i, (c₁.get i key).1 = some value → (c₂.get i key).1 = some value) ↔
      c.granted d ≤ c.granted d' := by
  simp only [get_put? hzero hput, get_put? hzero' hput']
  constructor
  · -- The instant at which the second one expires tells them apart.
    intro h
    rw [← Nat.not_lt]
    intro hlonger
    have hlater : now + c.granted d' < now + c.granted d :=
      Int.add_lt_add_left (Int.ofNat_lt.2 hlonger) now
    exact Int.lt_irrefl _ (h (now + c.granted d') hlater)
  · intro hle i hi
    exact Int.lt_of_lt_of_le hi (Int.add_le_add_left (Int.ofNat_le.2 hle) now)

/-- **Two lifetimes of one value** are in order if the longer one can be counted, or the shorter one
is at most a century or cannot be counted either, and only then. -/
theorem forall_readable_iff_counted {d d' : Duration} {c₁ c₂ : Cache κ ν} (hle : d ≤ d')
    (hzero : min d c.maxLifetime ≠ 0) (hput : c.put? now key value d = some c₁)
    (hput' : c.put? now key value d' = some c₂) :
    (∀ i, (c₁.get i key).1 = some value → (c₂.get i key).1 = some value) ↔
      min d' c.maxLifetime ≤ Duration.longest ∨ min d c.maxLifetime ≤ Duration.century ∨
        Duration.longest < min d c.maxLifetime := by
  have hmin : min d c.maxLifetime ≤ min d' c.maxLifetime :=
    Nat.le_min.2 ⟨Nat.le_trans (Nat.min_le_left _ _) hle, Nat.min_le_right _ _⟩
  have hzero' : min d' c.maxLifetime ≠ 0 := fun hnone =>
    hzero (Nat.le_zero.1 (Nat.le_trans hmin (Nat.le_of_eq hnone)))
  rw [forall_readable_iff hzero hzero' hput hput']
  exact Duration.clamp_le_clamp_iff hmin

variable (c now key value)

/-- **When the longer lifetime is the longer one.** A value cannot be stored if and only if the
lifetime it is granted goes beyond the last instant. Of two lifetimes of the same value, both of
them possible, the one that asks for more lasts as long as the other one if and only if it can be
counted, or the other one is at most a century or cannot be counted either. So neither goes wrong
in a cache whose own lifetime ends in time. -/
theorem lifetimes_ordered_iff :
    (∀ d, c.put? now key value d = none ↔
      min d c.maxLifetime ≠ 0 ∧ Instant.last < now + (min d c.maxLifetime).clamp) ∧
    (∀ d d' c₁ c₂, d ≤ d' → min d c.maxLifetime ≠ 0 →
      c.put? now key value d = some c₁ → c.put? now key value d' = some c₂ →
        ((∀ i, (c₁.get i key).1 = some value → (c₂.get i key).1 = some value) ↔
          min d' c.maxLifetime ≤ Duration.longest ∨ min d c.maxLifetime ≤ Duration.century ∨
            Duration.longest < min d c.maxLifetime)) ∧
    (now.Reaches c.maxLifetime →
      ∀ d d', d ≤ d' → ∃ c₁ c₂, c.put? now key value d = some c₁ ∧
        c.put? now key value d' = some c₂ ∧
          (min d c.maxLifetime ≠ 0 →
            ∀ i, (c₁.get i key).1 = some value → (c₂.get i key).1 = some value)) := by
  refine ⟨fun d => put?_eq_none_iff c now key value,
    fun d d' c₁ c₂ hle hzero hput hput' => forall_readable_iff_counted hle hzero hput hput', ?_⟩
  intro hfits d d' hle
  have hstored (d : Duration) : c.put? now key value d = some (c.store now key value d) :=
    put?_of_reaches key value (hfits.mono (Nat.min_le_right _ _))
  refine ⟨_, _, hstored d, hstored d', fun hzero => ?_⟩
  have hcounted : min d' c.maxLifetime ≤ Duration.longest :=
    (hfits.mono (Nat.min_le_right _ _)).1
  exact (forall_readable_iff_counted hle hzero (hstored d) (hstored d')).2 (Or.inl hcounted)

/-- A cache that keeps values for as long as a configuration can say. -/
def lasting : Cache Nat Nat := empty (.ofSeconds 18446744073709551615)

theorem lifetimes_ordered_iff_lasting :
    let years : Duration := .ofSeconds 6000000000
    let more : Duration := .ofSeconds 7000000000
    let daily : Cache Nat Nat := empty (.ofSeconds 86400)
    years ≤ more ∧ min years lasting.maxLifetime ≠ 0 ∧
      (∃ c₁ c₂, lasting.put? 7 1 10 years = some c₁ ∧ lasting.put? 7 1 10 more = some c₂ ∧
        ∀ i, (c₁.get i 1).1 = some 10 → (c₂.get i 1).1 = some 10) ∧
      Instant.Reaches 7 daily.maxLifetime ∧ min years daily.maxLifetime ≠ 0 ∧
        ∃ c₁ c₂, daily.put? 7 1 10 years = some c₁ ∧ daily.put? 7 1 10 more = some c₂ ∧
          ∀ i, (c₁.get i 1).1 = some 10 → (c₂.get i 1).1 = some 10 := by
  intro years more daily
  have hle : years ≤ more := by decide
  have hzero : min years lasting.maxLifetime ≠ 0 := by decide
  have hcounted : min more lasting.maxLifetime ≤ Duration.longest := by decide
  have hfits : Instant.Reaches 7 daily.maxLifetime := by decide
  have hzero' : min years daily.maxLifetime ≠ 0 := by decide
  obtain ⟨-, hordered, -⟩ := lifetimes_ordered_iff lasting 7 1 10
  obtain ⟨-, -, hends⟩ := lifetimes_ordered_iff daily 7 1 10
  obtain ⟨c₁, c₂, hput, hput', hlonger⟩ := hends hfits years more hle
  exact ⟨hle, hzero, ⟨_, _, rfl, rfl, (hordered _ _ _ _ hle hzero rfl rfl).2 (Or.inl hcounted)⟩,
    hfits, hzero', c₁, c₂, hput, hput', hlonger hzero'⟩

/-- Two centuries outlast the longest lifetime that can be asked for, and three hundred millennia
cannot be granted at all. -/
theorem longest_lifetime_cut :
    (∃ c₁ c₂, lasting.put? 0 1 10 (.ofSeconds 6000000000) = some c₁ ∧
      lasting.put? 0 1 10 (.ofSeconds 18446744073709551615) = some c₂ ∧
        (c₁.get 4000000000000000000 1).1 = some 10 ∧ (c₂.get 4000000000000000000 1).1 = none) ∧
    lasting.put? 0 1 10 (.ofSeconds 9000000000000) = none :=
  ⟨⟨_, _, rfl, rfl, by decide, by decide⟩, by decide⟩

end Cache

end CommandGrammar
