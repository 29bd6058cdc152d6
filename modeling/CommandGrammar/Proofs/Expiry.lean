import Mathlib.Data.List.Nodup
import CommandGrammar.Cache.Basic

/-!
# A cache answers what was last written

The reference for a cache is a ledger of all writes that were to be kept, the last one first. It
forgets nothing but at a forced flush. A key has the value of its last write until the lifetime of
this write is over: that a write with a lifetime of zero leaves the value before it alone, that
reading drops expired entries and that a flush sweeps them is not visible in the ledger.

Main results:
* `Request.refines`: one request keeps cache and ledger together, whatever it is;
* `refines_of_fitsAll`: so does every sequence of requests;
* `answers_as_written`: what a client may rely on after any sequence of requests.
-/

namespace CommandGrammar

namespace Cache

/-! ### The reference -/

/-- A value written for a key, and for how long it counts. -/
structure Write (κ ν : Type) where
  key : κ
  value : ν
  since : Instant
  lifetime : Duration
deriving DecidableEq

/-- The time, and the writes since the last forced flush, the last one first. -/
structure Ledger (κ ν : Type) where
  now : Instant
  writes : List (Write κ ν) := []

/-- What is asked of a cache, and the passing of time. -/
inductive Request (κ ν : Type)
  | get (key : κ)
  | put (key : κ) (value : ν) (lifetime : Duration)
  /-- The value is the one that computing would give. -/
  | getOrPut (key : κ) (value : ν) (lifetime : Duration)
  | flush (force : Bool)
  | wait (d : Duration)

variable {κ ν : Type} [DecidableEq κ]

namespace Ledger

def last? (key : κ) (l : Ledger κ ν) : Option (Write κ ν) :=
  l.writes.find? (fun w => w.key == key)

def live (i : Instant) (key : κ) (l : Ledger κ ν) : Option ν :=
  ((l.last? key).filter (fun w => decide (i < w.since + w.lifetime))).map Write.value

/-- The ledger with a write of the present instant, unless its lifetime is zero. -/
def write (max : Duration) (key : κ) (value : ν) (lifetime : Duration) (l : Ledger κ ν) :
    Ledger κ ν :=
  if min lifetime max = 0 then l
  else { l with writes := ⟨key, value, l.now, min lifetime max⟩ :: l.writes }

/-- The ledger after a request to a cache with a maximal lifetime. -/
def enter (max : Duration) (l : Ledger κ ν) : Request κ ν → Ledger κ ν
  | .get _ => l
  | .put key value lifetime => l.write max key value lifetime
  | .getOrPut key value lifetime =>
    if (l.live l.now key).isNone then l.write max key value lifetime else l
  | .flush force => if force then { l with writes := [] } else l
  | .wait d => { l with now := l.now + d }

theorem live_eq_some_iff {i : Instant} {key : κ} {value : ν} {l : Ledger κ ν} :
    l.live i key = some value ↔
      ∃ w, l.last? key = some w ∧ w.value = value ∧ i < w.since + w.lifetime := by
  simp only [live, Option.map_eq_some_iff, Option.filter_eq_some_iff, decide_eq_true_eq, and_assoc]
  exact exists_congr fun w => and_congr_right fun _ => and_comm

/-- What has expired stays so. -/
theorem live_eq_none_of_le {i j : Instant} {key : κ} {l : Ledger κ ν} (h : l.live i key = none)
    (hij : i ≤ j) : l.live j key = none := by
  rw [Option.eq_none_iff_forall_ne_some]
  intro value hvalue
  obtain ⟨w, hw, hv, hlive⟩ := live_eq_some_iff.1 hvalue
  have hi : l.live i key = some value :=
    live_eq_some_iff.2 ⟨w, hw, hv, Int.lt_of_le_of_lt hij hlive⟩
  exact absurd (h.symm.trans hi) (Option.some_ne_none value).symm

end Ledger

/-- Whether the clock counts the lifetime that a request may store, or a wait, and still runs at its
end. -/
def Request.Fits (max : Duration) (now : Instant) : Request κ ν → Prop
  | .get _ => True
  | .put _ _ lifetime => now.Reaches (min lifetime max)
  | .getOrPut _ _ lifetime => now.Reaches (min lifetime max)
  | .flush _ => True
  | .wait d => now.Reaches d

/-- Whether each of some requests, made in this order, fits at its instant. -/
def FitsAll (max : Duration) : Ledger κ ν → List (Request κ ν) → Prop
  | _, [] => True
  | l, r :: requests => r.Fits max l.now ∧ FitsAll max (l.enter max r) requests

omit [DecidableEq κ] in
instance Request.decidableFits (max : Duration) (now : Instant) :
    ∀ r : Request κ ν, Decidable (r.Fits max now)
  | .get _ => .isTrue trivial
  | .put _ _ lifetime => inferInstanceAs (Decidable (now.Reaches (min lifetime max)))
  | .getOrPut _ _ lifetime => inferInstanceAs (Decidable (now.Reaches (min lifetime max)))
  | .flush _ => .isTrue trivial
  | .wait d => inferInstanceAs (Decidable (now.Reaches d))

instance decidableFitsAll (max : Duration) :
    ∀ (l : Ledger κ ν) (requests : List (Request κ ν)), Decidable (FitsAll max l requests)
  | _, [] => .isTrue trivial
  | l, r :: requests =>
    have := decidableFitsAll max (l.enter max r) requests
    inferInstanceAs (Decidable (r.Fits max l.now ∧ FitsAll max (l.enter max r) requests))

/-! ### Serving requests -/

def Request.serve : Request κ ν → Instant × Cache κ ν → Option (Instant × Cache κ ν)
  | .get key, (now, c) => some (now, (c.get now key).2)
  | .put key value lifetime, (now, c) => (c.put? now key value lifetime).map (now, ·)
  | .getOrPut key value lifetime, (now, c) =>
    (c.getOrPut? now key lifetime (fun (_ : Unit) => some (value, ())) ()).map
      fun (_, c, _) => (now, c)
  | .flush force, (now, c) => some (now, (c.flush now force).2)
  | .wait d, (now, c) => (now.later? d).map (·, c)

def serveAll (requests : List (Request κ ν)) (state : Instant × Cache κ ν) :
    Option (Instant × Cache κ ν) :=
  requests.foldlM (fun state r => r.serve state) state

/-! ### What a cache answers -/

theorem get_fst (c : Cache κ ν) (now : Instant) (key : κ) :
    (c.get now key).1
      = ((c.find? key).filter (fun kept => decide (now < kept.expires))).map Kept.value := by
  unfold get
  cases hfind : c.find? key with
  | none => rfl
  | some kept => by_cases hlive : now < kept.expires <;> simp [hlive, Option.filter]

/-- What a cache answers for a key depends on the entry of this key only. -/
theorem get_fst_congr {c c' : Cache κ ν} {key : κ} (h : c.find? key = c'.find? key)
    (now : Instant) : (c.get now key).1 = (c'.get now key).1 := by
  rw [get_fst, get_fst, h]

/-- Reading either changes nothing or drops the entry of its key, which had expired. -/
theorem get_snd (c : Cache κ ν) (now : Instant) (key : κ) :
    (c.get now key).2 = c ∨ (c.get now key).1 = none ∧ (c.get now key).2 = c.erase key := by
  unfold get
  cases hfind : c.find? key with
  | none => exact Or.inl rfl
  | some kept =>
    by_cases hlive : now < kept.expires
    · exact Or.inl (by simp [hlive])
    · exact Or.inr (by simp [hlive])

/-- The cache with a value stored for a lifetime that ends before the clock does. -/
def store (now : Instant) (key : κ) (value : ν) (lifetime : Duration) (c : Cache κ ν) :
    Cache κ ν :=
  if min lifetime c.maxLifetime = 0 then c
  else c.set key ⟨value, now + min lifetime c.maxLifetime⟩

theorem put?_of_reaches {c : Cache κ ν} {now : Instant} {lifetime : Duration} (key : κ) (value : ν)
    (h : now.Reaches (min lifetime c.maxLifetime)) :
    c.put? now key value lifetime = some (c.store now key value lifetime) := by
  unfold put? store
  dsimp only
  rw [Instant.later?_of_reaches h]
  split <;> rfl

theorem getOrPut?_of_some {σ : Type} {c : Cache κ ν} {now : Instant} {key : κ} {value : ν}
    (h : (c.get now key).1 = some value) (lifetime : Duration) (compute : σ → Option (ν × σ))
    (state : σ) :
    c.getOrPut? now key lifetime compute state = some (value, (c.get now key).2, state) := by
  have hget : c.get now key = (some value, (c.get now key).2) := Prod.ext h rfl
  unfold getOrPut?
  rw [hget]

theorem get_maxLifetime (c : Cache κ ν) (now : Instant) (key : κ) :
    (c.get now key).2.maxLifetime = c.maxLifetime := by
  rcases get_snd c now key with h | ⟨-, h⟩ <;> rw [h]
  rfl

theorem getOrPut?_of_none {σ : Type} {c : Cache κ ν} {now : Instant} {key : κ}
    (h : (c.get now key).1 = none) {lifetime : Duration}
    (hfits : now.Reaches (min lifetime c.maxLifetime)) (compute : σ → ν × σ) (state : σ) :
    c.getOrPut? now key lifetime (fun s => some (compute s)) state
      = some ((compute state).1, (c.get now key).2.store now key (compute state).1 lifetime,
          (compute state).2) := by
  have hget : c.get now key = (none, (c.get now key).2) := Prod.ext h rfl
  have hput : (c.get now key).2.put? now key (compute state).1 lifetime
      = some ((c.get now key).2.store now key (compute state).1 lifetime) :=
    put?_of_reaches key _ (by rw [get_maxLifetime]; exact hfits)
  unfold getOrPut?
  rw [hget] at hput ⊢
  dsimp only at hput ⊢
  rw [Option.bind_eq_bind, Option.bind_some, hput]
  rfl

/-! ### Keys apart -/

/-- Two caches that answer every other key alike, at all times. -/
def AgreeElsewhere (key : κ) (c c' : Cache κ ν) : Prop :=
  ∀ other, other ≠ key → ∀ i, (c'.get i other).1 = (c.get i other).1

namespace AgreeElsewhere

variable {key : κ} {c c' c'' : Cache κ ν}

theorem trans (h : AgreeElsewhere key c c') (h' : AgreeElsewhere key c' c'') :
    AgreeElsewhere key c c'' :=
  fun other hne i => (h' other hne i).trans (h other hne i)

theorem erase (c : Cache κ ν) (key : κ) : AgreeElsewhere key c (c.erase key) :=
  fun _ hne i => get_fst_congr (find?_erase_of_ne c hne) i

theorem get (c : Cache κ ν) (now : Instant) (key : κ) :
    AgreeElsewhere key c (c.get now key).2 := by
  rcases get_snd c now key with h | ⟨-, h⟩ <;> rw [h]
  · exact fun _ _ _ => rfl
  · exact .erase c key

theorem store (c : Cache κ ν) (now : Instant) (key : κ) (value : ν) (lifetime : Duration) :
    AgreeElsewhere key c (c.store now key value lifetime) := by
  unfold Cache.store
  split
  · exact fun _ _ _ => rfl
  · exact fun _ hne i => get_fst_congr (find?_set_of_ne c _ hne) i

end AgreeElsewhere

/-! ### Each key once -/

def keys (c : Cache κ ν) : List κ := c.entries.map Prod.fst

theorem keys_erase (c : Cache κ ν) (key : κ) :
    (c.erase key).keys = c.keys.filter (fun k => !(k == key)) := by
  unfold keys erase
  rw [List.filter_map]
  rfl

theorem keys_set (c : Cache κ ν) (key : κ) (kept : Kept ν) :
    (c.set key kept).keys = (c.erase key).keys ++ [key] := by
  unfold keys set
  rw [List.map_append]
  rfl

theorem mem_keys_iff {c : Cache κ ν} {key : κ} : key ∈ c.keys ↔ (c.find? key).isSome := by
  unfold keys find?
  rw [Option.isSome_map, List.find?_isSome, List.mem_map]
  simp only [beq_iff_eq]

theorem nodup_keys_erase {c : Cache κ ν} (h : c.keys.Nodup) (key : κ) :
    (c.erase key).keys.Nodup := by
  rw [keys_erase]
  exact h.filter _

theorem nodup_keys_set {c : Cache κ ν} (h : c.keys.Nodup) (key : κ) (kept : Kept ν) :
    (c.set key kept).keys.Nodup := by
  rw [keys_set, List.nodup_append]
  refine ⟨nodup_keys_erase h key, List.nodup_singleton key, ?_⟩
  intro a ha b hb hab
  rw [keys_erase] at ha
  have hne := (List.mem_filter.1 ha).2
  rw [hab, List.mem_singleton.1 hb] at hne
  simp at hne

/-- Where each key stands once, searching the entries kept by a filter is filtering what the search
finds among all of them. -/
theorem find?_filter_of_nodup {entries : List (κ × Kept ν)} (h : (entries.map Prod.fst).Nodup)
    (p : κ × Kept ν → Bool) (key : κ) :
    (entries.filter p).find? (fun e => e.1 == key)
      = (entries.find? (fun e => e.1 == key)).filter p := by
  induction entries with
  | nil => rfl
  | cons e rest ih =>
    rw [List.map_cons, List.nodup_cons] at h
    by_cases hkey : (e.1 == key) = true
    · -- no later entry has the key, so nothing takes the place of a dropped one
      have hrest : rest.find? (fun e => e.1 == key) = none := by
        rw [List.find?_eq_none]
        intro e' he' hkey'
        rw [beq_iff_eq] at hkey hkey'
        exact h.1 (List.mem_map.2 ⟨e', he', hkey'.trans hkey.symm⟩)
      by_cases hp : p e = true
      · simp [Option.filter, hkey, hp]
      · simp [Option.filter, hkey, hp, ih h.2, hrest]
    · by_cases hp : p e = true
      · simp [hkey, hp, ih h.2]
      · simp [hkey, hp, ih h.2]

theorem find?_flush {c : Cache κ ν} (h : c.keys.Nodup) (now : Instant) (key : κ) :
    (c.flush now false).2.find? key
      = (c.find? key).filter (fun kept => decide (now < kept.expires)) := by
  show ((c.entries.filter _).find? _).map Prod.snd = _
  rw [find?_filter_of_nodup h]
  unfold find?
  cases c.entries.find? (fun e => e.1 == key) with
  | none => rfl
  | some e => by_cases hlive : now < e.2.expires <;> simp [hlive, Option.filter]

/-- Sweeping loses no answer from its instant on. -/
theorem get_fst_flush {c : Cache κ ν} (h : c.keys.Nodup) {now i : Instant} (hi : now ≤ i)
    (key : κ) : ((c.flush now false).2.get i key).1 = (c.get i key).1 := by
  rw [get_fst, get_fst, find?_flush h, Option.filter_filter]
  congr 2
  funext kept
  have hlater : i < kept.expires → now < kept.expires := Int.lt_of_le_of_lt hi
  by_cases hlive : i < kept.expires <;> simp [hlive, hlater]

omit [DecidableEq κ] in
theorem entries_flush_sublist (c : Cache κ ν) (now : Instant) (force : Bool) :
    (c.flush now force).2.entries.Sublist c.entries := by
  unfold flush
  cases force
  · exact List.filter_sublist
  · exact List.nil_sublist _

omit [DecidableEq κ] in
/-- The number that flushing answers is the number of entries it drops. -/
theorem flush_fst_add_size (c : Cache κ ν) (now : Instant) (force : Bool) :
    (c.flush now force).1 + (c.flush now force).2.size = c.size :=
  Nat.sub_add_cancel (entries_flush_sublist c now force).length_le

omit [DecidableEq κ] in
theorem nodup_keys_flush {c : Cache κ ν} (h : c.keys.Nodup) (now : Instant) (force : Bool) :
    (c.flush now force).2.keys.Nodup :=
  h.sublist ((entries_flush_sublist c now force).map Prod.fst)

/-- Right after sweeping, the keys of the entries are those that are answered. -/
theorem mem_keys_flush_iff {c : Cache κ ν} (h : c.keys.Nodup) (now : Instant) (key : κ) :
    key ∈ (c.flush now false).2.keys ↔ ((c.flush now false).2.get now key).1.isSome := by
  rw [mem_keys_iff, get_fst, find?_flush h, Option.filter_filter, Option.isSome_map]
  simp only [Bool.and_self]

/-! ### Cache and ledger together -/

/-- Cache and ledger answer every key alike, now and later. -/
structure Refines (max : Duration) (l : Ledger κ ν) (c : Cache κ ν) : Prop where
  maxLifetime : c.maxLifetime = max
  nodup : c.keys.Nodup
  answers : ∀ key i, l.now ≤ i → (c.get i key).1 = l.live i key

theorem refines_empty (max : Duration) (start : Instant) :
    Refines max { now := start } (empty max : Cache κ ν) :=
  ⟨rfl, List.nodup_nil, fun _ _ _ => rfl⟩

namespace Ledger

theorem last?_write_self {max : Duration} {key : κ} {value : ν} {lifetime : Duration}
    (h : min lifetime max ≠ 0) (l : Ledger κ ν) :
    (l.write max key value lifetime).last? key
      = some ⟨key, value, l.now, min lifetime max⟩ := by
  unfold write last?
  rw [if_neg h]
  exact List.find?_cons_of_pos (beq_self_eq_true key)

theorem last?_write_of_ne {max : Duration} {key other : κ} (hne : other ≠ key) (value : ν)
    (lifetime : Duration) (l : Ledger κ ν) :
    (l.write max key value lifetime).last? other = l.last? other := by
  unfold write last?
  split
  · rfl
  · refine List.find?_cons_of_neg ?_
    rw [beq_iff_eq]
    exact hne.symm

omit [DecidableEq κ] in
theorem now_write (max : Duration) (key : κ) (value : ν) (lifetime : Duration) (l : Ledger κ ν) :
    (l.write max key value lifetime).now = l.now := by
  unfold write
  split <;> rfl

end Ledger

namespace Refines

variable {max : Duration} {l : Ledger κ ν} {c : Cache κ ν}

/-- Reading drops an entry only when the key is not answered any more. -/
theorem get (h : Refines max l c) (key : κ) : Refines max l (c.get l.now key).2 := by
  rcases get_snd c l.now key with hsame | ⟨hnone, hdrop⟩
  · rw [hsame]
    exact h
  · have hexpired : l.live l.now key = none :=
      (h.answers key l.now (Int.le_refl _)).symm.trans hnone
    rw [hdrop]
    refine ⟨h.maxLifetime, nodup_keys_erase h.nodup key, ?_⟩
    intro other i hi
    by_cases hother : other = key
    · rw [hother, get_fst, find?_erase_self, l.live_eq_none_of_le hexpired hi]
      rfl
    · rw [AgreeElsewhere.erase c key other hother i]
      exact h.answers other i hi

theorem store (h : Refines max l c) (key : κ) (value : ν) (lifetime : Duration) :
    Refines max (l.write max key value lifetime) (c.store l.now key value lifetime) := by
  by_cases hzero : min lifetime max = 0
  · have hledger : l.write max key value lifetime = l := if_pos hzero
    have hcache : c.store l.now key value lifetime = c :=
      if_pos ((congrArg (min lifetime) h.maxLifetime).trans hzero)
    rw [hledger, hcache]
    exact h
  · have hcache : c.store l.now key value lifetime
        = c.set key ⟨value, l.now + min lifetime max⟩ := by
      unfold Cache.store
      rw [h.maxLifetime, if_neg hzero]
    refine ⟨?_, ?_, ?_⟩
    · rw [hcache]
      exact h.maxLifetime
    · rw [hcache]
      exact nodup_keys_set h.nodup key _
    · intro other i hi
      rw [Ledger.now_write] at hi
      by_cases hother : other = key
      · rw [hother, hcache, get_fst, find?_set_self, Ledger.live, Ledger.last?_write_self hzero]
        by_cases hlive : i < l.now + min lifetime max <;> simp [hlive, Option.filter]
      · rw [AgreeElsewhere.store c l.now key value lifetime other hother i, h.answers other i hi]
        unfold Ledger.live
        rw [Ledger.last?_write_of_ne hother]

theorem flush (h : Refines max l c) (force : Bool) :
    Refines max (l.enter max (.flush force)) (c.flush l.now force).2 := by
  refine ⟨h.maxLifetime, nodup_keys_flush h.nodup l.now force, ?_⟩
  intro key i hi
  cases force
  · exact (get_fst_flush h.nodup hi key).trans (h.answers key i hi)
  · rfl

theorem wait (h : Refines max l c) (d : Duration) : Refines max (l.enter max (.wait d)) c :=
  ⟨h.maxLifetime, h.nodup, fun key i hi =>
    h.answers key i (Int.le_trans (l.now.le_add d) hi)⟩

end Refines

/-- What computing a missing value does while cache and ledger are together: it happens if the
ledger has no value, and then its value is stored. -/
theorem Refines.getOrPut? {σ : Type} {max : Duration} {l : Ledger κ ν} {c : Cache κ ν}
    (h : Refines max l c) (key : κ) {lifetime : Duration}
    (hfits : l.now.Reaches (min lifetime max)) (compute : σ → ν × σ) (state : σ) :
    c.getOrPut? l.now key lifetime (fun s => some (compute s)) state
      = match (c.get l.now key).1 with
        | some value => some (value, (c.get l.now key).2, state)
        | none => some ((compute state).1,
            (c.get l.now key).2.store l.now key (compute state).1 lifetime, (compute state).2) := by
  cases hget : (c.get l.now key).1 with
  | some value => exact getOrPut?_of_some hget lifetime _ state
  | none => exact getOrPut?_of_none hget (by rw [h.maxLifetime]; exact hfits) compute state

/-- One request is served, and keeps cache and ledger together. -/
theorem Request.refines {max : Duration} {l : Ledger κ ν} {c : Cache κ ν} (h : Refines max l c) :
    ∀ r : Request κ ν, r.Fits max l.now →
      ∃ c', r.serve (l.now, c) = some ((l.enter max r).now, c') ∧ Refines max (l.enter max r) c'
  | .get key, _ => ⟨_, rfl, h.get key⟩
  | .put key value lifetime, hfits => by
    refine ⟨c.store l.now key value lifetime, ?_, h.store key value lifetime⟩
    have hput := put?_of_reaches (c := c) key value (by rw [h.maxLifetime]; exact hfits)
    show (c.put? l.now key value lifetime).map _
      = some ((l.write max key value lifetime).now, _)
    rw [hput, Ledger.now_write]
    rfl
  | .getOrPut key value lifetime, hfits => by
    have hgive := h.getOrPut? key hfits (fun _ => (value, ())) ()
    have hlive := h.answers key l.now (Int.le_refl _)
    unfold Request.serve Ledger.enter
    dsimp only
    rw [hgive, ← hlive]
    cases (c.get l.now key).1 with
    | some found => exact ⟨_, rfl, h.get key⟩
    | none =>
      refine ⟨_, ?_, (h.get key).store key value lifetime⟩
      show _ = some ((l.write max key value lifetime).now, _)
      rw [Ledger.now_write]
      rfl
  | .flush force, _ => ⟨_, by cases force <;> rfl, h.flush force⟩
  | .wait d, hfits => by
    refine ⟨c, ?_, h.wait d⟩
    show (l.now.later? d).map _ = _
    rw [Instant.later?_of_reaches hfits]
    rfl

/-- Every sequence of requests is served, and keeps cache and ledger together. -/
theorem refines_of_fitsAll {max : Duration} (requests : List (Request κ ν)) {l : Ledger κ ν}
    {c : Cache κ ν} (h : Refines max l c) (hfits : FitsAll max l requests) :
    let l' := requests.foldl (Ledger.enter max) l
    ∃ c', serveAll requests (l.now, c) = some (l'.now, c') ∧ Refines max l' c' := by
  induction requests generalizing l c with
  | nil => exact ⟨c, rfl, h⟩
  | cons r requests ih =>
    obtain ⟨c₁, hserve, h₁⟩ := Request.refines h r hfits.1
    obtain ⟨c₂, hrest, h₂⟩ := ih h₁ hfits.2
    refine ⟨c₂, ?_, h₂⟩
    show (r.serve (l.now, c)).bind (serveAll requests) = _
    rw [hserve]
    exact hrest

/-- **A cache answers what was last written.** Any sequence of requests to a new cache is served
if its durations stay within the clock. Afterwards a key has a value just if its last write since
the last forced flush wrote it and the lifetime of this write is not over; a value is computed
just if there is none; no operation on a key changes what any other key is answered, now or
later; and a flush answers how many entries it drops, leaving, unless it was forced, one entry for
each key that is answered. -/
theorem answers_as_written (max : Duration) (start : Instant) (requests : List (Request κ ν))
    (hfits : FitsAll max { now := start } requests) :
    let l := requests.foldl (Ledger.enter max) { now := start }
    ∃ c, serveAll requests (start, empty max) = some (l.now, c) ∧
      (∀ key value, (c.get l.now key).1 = some value ↔
        ∃ w, l.last? key = some w ∧ w.value = value ∧ l.now < w.since + w.lifetime) ∧
      (∀ key, AgreeElsewhere key c (c.get l.now key).2) ∧
      (∀ key value lifetime, l.now.Reaches (min lifetime max) →
        ∃ c', c.put? l.now key value lifetime = some c' ∧ AgreeElsewhere key c c') ∧
      (∀ key lifetime, l.now.Reaches (min lifetime max) →
        ∀ (σ : Type) (compute : σ → ν × σ) (state : σ),
          ∃ c', c.getOrPut? l.now key lifetime (fun s => some (compute s)) state
              = (match (c.get l.now key).1 with
                | some value => some (value, c', state)
                | none => some ((compute state).1, c', (compute state).2)) ∧
            AgreeElsewhere key c c') ∧
      (∀ force, (c.flush l.now force).1 + (c.flush l.now force).2.size = c.size ∧
        (c.flush l.now force).2.entries.Sublist c.entries) ∧
      ∃ answered : List κ, answered.Nodup ∧ answered.length = (c.flush l.now false).2.size ∧
        ∀ key, key ∈ answered ↔ ((c.flush l.now false).2.get l.now key).1.isSome := by
  intro l
  obtain ⟨c, hserve, h⟩ := refines_of_fitsAll requests (refines_empty max start) hfits
  refine ⟨c, hserve, ?_, fun key => .get c l.now key, ?_, ?_, ?_, ?_⟩
  · intro key value
    rw [h.answers key l.now (Int.le_refl _)]
    exact Ledger.live_eq_some_iff
  · intro key value lifetime hlifetime
    exact ⟨_, put?_of_reaches key value (by rw [h.maxLifetime]; exact hlifetime), .store c _ _ _ _⟩
  · intro key lifetime hlifetime σ compute state
    rw [h.getOrPut? key hlifetime compute state]
    cases (c.get l.now key).1 with
    | some value => exact ⟨_, rfl, .get c l.now key⟩
    | none => exact ⟨_, rfl, (AgreeElsewhere.get c l.now key).trans (.store _ _ _ _ _)⟩
  · intro force
    exact ⟨flush_fst_add_size c l.now force, entries_flush_sublist c l.now force⟩
  · exact ⟨(c.flush l.now false).2.keys, nodup_keys_flush h.nodup l.now false, List.length_map _,
      mem_keys_flush_iff h.nodup l.now⟩

/-- A write for a time longer than the cache keeps anything, one that replaces it and counts for a
shorter time, and one that would not count at all; then a value is computed and swept over. -/
def sampleRequests : List (Request Nat Nat) :=
  [.put 1 10 50, .put 1 11 3, .put 1 12 0, .put 2 20 50, .wait 3, .getOrPut 1 13 4,
    .getOrPut 2 21 4, .flush false, .wait 3]

theorem answers_as_written_sample :
    FitsAll 5 { now := 7 } sampleRequests ∧
      ∃ c, serveAll sampleRequests (7, empty 5) = some (13, c) ∧
        (c.get 13 1).1 = some 13 ∧ (c.get 13 2).1 = none := by
  have hfits : FitsAll 5 { now := 7 } sampleRequests := by decide
  obtain ⟨c, hserve, hget, -⟩ := answers_as_written 5 7 sampleRequests hfits
  refine ⟨hfits, c, hserve, (hget 1 13).2 ⟨⟨1, 13, 10, 4⟩, by decide, rfl, by decide⟩, ?_⟩
  rw [Option.eq_none_iff_forall_ne_some]
  intro value hvalue
  obtain ⟨w, hlast, -, hlive⟩ := (hget 2 value).1 hvalue
  have hw : some w = some ⟨2, 20, 7, 5⟩ := hlast.symm.trans (by decide)
  rw [Option.some.inj hw] at hlive
  exact absurd hlive (by decide)

end Cache
end CommandGrammar
