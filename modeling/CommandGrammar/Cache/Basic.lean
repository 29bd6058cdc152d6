import CommandGrammar.Cache.Time

/-!
# Results kept for a time

A cache keeps values by key until they expire. The lifetime of a value is given when it is stored
and never exceeds the lifetime of the cache; a value that would expire at once is not stored at
all. Nothing happens by itself: an expired value is dropped when its key is read, and when the
cache is flushed.

No key stands twice among the entries, since storing replaces the entry of its key.
-/

namespace CommandGrammar

/-- A value and the instant from which on it counts no more. -/
structure Kept (ν : Type) where
  value : ν
  expires : Instant
deriving DecidableEq, Repr

/-- Values by key, each until it expires. -/
structure Cache (κ ν : Type) where
  maxLifetime : Duration
  entries : List (κ × Kept ν) := []
deriving Repr

namespace Cache

variable {κ ν : Type} [DecidableEq κ]

def empty (maxLifetime : Duration) : Cache κ ν := { maxLifetime := maxLifetime }

/-- The entry of a key, expired or not. -/
def find? (c : Cache κ ν) (key : κ) : Option (Kept ν) :=
  (c.entries.find? (fun e => e.1 == key)).map Prod.snd

def erase (c : Cache κ ν) (key : κ) : Cache κ ν :=
  { c with entries := c.entries.filter (fun e => !(e.1 == key)) }

def set (c : Cache κ ν) (key : κ) (kept : Kept ν) : Cache κ ν :=
  { c with entries := (c.erase key).entries ++ [(key, kept)] }

/-- The value of a key, unless it has expired; an expired entry is dropped. -/
def get (now : Instant) (key : κ) (c : Cache κ ν) : Option ν × Cache κ ν :=
  match c.find? key with
  | some kept => if now < kept.expires then (some kept.value, c) else (none, c.erase key)
  | none => (none, c)

/-- The cache with a value stored for a lifetime; nothing if the value would expire after the
last instant. -/
def put? (now : Instant) (key : κ) (value : ν) (lifetime : Duration) (c : Cache κ ν) :
    Option (Cache κ ν) :=
  let lifetime := min lifetime c.maxLifetime
  if lifetime = 0 then some c
  else (now.later? lifetime).map fun expires => c.set key ⟨value, expires⟩

/-- The value of a key, computed and stored for a lifetime if there is none. Computing works on a
state and may fail. -/
def getOrPut? {σ : Type} (now : Instant) (key : κ) (lifetime : Duration)
    (compute : σ → Option (ν × σ)) (c : Cache κ ν) (state : σ) : Option (ν × Cache κ ν × σ) :=
  match c.get now key with
  | (some value, c) => some (value, c, state)
  | (none, c) => do
    let (value, state) ← compute state
    let c ← c.put? now key value lifetime
    some (value, c, state)

/-- The number of entries, expired ones included. -/
def size (c : Cache κ ν) : Nat := c.entries.length

/-- The cache without its expired entries, or without any entry if `force` is set, and the number
of entries dropped. -/
def flush (now : Instant) (force : Bool) (c : Cache κ ν) : Nat × Cache κ ν :=
  let kept := if force then [] else c.entries.filter (fun e => decide (now < e.2.expires))
  (c.entries.length - kept.length, { c with entries := kept })

/-! ### Reading back -/

theorem find?_erase_self (c : Cache κ ν) (key : κ) : (c.erase key).find? key = none := by
  simp [find?, erase, List.find?_eq_none]

theorem find?_erase_of_ne (c : Cache κ ν) {key other : κ} (h : other ≠ key) :
    (c.erase key).find? other = c.find? other := by
  have hp (e : κ × Kept ν) : ((!(e.1 == key)) = true ∧ (e.1 == other) = true) ↔
      (e.1 == other) = true := by
    by_cases he : e.1 = other
    · simp [he, h]
    · simp [he]
  simp only [find?, erase, List.find?_filter, hp, Bool.decide_eq_true]

theorem find?_set_self (c : Cache κ ν) (key : κ) (kept : Kept ν) :
    (c.set key kept).find? key = some kept := by
  have h := find?_erase_self c key
  simp only [find?, Option.map_eq_none_iff] at h
  simp [find?, set, List.find?_append, h]

theorem find?_set_of_ne (c : Cache κ ν) {key other : κ} (kept : Kept ν) (h : other ≠ key) :
    (c.set key kept).find? other = c.find? other := by
  rw [← find?_erase_of_ne c h]
  have hne : (key == other) = false := by simpa using fun hk => h hk.symm
  simp [find?, set, List.find?_append, hne]

end Cache

end CommandGrammar
