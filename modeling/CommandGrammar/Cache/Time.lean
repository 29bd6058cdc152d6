/-!
# Instants and durations

Both are counted in nanoseconds, instants from the beginning of 1970, before which a clock may
stand. Its readings begin with the year -262143 and end with the year 262142; a time that would come
later does not exist, and whatever needs it fails. A duration too long for a signed 64-bit count of
milliseconds stands for a century of 5200 weeks.
-/

namespace CommandGrammar

/-- A length of time, in nanoseconds. -/
abbrev Duration := Nat

/-- A point in time, in nanoseconds from the beginning of 1970. -/
abbrev Instant := Int

namespace Duration

def ofMilliseconds (milliseconds : Nat) : Duration := 1000000 * milliseconds

def ofSeconds (seconds : Nat) : Duration := 1000000000 * seconds

/-- The longest duration that is not cut. -/
def longest : Duration := ofMilliseconds 9223372036854775807

/-- The duration that stands for all that are too long. -/
def century : Duration := ofSeconds (5200 * 7 * 86400)

/-- The duration by which a clock moves. -/
def clamp (d : Duration) : Duration := if d ≤ longest then d else century

end Duration

namespace Instant

/-- The beginning of the year -262143. -/
def first : Instant := -8334601228800000000000

/-- The last nanosecond of the year 262142. -/
def last : Instant := 8210266876799999999999

/-- The instant some time later, if there is one. -/
def later? (now : Instant) (d : Duration) : Option Instant :=
  if now + d.clamp ≤ last then some (now + d.clamp) else none

/-- Whether a clock counts a duration and still runs at its end. -/
def Reaches (now : Instant) (d : Duration) : Prop := d ≤ Duration.longest ∧ now + d ≤ last

instance (now : Instant) (d : Duration) : Decidable (now.Reaches d) :=
  inferInstanceAs (Decidable (d ≤ Duration.longest ∧ now + d ≤ last))

theorem le_add (now : Instant) (d : Duration) : now ≤ now + d :=
  Int.le_add_of_nonneg_right (Int.natCast_nonneg d)

theorem later?_of_reaches {now : Instant} {d : Duration} (h : now.Reaches d) :
    now.later? d = some (now + d) := by
  have hclamp : d.clamp = d := if_pos h.1
  unfold later?
  rw [hclamp, if_pos h.2]

theorem Reaches.mono {now : Instant} {d d' : Duration} (h : now.Reaches d') (hle : d ≤ d') :
    now.Reaches d :=
  ⟨Nat.le_trans hle h.1, Int.le_trans (Int.add_le_add_left (Int.ofNat_le.2 hle) now) h.2⟩

/-- From the first instant on, a clock can count whatever ends before it does. -/
theorem reaches_iff {now : Instant} (hnow : first ≤ now) {d : Duration} :
    now.Reaches d ↔ now + d ≤ last := by
  refine ⟨And.right, fun hend => ⟨?_, hend⟩⟩
  have hlength : (d : Int) ≤ last - first :=
    Int.le_sub_left_of_add_le (Int.le_trans (Int.add_le_add_right hnow d) hend)
  have hspan : last - first ≤ Duration.longest := by decide
  exact Int.ofNat_le.1 (Int.le_trans hlength hspan)

end Instant

end CommandGrammar
