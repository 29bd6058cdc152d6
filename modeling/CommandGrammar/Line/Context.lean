import CommandGrammar.Text.Basic

/-!
# Values seen on a line

For every name, the values of each of its occurrences, in the order of the line: `-I a -I b` puts
the two lists `[a]` and `[b]` under `-I`, and an option without a value puts an empty list.
-/

namespace CommandGrammar

/-- The value lists recorded for every name. -/
abbrev Context := List (Text × List (List Text))

namespace Context

/-- Every value list recorded for a name. -/
def get (context : Context) (name : Text) : List (List Text) :=
  match context with
  | [] => []
  | (n, lists) :: rest => if n = name then lists else get rest name

def insert (context : Context) (name : Text) (values : List Text) : Context :=
  match context with
  | [] => [(name, [values])]
  | (n, lists) :: rest =>
    if n = name then (n, lists ++ [values]) :: rest else (n, lists) :: insert rest name values

def seen (context : Context) (name : Text) : Bool := context.any (fun e => e.1 == name)

/-- The values of the last occurrence of a name. -/
def last? (context : Context) (name : Text) : Option (List Text) := (context.get name).getLast?

def names (context : Context) : List Text := Text.sorted (context.map Prod.fst)

/-! ### One more occurrence -/

theorem get_insert_self (context : Context) (name : Text) (values : List Text) :
    (context.insert name values).get name = context.get name ++ [values] := by
  induction context with
  | nil => simp [insert, get]
  | cons e rest ih =>
    obtain ⟨n, lists⟩ := e
    by_cases h : n = name <;> simp [insert, get, h, ih]

theorem get_insert_of_ne (context : Context) {name other : Text} (values : List Text)
    (h : other ≠ name) : (context.insert name values).get other = context.get other := by
  induction context with
  | nil => simp [insert, get, h.symm]
  | cons e rest ih =>
    obtain ⟨n, lists⟩ := e
    by_cases hn : n = name
    · subst hn
      simp [insert, get, h.symm]
    · by_cases ho : n = other
      · subst ho
        simp [insert, get, hn]
      · simp [insert, get, hn, ho, ih]

theorem seen_insert (context : Context) (name other : Text) (values : List Text) :
    (context.insert name values).seen other = (context.seen other || name == other) := by
  induction context with
  | nil => simp [insert, seen]
  | cons e rest ih =>
    obtain ⟨n, lists⟩ := e
    by_cases hn : n = name
    · subst hn
      by_cases ho : n = other <;> simp [insert, seen, ho]
    · have := ih
      simp only [seen] at this
      simp [insert, seen, hn, this, Bool.or_assoc]

end Context

end CommandGrammar
