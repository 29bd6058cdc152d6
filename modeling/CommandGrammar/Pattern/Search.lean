import CommandGrammar.Pattern.Basic

/-!
# Searching for a pattern

`Pattern.ends` lists the places at which a match begun at a given place can end, each place once.
A repetition without an upper bound follows the ends of its ends until nothing new is reached;
that takes at most one round for each character still to be read.
-/

namespace CommandGrammar

/-- A place in a text: the character before it and the characters after it. -/
structure Place where
  last : Option Char
  rest : Text
deriving DecidableEq, Repr

namespace Anchor

def isWord (unicode : Bool) (c : Option Char) : Bool :=
  match c with
  | some c => (CharClass.word unicode).contains c.toNat
  | none => false

def holds (a : Anchor) (place : Place) : Bool :=
  let next := place.rest.head?
  match a with
  | textStart => place.last.isNone
  | textEnd => next.isNone
  | lineStart false => place.last.isNone || place.last == some '\n'
  | lineStart true =>
    place.last.isNone || place.last == some '\n'
      || (place.last == some '\r' && next != some '\n')
  | lineEnd false => next.isNone || next == some '\n'
  | lineEnd true =>
    next.isNone || next == some '\r' || (next == some '\n' && place.last != some '\r')
  | wordBoundary u => isWord u place.last != isWord u next
  | noWordBoundary u => isWord u place.last == isWord u next
  | wordStart u => !isWord u place.last && isWord u next
  | wordEnd u => isWord u place.last && !isWord u next
  | wordStartHalf u => !isWord u place.last
  | wordEndHalf u => !isWord u next

end Anchor

namespace Pattern

/-- The places of a list without repetitions; places of one text are told apart by what is left
after them. -/
def distinctPlaces (places : List Place) : List Place :=
  places.foldr (fun p kept => if kept.any (·.rest.length == p.rest.length) then kept else p :: kept)
    []

/-- Follows `step` exactly `n` times from some places. -/
def exactly (step : Place → List Place) : Nat → List Place → List Place
  | 0, places => places
  | n + 1, places =>
    match places with
    | [] => []
    | _ => exactly step n (distinctPlaces (places.flatMap step))

/-- Follows `step` at most `n` times from the places of `front`, collecting all places reached;
`seen` holds those reached before. -/
def upTo (step : Place → List Place) : Nat → List Place → List Place → List Place
  | 0, seen, front => seen ++ front
  | n + 1, seen, front =>
    match front with
    | [] => seen
    | _ =>
      let reached := seen ++ front
      let fresh := (distinctPlaces (front.flatMap step)).filter
        (fun p => !reached.any (·.rest.length == p.rest.length))
      upTo step n reached fresh

/-- The places at which a match of the pattern begun at a place can end. -/
def ends : Pattern → Place → List Place
  | nothing, place => [place]
  | one c, ⟨_, rest⟩ =>
    match rest with
    | x :: rest => if c.contains x.toNat then [⟨some x, rest⟩] else []
    | [] => []
  | anchor a, place => if a.holds place then [place] else []
  | sequence p q, place => distinctPlaces ((p.ends place).flatMap q.ends)
  | choice p q, place => distinctPlaces (p.ends place ++ q.ends place)
  | repeated p least most, place =>
    let start := exactly p.ends least [place]
    let rounds := match most with
      | some most => most - least
      | none => place.rest.length + 1
    upTo p.ends rounds [] start

/-- Whether a match of the pattern begins at a place or later. -/
def occursFrom (p : Pattern) (last : Option Char) : Text → Bool
  | [] => !(p.ends ⟨last, []⟩).isEmpty
  | c :: rest => !(p.ends ⟨last, c :: rest⟩).isEmpty || occursFrom p (some c) rest

/-- Whether some part of a text matches the pattern. -/
def occursIn (p : Pattern) (text : Text) : Bool := occursFrom p none text

end Pattern

end CommandGrammar
