import CommandGrammar.Document.Tree

/-!
# What a plain scalar stands for

A scalar without quotes may be a null, a truth value, an integer or a real number, by the core
schema of YAML 1.2: `yes`, `no` and `on` are texts, and so is a run of digits with a leading zero.
-/

namespace CommandGrammar

namespace Yaml

def bool? (t : Text) : Option Bool :=
  if ["true".toList, "True".toList, "TRUE".toList].contains t then some true
  else if ["false".toList, "False".toList, "FALSE".toList].contains t then some false
  else none

def isNull (t : Text) : Bool :=
  [[], "~".toList, "null".toList, "Null".toList, "NULL".toList].contains t

/-- The text without a sign at its beginning. -/
def unsigned : Text → Text
  | '-' :: cs => cs
  | '+' :: cs => cs
  | cs => cs

/-- Whether a scalar is a run of several digits with a leading zero, which makes it a text. -/
def isPaddedDigits (t : Text) : Bool :=
  match unsigned t with
  | '0' :: d :: ds => (d :: ds).all (fun c => (Decimal.digit? c).isSome)
  | _ => false

/-- The magnitude of an integer without its sign, in decimal or with the mark of another base. -/
def magnitude? (t : Text) : Option Nat :=
  match t with
  | '0' :: 'x' :: digits => Decimal.inBase? 16 digits
  | '0' :: 'o' :: digits => Decimal.inBase? 8 digits
  | '0' :: 'b' :: digits => Decimal.inBase? 2 digits
  | digits => Decimal.digits? digits

/-- One more than the largest value of a 128-bit word. -/
def longBound : Nat := Decimal.wordBound * Decimal.wordBound

/-- The integer a scalar spells, as a kind, if it fits a 128-bit word. -/
def integer? (t : Text) : Option Kind :=
  if isPaddedDigits t then none
  else
    match t with
    | '-' :: rest =>
      (magnitude? rest).bind fun n =>
        if n = 0 then some .minusZero
        else if n ≤ longBound / 2 then some .otherNumber
        else none
    | _ =>
      let rest := match t with
        | '+' :: rest => rest
        | _ => t
      (magnitude? rest).bind fun n =>
        if n < Decimal.wordBound then some (.natural n)
        else if n < longBound then some .otherNumber
        else none

/-- The least number that rounds to infinity in double precision: half a unit in the last place
below the power of two that no double reaches. -/
def overflowBound : Nat := Nat.pow 2 1024 - Nat.pow 2 970

/-- Whether `digits × 10 ^ exponent` is finite in double precision. -/
def isFinite (digits : Nat) (exponent : Int) : Bool :=
  if digits = 0 then true
  else if exponent > 400 then false
  else if exponent ≥ 0 then digits * Nat.pow 10 exponent.toNat < overflowBound
  else if (-exponent).toNat > 5000 then true
  else digits < overflowBound * Nat.pow 10 (-exponent).toNat

/-- Whether a text spells a real number: digits with a point among them or at either end, and an
exponent. -/
def isReal (t : Text) : Bool :=
  let body := unsigned t
  let whole := body.takeWhile (fun c => (Decimal.digit? c).isSome)
  let rest := body.drop whole.length
  let (part, rest) := match rest with
    | '.' :: rest =>
      let part := rest.takeWhile (fun c => (Decimal.digit? c).isSome)
      (part, rest.drop part.length)
    | rest => ([], rest)
  if whole.isEmpty && part.isEmpty then false
  else
    let digits := (Decimal.digits? (whole ++ part)).getD 0
    let shift : Int := -(part.length : Int)
    match rest with
    | [] => isFinite digits shift
    | e :: rest =>
      if e == 'e' || e == 'E' then
        match Decimal.digits? (unsigned rest) with
        | some n =>
          isFinite digits (if rest.head? == some '-' then shift - (n : Int) else shift + (n : Int))
        | none => false
      else false

/-- Whether a scalar spells infinity or the value that is not a number. -/
def isSpecialReal (t : Text) : Bool :=
  [".inf", ".Inf", ".INF", "+.inf", "+.Inf", "+.INF", "-.inf", "-.Inf", "-.INF", ".nan", ".NaN",
    ".NAN"].any (fun s => s.toList == t)

/-- The kind of a plain scalar. -/
def kindOf (t : Text) : Kind :=
  if isNull t then .null
  else
    match bool? t with
    | some b => .bool b
    | none =>
      match integer? t with
      | some k => k
      | none =>
        if !isPaddedDigits t && (isSpecialReal t || isReal t) then .otherNumber else .text

example : kindOf "yes".toList = .text := by decide +kernel
example : kindOf "007".toList = .text := by decide +kernel
example : kindOf "0x1F".toList = .natural 31 := by decide +kernel
example : kindOf "1e3".toList = .otherNumber := by decide +kernel

end Yaml

end CommandGrammar
