import CommandGrammar.Text.Basic

/-!
# Bytes of a text

Files hold bytes and programs print bytes. `Utf8.encode` is the UTF-8 form of a text;
`Utf8.decode?` reads it back and refuses anything ill-formed, and `Utf8.decodeLossy` puts the
replacement character for every maximal part of an ill-formed sequence. `Utf16.decode?` reads the
two-byte form that a document may announce by a byte order mark.
-/

namespace CommandGrammar

namespace Utf8

/-- The UTF-8 bytes of one character. -/
def encodeChar (c : Char) : List UInt8 :=
  let n := c.toNat
  if n < 0x80 then [n.toUInt8]
  else if n < 0x800 then [(0xC0 + n / 0x40).toUInt8, (0x80 + n % 0x40).toUInt8]
  else if n < 0x10000 then
    [(0xE0 + n / 0x1000).toUInt8, (0x80 + n / 0x40 % 0x40).toUInt8, (0x80 + n % 0x40).toUInt8]
  else
    [(0xF0 + n / 0x40000).toUInt8, (0x80 + n / 0x1000 % 0x40).toUInt8,
      (0x80 + n / 0x40 % 0x40).toUInt8, (0x80 + n % 0x40).toUInt8]

/-- The UTF-8 bytes of a text. -/
def encode (text : Text) : List UInt8 := text.flatMap encodeChar

/-- The bytes that may follow a lead byte: their number and the range of the first of them. -/
def continuation (lead : Nat) : Option (Nat × Nat × Nat) :=
  if 0xC2 ≤ lead && lead ≤ 0xDF then some (1, 0x80, 0xBF)
  else if lead == 0xE0 then some (2, 0xA0, 0xBF)
  else if lead == 0xED then some (2, 0x80, 0x9F)
  else if 0xE1 ≤ lead && lead ≤ 0xEF then some (2, 0x80, 0xBF)
  else if lead == 0xF0 then some (3, 0x90, 0xBF)
  else if 0xF1 ≤ lead && lead ≤ 0xF3 then some (3, 0x80, 0xBF)
  else if lead == 0xF4 then some (3, 0x80, 0x8F)
  else none

/-- The part of a character's code that its lead byte holds. -/
def leadBits (lead : Nat) : Nat :=
  if lead < 0xE0 then lead - 0xC0 else if lead < 0xF0 then lead - 0xE0 else lead - 0xF0

/-- Reads up to `count` continuation bytes, the first between `low` and `high`: how many were
there, and the code they make if all were. -/
def takeTail (code : Nat) : Nat → Nat → Nat → List UInt8 → Nat × Option Nat
  | 0, _, _, _ => (0, some code)
  | _ + 1, _, _, [] => (0, none)
  | count + 1, low, high, b :: bs =>
    if low ≤ b.toNat && b.toNat ≤ high then
      let (taken, result) := takeTail (code * 0x40 + (b.toNat - 0x80)) count 0x80 0xBF bs
      (taken + 1, result)
    else (0, none)

/-- The first character of some bytes, or `none` where they are ill-formed, with the number of
bytes it takes up beyond the first. -/
def firstChar (b : UInt8) (bs : List UInt8) : Nat × Option Char :=
  if b.toNat < 0x80 then (0, some (Char.ofNat b.toNat))
  else
    match continuation b.toNat with
    | none => (0, none)
    | some (count, low, high) =>
      let (taken, code) := takeTail (leadBits b.toNat) count low high bs
      (taken, code.map Char.ofNat)

/-- The characters of some bytes in order, `none` standing for an ill-formed part; `skip` bytes
belong to the character before. -/
def chars : Nat → List UInt8 → List (Option Char)
  | _, [] => []
  | skip + 1, _ :: bs => chars skip bs
  | 0, b :: bs =>
    let (more, c) := firstChar b bs
    c :: chars more bs

/-- The text that well-formed bytes stand for. -/
def decode? (bytes : List UInt8) : Option Text := (chars 0 bytes).mapM id

/-- The text of some bytes with U+FFFD for every ill-formed part. -/
def decodeLossy (bytes : List UInt8) : Text :=
  (chars 0 bytes).map (fun c => c.getD (Char.ofNat 0xFFFD))

example : encode ['é', '€', '😀'] = [0xC3, 0xA9, 0xE2, 0x82, 0xAC, 0xF0, 0x9F, 0x98, 0x80] := by
  decide
example : decode? [0xC3, 0xA9, 0x41] = some ['é', 'A'] := by decide
example : decode? [0xE2, 0x82] = none := by decide
example : decodeLossy [0xE2, 0x82, 0x41, 0xFF] = [Char.ofNat 0xFFFD, 'A', Char.ofNat 0xFFFD] := by
  decide

end Utf8

namespace Utf16

/-- Pairs bytes to units, the first byte of a pair being the low one when `low` is set. -/
def units? (low : Bool) : List UInt8 → Option (List Nat)
  | [] => some []
  | [_] => none
  | a :: b :: rest =>
    let unit := if low then a.toNat + 256 * b.toNat else 256 * a.toNat + b.toNat
    (units? low rest).map (unit :: ·)

/-- Joins surrogate pairs; a surrogate without its partner is refused. -/
def join? : List Nat → Option Text
  | [] => some []
  | u :: rest =>
    if 0xD800 ≤ u && u < 0xDC00 then
      match rest with
      | v :: rest =>
        if 0xDC00 ≤ v && v < 0xE000 then
          (join? rest).map (Char.ofNat (0x10000 + (u - 0xD800) * 0x400 + (v - 0xDC00)) :: ·)
        else none
      | [] => none
    else if 0xDC00 ≤ u && u < 0xE000 then none
    else (join? rest).map (Char.ofNat u :: ·)

/-- The text that two-byte units stand for. -/
def decode? (low : Bool) (bytes : List UInt8) : Option Text := (units? low bytes).bind join?

end Utf16

end CommandGrammar
