import CommandGrammar.Text.Decimal
import CommandGrammar.CodePoints.Printable
import CommandGrammar.CodePoints.GraphemeExtend

/-!
# Quoted display of a text

Error messages and labels show a text between double quotes. The quote and the backslash get a
backslash, four controls their usual letter or digit, and every other character that would not be
seen (not printable, or a mark that joins the character before it) its code point in hexadecimal.
-/

namespace CommandGrammar

namespace Text

/-- Whether a character shows as itself inside quotes. -/
def isShown (c : Char) : Bool :=
  CodePoints.member CodePoints.printable c.toNat
    && !CodePoints.member CodePoints.graphemeExtend c.toNat

def quoteChar (c : Char) : Text :=
  if c == '"' then ['\\', '"']
  else if c == '\\' then ['\\', '\\']
  else if c == '\n' then ['\\', 'n']
  else if c == '\r' then ['\\', 'r']
  else if c == '\t' then ['\\', 't']
  else if c == '\x00' then ['\\', '0']
  else if isShown c then [c]
  else "\\u\x7b".toList ++ Decimal.writeHex c.toNat ++ "\x7d".toList

def quoted (text : Text) : Text := ['"'] ++ text.flatMap quoteChar ++ ['"']

def quotedList (items : List Text) : Text :=
  ['['] ++ joinWith [',', ' '] (items.map quoted) ++ [']']

end Text

end CommandGrammar
