import CommandGrammar.Grammar.Error
import CommandGrammar.Pattern.Parser
import CommandGrammar.Pattern.Search
import CommandGrammar.Source.Basic

/-!
# Guessing a source from names

A placeholder spelled as an enumeration, such as `\x7bjson|yaml\x7d` in braces, is the enumeration
of its members. Any other placeholder is stripped of its decoration and looked up as
`name=PLACEHOLDER` in an ordered table of patterns; the first pattern that occurs in the key
decides. Rules given by the caller stand before the built-in table, which ends in a rule for file
names that every key satisfies.
-/

namespace CommandGrammar

/-- A row of the guess table. -/
structure GuessRule where
  /-- The pattern as it was written. -/
  written : Text
  pattern : Pattern
  source : Source
deriving DecidableEq, Repr

namespace GuessRule

def compile (written : Text) (source : Source) : Except GrammarError GuessRule :=
  match Pattern.parse? written with
  | some pattern => .ok ⟨written, pattern, source⟩
  | none => .error (.invalidGuessPattern written)

def appliesTo (rule : GuessRule) (key : Text) : Bool := rule.pattern.occursIn key

/-- A built-in rule; its pattern is known to be well-formed. -/
def builtin (written : String) (provider : Provider) : GuessRule :=
  ⟨written.toList, (Pattern.parse? written.toList).getD .nothing, .static 0 provider⟩

end GuessRule

def builtinRules : List GuessRule :=
  [.builtin "(?:^|[-_])(?:dir|directory)=|=(?:[A-Z_]*DIR|DIRECTORY|[a-z_]*dir|directory)$"
      .directories,
    .builtin "(?:^|[-_])(?:user|owner)=|=(?:USER|USERNAME|OWNER|user|username)$" .users,
    .builtin "(?:^|[-_])group=|=(?:GROUP|group)$" .groups,
    .builtin "=(?:COMMAND|CMD|PROGRAM|command|cmd|program)$" (.commands none),
    .builtin ".*" .files]

/-! ### Placeholders -/

/-- What stands between the braces of an enumeration, the brackets of an optional value aside. -/
def choiceBody? (metavar : Text) : Option Text :=
  let inner := Text.dropWhileEnd (· == ']')
    (((Text.trim metavar).dropWhile (· == '[')).dropWhile (· == '='))
  match inner with
  | '\x7b' :: rest =>
    match Text.dropSuffix? ['\x7d'] rest with
    | some body => if body.any (fun c => c == '\x7b' || c == '\x7d') then none else some body
    | none => none
  | _ => none

/-- The members of an enumeration, each once. -/
def parseChoices (metavar : Text) : Option (List Text) :=
  match choiceBody? metavar with
  | none => none
  | some body =>
    let choices := Text.distinct
      (((Text.splitWhere (fun c => c == ',' || c == '|') body).map Text.trim).filter
        (fun c => !c.isEmpty))
    if choices.isEmpty then none else some choices

/-- Whether a character only decorates a placeholder. -/
def isDecoration (c : Char) : Bool := "<>[]=\x7b\x7d".toList.contains c

/-- A placeholder without brackets, equals signs and a trailing ellipsis. -/
def stripMetavar (metavar : Text) : Text :=
  let dots := ['.', '.', '.']
  Text.dropEndings dots
    (Text.dropWhileEnd isDecoration
      ((Text.dropEndings dots (Text.trim metavar)).dropWhile isDecoration))

/-! ### Guessing -/

/-- The key under which the rules look up a value slot. -/
def guessKey (name metavar : Text) : Text := name ++ ['='] ++ stripMetavar metavar

def firstApplicable (rules : List GuessRule) (key : Text) : Source :=
  match rules.find? (·.appliesTo key) with
  | some rule => rule.source
  | none => .static 0 .files

/-- The source guessed for a value slot; `hints` come before the built-in table. -/
def guessSource (name metavar : Text) (hints : List GuessRule) : Source :=
  match parseChoices metavar with
  | some choices => .literal choices
  | none => firstApplicable (hints ++ builtinRules) (guessKey name metavar)

end CommandGrammar
