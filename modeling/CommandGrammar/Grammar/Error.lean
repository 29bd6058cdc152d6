import CommandGrammar.Text.Quoted

/-!
# What can be wrong with a grammar

Every cause is a mistake of the grammar's author; a grammar with a mistake is refused as a whole.
-/

namespace CommandGrammar

/-- Why a grammar is refused. -/
inductive GrammarError
  /-- The document does not have the form of a grammar. -/
  | declaration (reason : Text)
  /-- An option has no usable spelling or a malformed value descriptor. -/
  | invalidDescriptor (descriptor : Text)
  /-- A positional is named by neither an index nor the star. -/
  | invalidPositional (name : Text)
  /-- An exclusion is empty or has blanks. -/
  | invalidExclusion (token : Text)
  /-- Two options share a spelling. -/
  | duplicateOption (flag : Text)
  /-- A declaration names an embedding nobody registered. -/
  | unknownSubparser (name : Text)
  /-- A guess pattern cannot be read. -/
  | invalidGuessPattern (pattern : Text)
deriving DecidableEq, Repr

namespace GrammarError

def message : GrammarError → Text
  | declaration reason => "invalid grammar declaration: ".toList ++ reason
  | invalidDescriptor d => "invalid option descriptor: ".toList ++ Text.quoted d
  | invalidPositional name => "invalid positional index: ".toList ++ Text.quoted name
  | invalidExclusion token => "invalid exclusion token: ".toList ++ Text.quoted token
  | duplicateOption flag => "duplicate option in grammar: ".toList ++ flag
  | unknownSubparser name => "unknown subparser: ".toList ++ name
  | invalidGuessPattern pattern =>
    "invalid guess pattern ".toList ++ Text.quoted pattern ++ ": malformed pattern".toList

end GrammarError

end CommandGrammar
