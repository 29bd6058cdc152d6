import CommandGrammar.Grammar.Error

/-!
# What can go wrong in a session

Reading a line never fails. Loading documents and configurations does: a file cannot be read or
written, a document is malformed, or its grammar is refused.
-/

namespace CommandGrammar

/-- Why a configuration, a document or a grammar could not be used. -/
inductive SessionError
  /-- A file or a directory could not be read or written. -/
  | inaccessible (path : Text)
  /-- A configuration is malformed. -/
  | malformedConfig
  /-- A grammar is refused. -/
  | grammar (cause : GrammarError)
  /-- The document in a file is malformed, or its grammar is refused. -/
  | document (path : Text) (cause : GrammarError)
  /-- A result would have to be kept past the last instant of the clock. -/
  | endOfTime
deriving DecidableEq, Repr

namespace SessionError

def message : SessionError → Text
  | inaccessible path => "cannot access ".toList ++ path
  | malformedConfig => "malformed configuration".toList
  | grammar cause => cause.message
  | document path cause => "invalid grammar ".toList ++ path ++ [':', ' '] ++ cause.message
  | endOfTime => "time out of range".toList

end SessionError

end CommandGrammar
