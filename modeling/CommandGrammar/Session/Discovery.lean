import CommandGrammar.Grammar.Compile
import CommandGrammar.Help.Entry

/-!
# Grammars made from pages

The entries of a page are compiled one by one. An entry that does not compile, or one of whose
spellings an earlier entry has already, is left out; file names follow the options. So a page
always makes a grammar.
-/

namespace CommandGrammar

namespace Discovery

/-- The spellings that an entry declares, if it compiles. -/
def flagsOf? (options : CompileOptions) (e : OptionEntry) : Option (List Text) :=
  match compile options [.option e.descriptor] with
  | .ok specs => some (specs.filterMap Spec.flag?)
  | .error _ => none

/-- The declarations of the entries that are not left out; `seen` are the spellings so far. -/
def accepted (options : CompileOptions) (seen : List Text) : List OptionEntry → List Declaration
  | [] => []
  | e :: es =>
    match flagsOf? options e with
    | none => accepted options seen es
    | some flags =>
      if flags.any seen.contains then accepted options seen es
      else .option e.descriptor :: accepted options (seen ++ flags) es

/-- The slot for the operands of a program with options. -/
def operands : Declaration := .positional "* FILE".toList

def grammarOf (options : CompileOptions) (program : Text) (entries : List OptionEntry) :
    Except GrammarError Grammar :=
  compileGrammar options program (accepted options [] entries ++ [operands])

end Discovery

end CommandGrammar
