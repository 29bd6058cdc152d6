import CommandGrammar.Grammar.Basic
import CommandGrammar.Grammar.Declaration
import CommandGrammar.Grammar.Descriptor
import CommandGrammar.Grammar.Sharing

/-!
# Compiling declarations

Every declaration is compiled on its own into the specifications of its spellings; then the whole
list is normalized. `normalize` refuses a list in which a spelling is blank or stands twice or an
alias has no option, settles the guesses that a placeholder allows to settle, and shares value
slots between spellings. A guess in a slot for the rest of the line stays open until a word has
been read.
-/

namespace CommandGrammar

/-! ### What a list of specifications has to satisfy -/

/-- The first option whose spelling is blank or among those seen before. -/
def flagError? (seen : List Text) : List Spec → Option GrammarError
  | [] => none
  | s :: rest =>
    match s.flag? with
    | none => flagError? seen rest
    | some flag =>
      if Text.isAllBlank flag then some (.invalidDescriptor flag)
      else if seen.contains flag then some (.duplicateOption flag)
      else flagError? (flag :: seen) rest

/-- The first alias that is no option's spelling. -/
def aliasError? (specs : List Spec) : Option GrammarError :=
  ((specs.flatMap Spec.aliases).find? (fun a => !(specs.filterMap Spec.flag?).contains a)).map
    .invalidDescriptor

def firstError? (specs : List Spec) : Option GrammarError :=
  match flagError? [] specs with
  | some e => some e
  | none => aliasError? specs

/-! ### Normalization -/

/-- A slot with its guess settled, if a placeholder says what to guess. -/
def settleAction (hints : List GuessRule) (name : Text) (a : Action) : Action :=
  match a.source with
  | .guess =>
    if a.metavar.isEmpty then a else { a with source := guessSource name a.metavar hints }
  | _ => a

/-- A specification with its guesses settled, unless its slots are still to be repeated. -/
def settle (hints : List GuessRule) (s : Spec) : Spec :=
  if s.isUnbounded then s else { s with actions := s.actions.map (settleAction hints s.label) }

/-- Checks a list of specifications, settles its guesses and shares its value slots. -/
def normalize (options : CompileOptions) (specs : List Spec) : Except GrammarError (List Spec) :=
  match firstError? specs with
  | some e => .error e
  | none =>
    let settled := specs.map (settle options.guesses)
    .ok (if options.noSharing then settled else shareAliases settled)

/-! ### One declaration -/

/-- Declared slots laid over those a descriptor has, place by place; a slot declared without a
placeholder takes the one of the descriptor. -/
def overlay : List Action → List Action → List Action
  | [], declared => declared
  | parsed, [] => parsed
  | p :: parsed, d :: declared =>
    (if d.metavar.isEmpty then { d with metavar := p.metavar } else d) :: overlay parsed declared

namespace Declaration

/-- The help of a declaration: its own, else the one beside the descriptor. -/
def helpOr (d : Declaration) (besideDescriptor : Option Text) : Text :=
  if d.help.isEmpty then besideDescriptor.getD [] else d.help

def resolveEmbedding (options : CompileOptions) (d : Declaration) :
    Except GrammarError (Option Embedding) :=
  match d.embedding, d.embeddingName with
  | some e, _ => .ok (some e)
  | none, some name =>
    match options.embedding? name with
    | some e => .ok (some e)
    | none => .error (.unknownSubparser name)
  | none, none => .ok none

/-- The value slots of the spelling at place `i`: those of its descriptor, overlaid with the
declared ones if it is the carrier or has slots of its own. -/
def spellingActions (declared : List Action) (carrier i : Nat) (metavars : List Text) :
    List Action :=
  let parsed := metavars.map Action.guessed
  if !declared.isEmpty && (i == carrier || !parsed.isEmpty) then overlay parsed declared
  else parsed

/-- The specifications of an option, one for each spelling. -/
def compileOption (d : Declaration) (excludes : List Exclusion) (embedded : Option Embedding) :
    Except GrammarError (List Spec) := do
  let (definition, besideDescriptor) := Descriptor.splitHelp d.name
  let forms ← (Descriptor.splitSpellings definition).mapM Descriptor.parseSpelling
  if forms.isEmpty then .error (.invalidDescriptor d.name)
  else
    let flags := forms.map Descriptor.FlagSyntax.flag
    let carrier := (forms.findIdx? (fun f => !f.metavars.isEmpty)).getD 0
    .ok (forms.mapIdx fun i f =>
      { name := .flag f.flag
        aliases := flags.filter (fun other => other != f.flag)
        style := f.style
        delimiter := f.delimiter
        suffix := f.suffix
        valueOptional := f.valueOptional
        actions := spellingActions (d.actions.map ActionDecl.toAction) carrier i f.metavars
        excludes := excludes
        repeatable := d.repeatable || f.repeatable
        independent := d.independent
        embedded := embedded
        help := d.helpOr besideDescriptor })

def compilePositional (d : Declaration) (excludes : List Exclusion)
    (embedded : Option Embedding) : Except GrammarError (List Spec) := do
  let (definition, besideDescriptor) := Descriptor.splitHelp d.name
  match Text.words definition with
  | [] => .error (.invalidPositional d.name)
  | index :: metavars =>
    let index ← PositionalIndex.parse index
    let actions := overlay (metavars.map Action.guessed) (d.actions.map ActionDecl.toAction)
    .ok [
      { name := .positional index
        actions := if actions.isEmpty then [Action.guessed []] else actions
        excludes := excludes
        repeatable := d.repeatable || metavars.any Descriptor.hasEllipsis
        independent := d.independent
        embedded := embedded
        help := d.helpOr besideDescriptor }]

def compile (options : CompileOptions) (d : Declaration) : Except GrammarError (List Spec) := do
  let excludes ← d.excludes.mapM Exclusion.parse
  let embedded ← d.resolveEmbedding options
  match d.kind with
  | .option => d.compileOption excludes embedded
  | .positional => d.compilePositional excludes embedded

end Declaration

/-! ### Whole grammars -/

/-- The specifications of some declarations before they are normalized. -/
def compileEach (options : CompileOptions) (declarations : List Declaration) :
    Except GrammarError (List Spec) :=
  (declarations.mapM (Declaration.compile options)).map List.flatten

def compile (options : CompileOptions) (declarations : List Declaration) :
    Except GrammarError (List Spec) :=
  (compileEach options declarations).bind (normalize options)

def compileGrammar (options : CompileOptions) (program : Text)
    (declarations : List Declaration) : Except GrammarError Grammar :=
  (compile options declarations).map fun specs =>
    Grammar.ofSpecs program specs options.guesses

end CommandGrammar
