import CommandGrammar.Text.Basic

/-!
# Reading the arguments of a tool

A tool, and each command of it, declares options, switches and operands. Arguments are read from
left to right: `--name=value` and `--name value` set an option, `--name` a switch; what begins with
no dash is an operand, or where operands may not yet stand the name of a command. After `--` all is
operands. A tool may let further words trail after its operands: from the first of them on all
arguments belong to them, also those that look like options.

Options and switches are set once, unless they are declared to repeat.
-/

namespace CommandGrammar

namespace Tool

/-- An option of a tool. -/
structure Setting where
  name : Text
  takesValue : Bool
  repeats : Bool := false
  /-- Which values it takes. -/
  accepts : Text → Bool := fun _ => true

/-- What a tool or one of its commands takes. -/
structure Usage where
  settings : List Setting
  /-- The operands, each with the values it takes. -/
  operands : List (Text → Bool) := []
  /-- Whether further words may follow the operands. -/
  trails : Bool := false
  commands : List Text := []
  hasVersion : Bool := false

/-- Why reading ends before a request is known. -/
inductive Stop
  | help
  | version
  /-- The arguments are not such as the tool takes. -/
  | misuse
deriving DecidableEq, Repr

/-- The arguments read so far. -/
structure Arguments where
  /-- The values of options, in their order. -/
  values : List (Text × Text) := []
  switches : List Text := []
  operands : List Text := []
  trailing : List Text := []
deriving DecidableEq, Repr

namespace Arguments

def all (a : Arguments) (name : String) : List Text :=
  (a.values.filter fun v => v.1 == name.toList).map Prod.snd

def value? (a : Arguments) (name : String) : Option Text := (a.all name).head?

def has (a : Arguments) (name : String) : Bool := a.switches.contains name.toList

def set (a : Arguments) (s : Setting) (value : Text) : Except Stop Arguments :=
  if !s.repeats && a.values.any (fun v => v.1 == s.name) then .error .misuse
  else if s.accepts value then .ok { a with values := a.values ++ [(s.name, value)] }
  else .error .misuse

def switch (a : Arguments) (s : Setting) : Except Stop Arguments :=
  if a.switches.contains s.name then .error .misuse
  else .ok { a with switches := a.switches ++ [s.name] }

def operand (u : Usage) (a : Arguments) (word : Text) : Except Stop Arguments :=
  match u.operands[a.operands.length]? with
  | some accepts =>
    if accepts word then .ok { a with operands := a.operands ++ [word] } else .error .misuse
  | none =>
    if u.trails then .ok { a with trailing := a.trailing ++ [word] } else .error .misuse

end Arguments

namespace Usage

/-! ### Single arguments -/

/-- Whether the next operand is one of the trailing words. -/
def isTrailing (u : Usage) (a : Arguments) : Bool :=
  u.trails && u.operands.length ≤ a.operands.length

inductive Kind
  /-- An option without a value. -/
  | option (s : Setting)
  /-- An option with its value. -/
  | assigned (s : Setting) (value : Text)
  /-- A request for help or the version. -/
  | question (stop : Stop)
  /-- An option that is not declared. -/
  | unknown
  /-- Anything that is no option. -/
  | plain

def question? (u : Usage) (name : Text) : Option Stop :=
  if name = "help".toList then some .help
  else if u.hasVersion && name == "version".toList then some .version
  else none

def letterQuestion? (u : Usage) (c : Char) : Option Stop :=
  if c = 'h' then some .help else if u.hasVersion && c == 'V' then some .version else none

/-- What an argument after two dashes is. -/
def longKind (u : Usage) (rest : Text) : Kind :=
  let name := rest.takeWhile (· != '=')
  let value := (rest.dropWhile (· != '=')).head?.map fun _ => (rest.dropWhile (· != '=')).drop 1
  match u.settings.find? (fun s => s.name == name), u.question? name, value with
  | some s, _, some v => .assigned s v
  | some s, _, none => .option s
  | none, some stop, none => .question stop
  | none, some _, some _ => .assigned ⟨name, false, false, fun _ => false⟩ []
  | none, none, _ => .unknown

def shortKind (u : Usage) (a : Arguments) (letters : Text) : Kind :=
  if u.isTrailing a && letters.any (fun c => (u.letterQuestion? c).isNone) then .unknown
  else
    match letters.head?.bind u.letterQuestion? with
    | some stop => .question stop
    | none => .unknown

def kind (u : Usage) (a : Arguments) : Text → Kind
  | '-' :: '-' :: rest => u.longKind rest
  | '-' :: c :: rest => u.shortKind a (c :: rest)
  | _ => .plain

/-! ### All arguments -/

def readOperands (u : Usage) (a : Arguments) (words : List Text) : Except Stop Arguments :=
  words.foldlM (Arguments.operand u) a

/-- Takes an argument as the value of a pending option, or as an operand; the flag tells whether
all that follow are trailing words. -/
def take (u : Usage) (a : Arguments) (pending : Option Setting) (word : Text) :
    Except Stop (Arguments × Bool) :=
  match pending with
  | some s => (a.set s word).map fun a => (a, false)
  | none => (a.operand u word).map fun next => (next, u.isTrailing a)

/-- Reads arguments after an option that still needs its value, if there is one: those of the
usage itself, and from the name of a command on those of the command. -/
def read (u : Usage) (a : Arguments) (pending : Option Setting) :
    List Text → Except Stop (Arguments × List Text)
  | [] => if pending.isSome then .error .misuse else .ok (a, [])
  | word :: words =>
    if pending.isNone && u.commands.contains word then .ok (a, word :: words)
    else if word = ['-', '-'] then
      if pending.isSome then .error .misuse else (u.readOperands a words).map fun a => (a, [])
    else
      let kind := u.kind a word
      match kind, pending with
      | .option s, none =>
        if s.takesValue then read u a (some s) words
        else
          match a.switch s with
          | .ok a => read u a none words
          | .error stop => .error stop
      | .assigned s v, none =>
        if s.takesValue then
          match a.set s v with
          | .ok a => read u a none words
          | .error stop => .error stop
        else .error .misuse
      | .question stop, none => .error stop
      | .option _, some _ | .assigned _ _, some _ | .question _, some _ => .error .misuse
      | kind, pending =>
        if (kind matches .unknown) && !u.isTrailing a then .error .misuse
        else
          match u.take a pending word with
          | .ok (a, true) => (u.readOperands a words).map fun a => (a, [])
          | .ok (a, false) => read u a none words
          | .error stop => .error stop

end Usage

end Tool

end CommandGrammar
