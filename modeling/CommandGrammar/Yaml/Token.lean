import CommandGrammar.Text.Decimal

/-!
# Tokens of a YAML stream

A YAML text is cut into scalars, indicators and the opening and closing of block collections,
which are marked by indentation alone. A scalar, an alias or a flow collection may turn out to be
the key of a mapping once a colon follows it on the same line; the place where its key token would
go is kept as a *candidate* for every level of flow brackets, and the colon puts the token there.

Columns are kept one higher than on the page inside `level` and `levels`, so that zero stands for
the place outside all block collections.
-/

namespace CommandGrammar

namespace Yaml

/-- A piece of a YAML stream. -/
inductive Token
  | version
  | documentStart
  | documentEnd
  | blockSequenceStart
  | blockMappingStart
  | blockEnd
  | flowSequenceStart
  | flowSequenceEnd
  | flowMappingStart
  | flowMappingEnd
  | blockEntry
  | flowEntry
  | key
  | value
  | anchorRef (name : Text)
  | anchor (name : Text)
  /-- A tag with its handle resolved. -/
  | tag (name : Text)
  | scalar (text : Text) (plain : Bool)
deriving DecidableEq, Repr, Inhabited

/-- A place where the next token may turn out to be a mapping key. -/
structure Candidate where
  /-- Whether a key must follow, as nothing else may stand at this column. -/
  required : Bool
  /-- The number of tokens before the candidate. -/
  token : Nat
  index : Nat
  line : Nat
  column : Nat

/-- What has been read of a stream and what is still to be read. -/
structure Scanner where
  rest : Text
  index : Nat := 0
  line : Nat := 0
  column : Nat := 0
  /-- The number of open flow brackets. -/
  flow : Nat := 0
  /-- The column of the innermost block collection plus one. -/
  level : Nat := 0
  /-- The same for the collections around it. -/
  levels : List Nat := []
  /-- The candidate of every flow level, innermost first. -/
  candidates : List (Option Candidate) := [none]
  keyAllowed : Bool := true
  tokens : Array Token := #[]

/-- A step of scanning that may refuse the text. -/
abbrev Scan := StateT Scanner Option

/-! ### Characters -/

/-- Whether a character breaks a line. -/
def isBreak (c : Char) : Bool :=
  c == '\n' || c == '\r' || c.toNat == 0x85 || c.toNat == 0x2028 || c.toNat == 0x2029

def isSpaceOrTab (c : Char) : Bool := c == ' ' || c == '\t'

/-- Whether a place holds a space, a tab, a line break or nothing. -/
def endsWord (c : Option Char) : Bool :=
  match c with
  | some c => isSpaceOrTab c || isBreak c
  | none => true

/-- Whether a place holds a line break or nothing. -/
def endsLine (c : Option Char) : Bool :=
  match c with
  | some c => isBreak c
  | none => true

/-- Whether a character may stand in a stream at all. -/
def isAllowed (c : Char) : Bool :=
  let n := c.toNat
  n == 9 || n == 0x0A || n == 0x0D || (0x20 ≤ n && n ≤ 0x7E) || n == 0x85
    || (0xA0 ≤ n && n ≤ 0xFFFD && n != 0xFEFF) || 0x10000 ≤ n

def isNameChar (c : Char) : Bool := c.isAlphanum || c == '_' || c == '-'

/-- The character `n` places ahead. -/
def at? (n : Nat) : Scan (Option Char) := return (← get).rest[n]?

/-- Steps over one character that does not break the line. -/
def skip : Scan Unit := modify fun s =>
  { s with rest := s.rest.drop 1, index := s.index + 1, column := s.column + 1 }

/-- Steps over one character of a line and gives it. -/
def take : Scan Text := do
  let c := (← get).rest.head?
  skip
  return c.toList

/-- Steps over a line break and gives it: a line feed for all breaks but the two separators. -/
def takeBreak : Scan Text := do
  let s ← get
  let moved (n : Nat) : Scanner :=
    { s with rest := s.rest.drop n, index := s.index + n, column := 0, line := s.line + 1 }
  match s.rest with
  | '\r' :: '\n' :: _ => set (moved 2); return ['\n']
  | c :: _ =>
    if c.toNat == 0x2028 || c.toNat == 0x2029 then set (moved 1); return [c]
    else if isBreak c then set (moved 1); return ['\n']
    else return []
  | [] => return []

/-- Steps over the characters of the line as long as they satisfy `p`, and gives them. -/
def takeWhile (p : Char → Bool) : Scan Text := do
  let run := (← get).rest.takeWhile p
  modify fun s =>
    { s with
      rest := s.rest.drop run.length, index := s.index + run.length,
      column := s.column + run.length }
  return run

/-- Whether the line begins with a document marker made of three copies of `c`. -/
def atMarker (c : Char) : Scan Bool := do
  let s ← get
  return s.column == 0 && Text.startsWith [c, c, c] s.rest && endsWord s.rest[3]?

/-- Whether the line begins with a document marker of either kind. -/
def atAnyMarker : Scan Bool := return (← atMarker '-') || (← atMarker '.')

/-! ### Tokens, levels and candidates -/

def emit (t : Token) : Scan Unit := modify fun s => { s with tokens := s.tokens.push t }

def emitAt (n : Nat) (t : Token) : Scan Unit := modify fun s =>
  { s with tokens := (s.tokens.toList.take n ++ t :: s.tokens.toList.drop n).toArray }

/-- Opens a block collection at a column if none is open there; `n` is the number of its token. -/
def openLevel (column : Nat) (n : Option Nat) (t : Token) : Scan Unit := do
  let s ← get
  if s.flow == 0 && s.level < column + 1 then
    set { s with levels := s.level :: s.levels, level := column + 1 }
    match n with
    | some n => emitAt n t
    | none => emit t

/-- Closes the levels deeper than `target`, one block end for each. -/
def closeLevels (target : Nat) : Scan Unit := do
  let s ← get
  if s.flow == 0 then
    let (open_, kept) := go target s.level s.levels
    set { s with
      level := kept.headD 0, levels := kept.drop 1,
      tokens := s.tokens ++ (List.replicate open_ Token.blockEnd).toArray }
where
  /-- The number of levels to close and the levels that stay, innermost first. -/
  go (target : Nat) (level : Nat) : List Nat → Nat × List Nat
    | [] => (0, [level])
    | outer :: levels =>
      if target < level then
        let (closed, kept) := go target outer levels
        (closed + 1, kept)
      else (0, level :: outer :: levels)

/-- Drops candidates that the present line has left behind; a required one is missed. -/
def dropStale : Scan Unit := do
  let s ← get
  let stale (c : Candidate) : Bool := c.line < s.line || c.index + 1024 < s.index
  if s.candidates.any (fun c => match c with
      | some c => stale c && c.required
      | none => false) then failure
  set { s with
    candidates := s.candidates.map (fun (c : Option Candidate) => c.filter (fun c => !stale c)) }

/-- Gives up the candidate of the present flow level; a required one is missed. -/
def dropCandidate : Scan Unit := do
  let s ← get
  match s.candidates with
  | some c :: outer =>
    if c.required then failure
    set { s with candidates := none :: outer }
  | _ => pure ()

/-- Makes the next token a candidate where keys are allowed. -/
def saveCandidate : Scan Unit := do
  let s ← get
  if s.keyAllowed then
    dropCandidate
    let c : Candidate :=
      ⟨s.flow == 0 && s.level == s.column + 1, s.tokens.size, s.index, s.line, s.column⟩
    modify fun s => { s with candidates := some c :: s.candidates.drop 1 }

/-- Allows or forbids a key at the next place. -/
def allowKey (allowed : Bool) : Scan Unit := modify fun s => { s with keyAllowed := allowed }

/-! ### Scalars -/

/-- What a scalar has gathered: its text, the blanks after it on the line and the line breaks
after it. -/
structure Gathered where
  text : Text := []
  blanks : Text := []
  /-- The first line break of a run. -/
  first : Text := []
  /-- The further line breaks of a run. -/
  more : Text := []
  /-- Whether a line break stands between the text and the present place. -/
  broken : Bool := false

/-- The text with what stands between it and the next word: blanks as they are; a single line
break becomes a space, and of several the first is dropped. -/
def Gathered.joined (g : Gathered) : Gathered :=
  if g.broken then
    let between :=
      if g.first.head? == some '\n' then (if g.more.isEmpty then [' '] else g.more)
      else g.first ++ g.more
    { text := g.text ++ between }
  else { text := g.text ++ g.blanks }

/-- Reads blanks and line breaks; with a level given, a tab before that column on a line of its
own is refused. -/
def gatherBlanks (level : Option Nat) : Nat → Gathered → Scan Gathered
  | 0, _ => failure
  | fuel + 1, g => do
    match ← at? 0 with
    | none => return g
    | some c =>
      if isSpaceOrTab c then
        let s ← get
        if g.broken && c == '\t' && level.any (fun l => s.column < l) then failure
        skip
        gatherBlanks level fuel (if g.broken then g else { g with blanks := g.blanks ++ [c] })
      else if isBreak c then
        let b ← takeBreak
        gatherBlanks level fuel
          (if g.broken then { g with more := g.more ++ b }
            else { g with blanks := [], first := b, broken := true })
      else return g

/-- Reads the characters of a plain scalar up to a blank or an indicator that ends it. -/
def plainWord : Nat → Text → Scan Text
  | 0, _ => failure
  | fuel + 1, done => do
    let s ← get
    match s.rest with
    | [] => return done.reverse
    | c :: after =>
      if endsWord (some c) then return done.reverse
      let next := after.head?
      let bracket (c : Char) : Bool := ",[]\x7b\x7d".toList.contains c
      if s.flow > 0 && c == ':' && (match next with
          | some n => bracket n || n == '?'
          | none => false) then failure
      if c == ':' && endsWord next then return done.reverse
      if s.flow > 0 && bracket c then return done.reverse
      skip
      plainWord fuel (c :: done)

/-- Reads the rest of a plain scalar after the words gathered so far. -/
def plainScalar : Nat → Gathered → Scan Gathered
  | 0, _ => failure
  | fuel + 1, g => do
    if ← atAnyMarker then return g
    if (← at? 0) == some '#' then return g
    let word ← plainWord fuel []
    let g := if word.isEmpty then g else { g.joined with text := g.joined.text ++ word }
    match ← at? 0 with
    | some c =>
      if !(isSpaceOrTab c || isBreak c) then return g
      let s ← get
      let g ← gatherBlanks (some s.level) fuel g
      let s ← get
      if s.flow == 0 && s.column < s.level then return g
      plainScalar fuel g
    | none => return g

/-- The character of a one-letter escape in a double-quoted scalar. -/
def escapeChar? (c : Char) : Option Char :=
  if c == '0' then some '\x00'
  else if c == 'a' then some '\x07'
  else if c == 'b' then some '\x08'
  else if c == 't' || c == '\t' then some '\t'
  else if c == 'n' then some '\n'
  else if c == 'v' then some '\x0b'
  else if c == 'f' then some '\x0c'
  else if c == 'r' then some '\r'
  else if c == 'e' then some '\x1b'
  else if c == ' ' || c == '"' || c == '/' || c == '\\' then some c
  else if c == 'N' then some (Char.ofNat 0x85)
  else if c == '_' then some (Char.ofNat 0xA0)
  else if c == 'L' then some (Char.ofNat 0x2028)
  else if c == 'P' then some (Char.ofNat 0x2029)
  else none

def hexEscape (digits : Nat) : Scan Char := do
  let body := (← get).rest.take digits
  if body.length < digits then failure
  match Decimal.inBase? 16 body with
  | none => failure
  | some n =>
    if (0xD800 ≤ n && n ≤ 0xDFFF) || n > 0x10FFFF then failure
    let _ ← takeWhile (fun _ => false)
    modify fun s =>
      { s with rest := s.rest.drop digits, index := s.index + digits, column := s.column + digits }
    return Char.ofNat n

/-- Reads the characters of a quoted scalar up to a blank or its closing quote; the flag says
whether an escaped line break stood at the end. -/
def quotedWord (single : Bool) : Nat → Text → Scan (Text × Bool)
  | 0, _ => failure
  | fuel + 1, done => do
    match (← get).rest with
    | [] => return (done.reverse, false)
    | c :: after =>
      if endsWord (some c) then return (done.reverse, false)
      if single && c == '\'' then
        if after.head? == some '\'' then
          skip
          skip
          quotedWord single fuel ('\'' :: done)
        else return (done.reverse, false)
      else if !single && c == '"' then return (done.reverse, false)
      else if !single && c == '\\' then
        match after with
        | [] => failure
        | e :: _ =>
          skip
          if isBreak e then
            let _ ← takeBreak
            return (done.reverse, true)
          skip
          if e == 'x' then quotedWord single fuel ((← hexEscape 2) :: done)
          else if e == 'u' then quotedWord single fuel ((← hexEscape 4) :: done)
          else if e == 'U' then quotedWord single fuel ((← hexEscape 8) :: done)
          else
            match escapeChar? e with
            | some e => quotedWord single fuel (e :: done)
            | none => failure
      else
        skip
        quotedWord single fuel (c :: done)

/-- Reads the rest of a quoted scalar after its opening quote. -/
def quotedScalar (single : Bool) : Nat → Text → Scan Text
  | 0, _ => failure
  | fuel + 1, text => do
    if ← atAnyMarker then failure
    if (← at? 0).isNone then failure
    let (word, escaped) ← quotedWord single fuel []
    let text := text ++ word
    if (← at? 0) == some (if single then '\'' else '"') then
      skip
      return text
    let g ← gatherBlanks none fuel { text := text, broken := escaped }
    quotedScalar single fuel g.joined.text

/-- Reads the line breaks before a line of a block scalar and its indentation; an unknown
indentation is the deepest of the lines passed, but deeper than the collection around it. -/
def blockBreaks : Nat → Nat → Nat → Text → Scan (Nat × Text)
  | 0, _, _, _ => failure
  | fuel + 1, indent, deepest, breaks => do
    let s ← get
    let room := if indent == 0 then s.rest.length else indent - s.column
    let spaces := ((s.rest.take room).takeWhile (· == ' ')).length
    set { s with
      rest := s.rest.drop spaces, index := s.index + spaces, column := s.column + spaces }
    let s ← get
    let deepest := max deepest s.column
    if (indent == 0 || s.column < indent) && s.rest.head? == some '\t' then failure
    match s.rest with
    | c :: _ =>
      if isBreak c then
        let b ← takeBreak
        blockBreaks fuel indent deepest (breaks ++ b)
      else return (if indent == 0 then max (max deepest s.level) 1 else indent, breaks)
    | [] => return (if indent == 0 then max (max deepest s.level) 1 else indent, breaks)

/-- How the line breaks at the end of a block scalar are treated. -/
inductive Chomping
  | strip
  | clip
  | keep
deriving DecidableEq

/-- Reads the lines of a block scalar; `first` is the break after the last line read, `more` the
breaks after it, and `indented` says whether that line began with a blank. -/
def blockLines (folded : Bool) (chomping : Chomping) (indent : Nat) :
    Nat → Text → Text → Text → Bool → Scan Text
  | 0, _, _, _, _ => failure
  | fuel + 1, text, first, more, indented => do
    let s ← get
    if s.column == indent && !s.rest.isEmpty then
      let blank := match s.rest.head? with
        | some c => isSpaceOrTab c
        | none => false
      let between :=
        if folded && first.head? == some '\n' && !indented && !blank then
          (if more.isEmpty then [' '] else more)
        else first ++ more
      let line ← takeWhile (fun c => !isBreak c)
      let first ← takeBreak
      let (_, more) ← blockBreaks (s.rest.length + 1) indent 0 []
      blockLines folded chomping indent fuel (text ++ between ++ line) first more blank
    else
      return match chomping with
        | .strip => text
        | .clip => text ++ first
        | .keep => text ++ first ++ more

/-- Reads a block scalar from its indicator on. -/
def blockScalar (folded : Bool) : Scan Text := do
  skip
  let chomp : Scan (Option Chomping) := do
    if (← at? 0) == some '+' then skip; return some .keep
    else if (← at? 0) == some '-' then skip; return some .strip
    else return none
  let digit : Scan (Option Nat) := do
    match (← at? 0).bind Decimal.digit? with
    | some 0 => failure
    | some d => skip; return some d
    | none => return none
  let early ← chomp
  let increment ← digit
  let late ← if early.isNone && increment.isSome then chomp else pure none
  let chomping := (early.or late).getD .clip
  let _ ← takeWhile isSpaceOrTab
  if (← at? 0) == some '#' then
    let _ ← takeWhile (fun c => !isBreak c)
  if !endsLine (← at? 0) then failure
  let _ ← takeBreak
  let s ← get
  let indent := match increment with
    | some n => (if s.level > 0 then s.level - 1 else 0) + n
    | none => 0
  let fuel := s.rest.length + 2
  let (indent, more) ← blockBreaks fuel indent 0 []
  blockLines folded chomping indent fuel [] [] more false

/-! ### Names -/

/-- Reads the name of an anchor or an alias after its indicator. -/
def anchorName : Scan Text := do
  skip
  let name ← takeWhile isNameChar
  let next ← at? 0
  let ended := match next with
    | some c => endsWord next || "?:,]\x7d%@`".toList.contains c
    | none => true
  if name.isEmpty || !ended then failure
  return name

def isTagChar (flow : Bool) (c : Char) : Bool :=
  isNameChar c || ";/?:@&=+$.!~*'()%".toList.contains c
    || (!flow && (c == ',' || c == '[' || c == ']'))

/-- The characters that percent escapes in a tag stand for are kept as written. -/
def tagName : Scan Text := do
  skip
  let flow := (← get).flow > 0
  let name ←
    if (← at? 0) == some '<' then do
      skip
      let name ← takeWhile (isTagChar false)
      if (← at? 0) != some '>' || name.isEmpty then failure
      skip
      pure name
    else if (← at? 0) == some '!' then do
      skip
      let suffix ← takeWhile (isTagChar flow)
      if suffix.isEmpty then failure
      pure ("tag:yaml.org,2002:".toList ++ suffix)
    else do
      let suffix ← takeWhile (isTagChar flow)
      if suffix.contains '!' then failure
      pure ('!' :: suffix)
  if !(endsWord (← at? 0) || (flow && (← at? 0) == some ',')) then failure
  return name

/-- Reads a directive; only a version `1.1` or `1.2` is known. -/
def directive : Scan Unit := do
  skip
  let name ← takeWhile isNameChar
  if name != "YAML".toList then failure
  let _ ← takeWhile isSpaceOrTab
  let major ← takeWhile (fun c => (Decimal.digit? c).isSome)
  if (← at? 0) != some '.' then failure
  skip
  let minor ← takeWhile (fun c => (Decimal.digit? c).isSome)
  if Decimal.digits? major != some 1 then failure
  if Decimal.digits? minor != some 1 && Decimal.digits? minor != some 2 then failure
  let _ ← takeWhile isSpaceOrTab
  if (← at? 0) == some '#' then
    let _ ← takeWhile (fun c => !isBreak c)
  if !endsLine (← at? 0) then failure
  let _ ← takeBreak
  emit .version

/-! ### The next token -/

/-- Steps over blanks, comments and line breaks; a new line allows a key in block context. -/
def skipToToken : Nat → Scan Unit
  | 0 => failure
  | fuel + 1 => do
    let s ← get
    let tabs := s.flow > 0 || !s.keyAllowed
    let _ ← takeWhile (fun c => c == ' ' || (tabs && c == '\t'))
    if (← at? 0) == some '#' then
      let _ ← takeWhile (fun c => !isBreak c)
    match ← at? 0 with
    | some c =>
      if isBreak c then
        let _ ← takeBreak
        if s.flow == 0 then allowKey true
        skipToToken fuel
    | none => pure ()

def blockEntry : Scan Unit := do
  let s ← get
  if s.flow == 0 then
    if !s.keyAllowed then failure
    openLevel s.column none .blockSequenceStart
  dropCandidate
  allowKey true
  skip
  emit .blockEntry

def complexKey : Scan Unit := do
  let s ← get
  if s.flow == 0 then
    if !s.keyAllowed then failure
    openLevel s.column none .blockMappingStart
  dropCandidate
  allowKey (s.flow == 0)
  skip
  emit .key

/-- Reads the colon before a value; a candidate for a key becomes one. -/
def valueColon : Scan Unit := do
  let s ← get
  match s.candidates with
  | some c :: outer =>
    emitAt c.token .key
    openLevel c.column (some c.token) .blockMappingStart
    modify fun s => { s with candidates := none :: outer }
    allowKey false
  | _ =>
    if s.flow == 0 then
      if !s.keyAllowed then failure
      openLevel s.column none .blockMappingStart
    allowKey (s.flow == 0)
  skip
  emit .value

/-- Reads a bracket that opens a flow collection. -/
def flowStart (t : Token) : Scan Unit := do
  saveCandidate
  modify fun s => { s with flow := s.flow + 1, candidates := none :: s.candidates }
  allowKey true
  skip
  emit t

/-- Reads a bracket that closes a flow collection. -/
def flowEnd (t : Token) : Scan Unit := do
  dropCandidate
  modify fun s =>
    if s.flow > 0 then { s with flow := s.flow - 1, candidates := s.candidates.drop 1 } else s
  allowKey false
  skip
  emit t

/-- Reads a plain scalar; a line break at its end allows a key. -/
def plain : Scan Unit := do
  saveCandidate
  allowKey false
  let g ← plainScalar ((← get).rest.length + 2) {}
  if g.broken then allowKey true
  emit (.scalar g.text true)

def beginsPlain (flow : Bool) (c : Char) (next : Option Char) : Bool :=
  !(endsWord (some c) || "-?:,[]\x7b\x7d#&*!|>'\"%@`".toList.contains c)
    || (c == '-' && !(next == some ' ' || next == some '\t'))
    || ((c == '?' || (c == ':' && !flow)) && !endsWord next)

def token (c : Char) : Scan Unit := do
  let next ← at? 1
  let s ← get
  let flow := s.flow > 0
  let fuel := s.rest.length + 2
  if s.column == 0 && c == '%' then
    closeLevels 0; dropCandidate; allowKey false; directive
  else if ← atMarker '-' then
    closeLevels 0; dropCandidate; allowKey false; skip; skip; skip; emit .documentStart
  else if ← atMarker '.' then
    closeLevels 0; dropCandidate; allowKey false; skip; skip; skip; emit .documentEnd
  else if c == '[' then flowStart .flowSequenceStart
  else if c == '\x7b' then flowStart .flowMappingStart
  else if c == ']' then flowEnd .flowSequenceEnd
  else if c == '\x7d' then flowEnd .flowMappingEnd
  else if c == ',' then dropCandidate; allowKey true; skip; emit .flowEntry
  else if c == '-' && endsWord next then blockEntry
  else if c == '?' && endsWord next then complexKey
  else if c == ':' && (flow || endsWord next) then valueColon
  else if c == '*' then saveCandidate; allowKey false; emit (.anchorRef (← anchorName))
  else if c == '&' then saveCandidate; allowKey false; emit (.anchor (← anchorName))
  else if c == '!' then saveCandidate; allowKey false; emit (.tag (← tagName))
  else if (c == '|' || c == '>') && !flow then
    dropCandidate; allowKey true; emit (.scalar (← blockScalar (c == '>')) false)
  else if c == '\'' || c == '"' then
    saveCandidate; allowKey false; skip
    emit (.scalar (← quotedScalar (c == '\'') fuel []) false)
  else if beginsPlain flow c next then plain
  else failure

def scanAll : Nat → Scan Unit
  | 0 => failure
  | fuel + 1 => do
    skipToToken ((← get).rest.length + 2)
    dropStale
    let s ← get
    match s.rest with
    | [] => closeLevels 0; dropCandidate
    | c :: _ =>
      closeLevels (s.column + 1)
      token c
      scanAll fuel

/-- The tokens of a stream, a byte order mark at its beginning aside. -/
def tokens? (text : Text) : Option (List Token) :=
  let body := match text with
    | c :: cs => if c.toNat == 0xFEFF then cs else c :: cs
    | [] => []
  if body.all isAllowed then
    match (scanAll (body.length + 2)).run { rest := body } with
    | some (_, s) => some s.tokens.toList
    | none => none
  else none

end Yaml

end CommandGrammar
