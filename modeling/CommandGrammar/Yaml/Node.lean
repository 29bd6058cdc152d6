import CommandGrammar.Yaml.Scalar
import CommandGrammar.Yaml.Token

/-!
# YAML documents as trees

`Node.ofTokens?` reads the one document of a token sequence: scalars, lists and mappings in block
or flow form, with anchors and references to them resolved. A stream without a document is told
apart from one whose document is empty; two documents in one stream are refused.

The readers below call each other for parts of collections. Each call but the one that opens a
collection takes a token away, so three calls per token and a few more always suffice.
-/

namespace CommandGrammar

namespace Yaml

/-- A node of a document. -/
inductive Node
  /-- A scalar with its tag and whether it was written without quotes. -/
  | scalar (tag : Option Text) (text : Text) (plain : Bool)
  | sequence (tag : Option Text) (items : List Node)
  | mapping (tag : Option Text) (entries : List (Node × Node))
deriving Repr, Inhabited

namespace Node

/-- The node that stands where nothing is written. -/
def absent : Node := .scalar none [] true

/-- What the readers have left and the anchors defined so far. -/
structure Reading where
  tokens : List Token
  anchors : List (Text × Node) := []

/-- A step of reading that may refuse. -/
abbrev Read := StateT Reading Option

def peek : Read (Option Token) := return (← get).tokens.head?

def next : Read Unit := modify fun s => { s with tokens := s.tokens.drop 1 }

/-- Reads an anchor and a tag in either order. -/
def properties : Nat → Option Text → Option Text → Read (Option Text × Option Text)
  | 0, anchor, tag => return (anchor, tag)
  | fuel + 1, anchor, tag => do
    match ← peek with
    | some (.anchor name) =>
      if anchor.isSome then return (anchor, tag)
      next
      properties fuel (some name) tag
    | some (.tag name) =>
      if tag.isSome then return (anchor, tag)
      next
      properties fuel anchor (some name)
    | _ => return (anchor, tag)

/-- Whether the next token is one of those given; the end of the stream counts as none. -/
def nextIn (ts : List Token) : Read Bool := do
  match ← peek with
  | some t => return ts.contains t
  | none => return false

mutual

/-- Reads a node; `block` allows block collections and `entries` a list whose dashes stand at the
column of the mapping around it. -/
def node : Nat → Bool → Bool → Read Node
  | 0, _, _ => failure
  | fuel + 1, block, entries => do
    match ← peek with
    | some (.anchorRef name) =>
      next
      match (← get).anchors.find? (fun a => a.1 == name) with
      | some (_, node) => return node
      | none => failure
    | _ =>
      let (anchor, tag) ← properties 2 none none
      let node ← content fuel block entries tag (anchor.isSome || tag.isSome)
      match anchor with
      | some name => modify fun s => { s with anchors := (name, node) :: s.anchors }
      | none => pure ()
      return node

/-- Reads what a node holds after its anchor and tag; with either, it may hold nothing. -/
def content : Nat → Bool → Bool → Option Text → Bool → Read Node
  | 0, _, _, _, _ => failure
  | fuel + 1, block, entries, tag, marked => do
    match ← peek with
    | some .blockEntry =>
      if entries then return .sequence tag (← plainEntries fuel [])
      else if marked then return .scalar tag [] true
      else failure
    | some (.scalar text plain) => next; return .scalar tag text plain
    | some .flowSequenceStart => next; return .sequence tag (← flowItems fuel true [])
    | some .flowMappingStart => next; return .mapping tag (← flowEntries fuel true [])
    | some .blockSequenceStart =>
      if block then
        next
        return .sequence tag (← blockItems fuel [])
      else if marked then return .scalar tag [] true
      else failure
    | some .blockMappingStart =>
      if block then
        next
        return .mapping tag (← blockEntries fuel [])
      else if marked then return .scalar tag [] true
      else failure
    | _ => if marked then return .scalar tag [] true else failure

def blockItems : Nat → List Node → Read (List Node)
  | 0, _ => failure
  | fuel + 1, done => do
    match ← peek with
    | some .blockEntry =>
      next
      let item ← if ← nextIn [.blockEntry, .blockEnd] then pure absent else node fuel true false
      blockItems fuel (item :: done)
    | some .blockEnd => next; return done.reverse
    | _ => failure

/-- Reads the items of a list whose dashes stand at the column of the mapping around it. -/
def plainEntries : Nat → List Node → Read (List Node)
  | 0, _ => failure
  | fuel + 1, done => do
    match ← peek with
    | some .blockEntry =>
      next
      let item ←
        if ← nextIn [.blockEntry, .key, .value, .blockEnd] then pure absent
        else node fuel true false
      plainEntries fuel (item :: done)
    | _ => return done.reverse

def blockEntries : Nat → List (Node × Node) → Read (List (Node × Node))
  | 0, _ => failure
  | fuel + 1, done => do
    match ← peek with
    | some .key =>
      next
      let key ←
        if ← nextIn [.key, .value, .blockEnd] then pure absent else node fuel true true
      let value ←
        if (← peek) == some .value then do
          next
          if ← nextIn [.key, .value, .blockEnd] then pure absent else node fuel true true
        else pure absent
      blockEntries fuel ((key, value) :: done)
    | some .blockEnd => next; return done.reverse
    | _ => failure

/-- Reads the items of a flow list up to its bracket; a pair among them is a mapping. -/
def flowItems : Nat → Bool → List Node → Read (List Node)
  | 0, _, _ => failure
  | fuel + 1, first, done => do
    if (← peek) == some .flowSequenceEnd then
      next
      return done.reverse
    if !first then
      if (← peek) == some .flowEntry then next else failure
    match ← peek with
    | some .flowSequenceEnd => next; return done.reverse
    | some .key =>
      next
      let key ←
        if ← nextIn [.value, .flowEntry, .flowSequenceEnd] then pure absent
        else node fuel false false
      let value ←
        if (← peek) == some .value then do
          next
          if ← nextIn [.flowEntry, .flowSequenceEnd] then pure absent else node fuel false false
        else pure absent
      flowItems fuel false (.mapping none [(key, value)] :: done)
    | _ => flowItems fuel false ((← node fuel false false) :: done)

def flowEntries : Nat → Bool → List (Node × Node) → Read (List (Node × Node))
  | 0, _, _ => failure
  | fuel + 1, first, done => do
    if (← peek) == some .flowMappingEnd then
      next
      return done.reverse
    if !first then
      if (← peek) == some .flowEntry then next else failure
    match ← peek with
    | some .flowMappingEnd => next; return done.reverse
    | some .key =>
      next
      let key ←
        if ← nextIn [.value, .flowEntry, .flowMappingEnd] then pure absent
        else node fuel false false
      let value ←
        if (← peek) == some .value then do
          next
          if ← nextIn [.flowEntry, .flowMappingEnd] then pure absent else node fuel false false
        else pure absent
      flowEntries fuel false ((key, value) :: done)
    | _ => flowEntries fuel false ((← node fuel false false, absent) :: done)

end

def dropEnds (tokens : List Token) : List Token := tokens.dropWhile (· == .documentEnd)

/-- Reads the document of a stream and makes sure that it is the only one. -/
def document (fuel : Nat) : Read (Option Node) := do
  if (← peek).isNone then return none
  if (← peek) == some .version || (← peek) == some .documentStart then
    if (← peek) == some .version then next
    if (← peek) == some .documentStart then next else failure
    let empty := (← peek).isNone || (← nextIn [.version, .documentStart, .documentEnd])
    let node ← if empty then pure absent else node fuel true false
    finish node
  else finish (← node fuel true false)
where
  /-- Accepts nothing but document ends after a document. -/
  finish (node : Node) : Read (Option Node) := do
    if (dropEnds (← get).tokens).isEmpty then return some node else failure

/-- The document of a token sequence; the inner option is empty if there is none. -/
def ofTokens? (tokens : List Token) : Option (Option Node) :=
  ((document (3 * tokens.length + 3)).run { tokens := tokens }).map Prod.fst

/-- The document of a text; the inner option is empty if there is none. -/
def parse? (text : Text) : Option (Option Node) := (tokens? text).bind ofTokens?

/-! ### As a tree -/

def coreTag (name : String) : Text := "tag:yaml.org,2002:".toList ++ name.toList

/-- The kind of value a scalar describes; a tag may ask for a kind that the text does not spell. -/
def scalarKind (tag : Option Text) (text : Text) (plain : Bool) : Kind :=
  let spelled := kindOf text
  match tag with
  | none => if plain then spelled else .text
  | some tag =>
    if tag = coreTag "null" then if isNull text then .null else .foreign
    else if tag = coreTag "bool" then
      match bool? text with
      | some b => .bool b
      | none => .foreign
    else if tag = coreTag "int" then
      match integer? text with
      | some k => k
      | none => .foreign
    else if tag = coreTag "float" then if spelled = .otherNumber then spelled else .foreign
    else if tag.head? = some '!' then .foreign
    else .text

mutual

/-- A node as an untyped document; tags of collections have no part in it. -/
def toTree : Node → Tree
  | scalar tag text plain => .leaf (scalarKind tag text plain) (some text)
  | sequence _ items => .list (toTrees items)
  | mapping _ entries => .fields (toFields entries)

def toTrees : List Node → List Tree
  | [] => []
  | n :: ns => toTree n :: toTrees ns

/-- The entries of a mapping as fields; only a scalar names a field. -/
def toFields : List (Node × Node) → List (Option Text × Tree)
  | [] => []
  | (key, value) :: rest =>
    (match key with
      | .scalar _ text _ => some text
      | _ => none, toTree value) :: toFields rest

end

/-- The document of a text, an empty stream counting as an empty document. -/
def parseTree? (text : Text) : Option Tree :=
  (parse? text).map fun node => (node.getD absent).toTree

end Node

end Yaml

end CommandGrammar
