import TryResources.Yaml.Node
import TryResources.Yaml.Token.Layout

/-!
# Documents

The tree that the tokens of a document stand for. `Node.ofText?` reads a text that holds one
document at most; an empty text holds none.

The readers of nodes take tokens off the front of what is left, and bound the depth of their calls
by a number. Between two calls that consume a token there is at most one that consumes none, so
that twice the number of tokens is enough.
-/

namespace TryResources.Yaml

/-- What is left of a document, and what has been said in it so far. -/
structure Reading where
  lexemes : List Lexeme
  /-- What the handles of tags stand for. -/
  handles : List (String × TagText) := []
  /-- The names of anchors with their numbers, the last first. -/
  anchors : List (String × Nat) := []

/-- A step in reading a document. -/
abbrev Reader := StateT Reading (Except Fault)

namespace Reader

/-- The next token. -/
def peek? : Reader (Option Token) := do
  return (← get).lexemes.head?.map Lexeme.token

/-- Passes over the next token. -/
def skip : Reader Unit :=
  modify fun r => { r with lexemes := r.lexemes.drop 1 }

/-- Refuses the document at the next token. -/
def refuse {α : Type} (problem : Problem) : Reader α := do
  throw ⟨problem, (← get).lexemes.head?.bind Lexeme.mark⟩

/-- Passes over the next token if it is the given one, and tells whether it was. -/
def accept (token : Token) : Reader Bool := do
  if (← peek?) = some token then
    skip
    return true
  else return false

/-! ## Properties of nodes -/

/-- Numbers the anchor of a node. -/
def anchor (name : String) : Reader Nat := do
  let r ← get
  let number := r.anchors.length
  set { r with anchors := (name, number) :: r.anchors.filter (·.1 != name) }
  return number

/-- What a tag stands for. -/
def resolve (handle : String) (suffix : TagText) : Reader TagText := do
  if handle.isEmpty then return suffix
  match (← get).handles.lookup handle with
  | some start => return start ++ suffix
  | none => refuse .unknownTagHandle

/-- Reads anchor and tag of a node, in either order. -/
def properties : Reader (Option Nat × Option TagText) := do
  match ← peek? with
  | some (.anchor name) =>
    skip
    match ← peek? with
    | some (.tag handle suffix) =>
      skip
      let tag ← resolve handle suffix
      return (← anchor name, tag)
    | _ => return (← anchor name, none)
  | some (.tag handle suffix) =>
    skip
    match ← peek? with
    | some (.anchor name) =>
      skip
      let tag ← resolve handle suffix
      return (← anchor name, tag)
    | _ => return (none, ← resolve handle suffix)
  | _ => return (none, none)

/-- The next token is one of those behind which nothing is written. -/
def atEmpty (tokens : List Token) : Reader Bool := do
  match ← peek? with
  | some token => return tokens.contains token
  | none => return false

/-- A node of which nothing but anchor or tag is written. -/
def bare (anchor : Option Nat) (tag : Option TagText) : Reader Node :=
  if anchor.isSome || tag.isSome then return .scalar anchor tag .plain ""
  else refuse .nodeExpected

/-! ## Nodes -/

mutual

/-- Reads a node. Block collections may start where `block` says so; a sequence that is not
indented where `indentless` says so. -/
def node (block indentless : Bool) : Nat → Reader Node
  | 0 => refuse .nodeExpected
  | fuel + 1 => do
    if let some (.reference name) ← peek? then
      match (← get).anchors.lookup name with
      | some number =>
        skip
        return .reference number
      | none => refuse .unknownAnchor
    let (anchor, tag) ← properties
    match ← peek? with
    | some (.scalar style text) =>
      skip
      return .scalar anchor tag style text
    | some .flowSequenceStart =>
      skip
      return .sequence anchor (← flowSequence true fuel)
    | some .flowMappingStart =>
      skip
      return .mapping anchor (← flowMapping true fuel)
    | some .blockEntry =>
      if indentless then return .sequence anchor (← indentlessSequence fuel)
      else bare anchor tag
    | some .blockSequenceStart =>
      if block then
        skip
        return .sequence anchor (← blockSequence fuel)
      else bare anchor tag
    | some .blockMappingStart =>
      if block then
        skip
        return .mapping anchor (← blockMapping fuel)
      else bare anchor tag
    | _ => bare anchor tag

/-- Reads a node unless one of the given tokens follows, in front of which nothing is written. -/
def nodeUnless (tokens : List Token) (block indentless : Bool) : Nat → Reader Node
  | 0 => refuse .nodeExpected
  | fuel + 1 => do
    if ← atEmpty tokens then return .empty else node block indentless fuel

/-- Reads the entries of a block sequence, up to its end. -/
def blockSequence : Nat → Reader (List Node)
  | 0 => refuse .nodeExpected
  | fuel + 1 => do
    if ← accept .blockEntry then
      let item ← nodeUnless [.blockEntry, .blockEnd] true false fuel
      return item :: (← blockSequence fuel)
    else if ← accept .blockEnd then return []
    else refuse .entryExpected

/-- Reads the entries of a block sequence that is not indented. -/
def indentlessSequence : Nat → Reader (List Node)
  | 0 => refuse .nodeExpected
  | fuel + 1 => do
    if ← accept .blockEntry then
      let item ← nodeUnless [.blockEntry, .key, .value, .blockEnd] true false fuel
      return item :: (← indentlessSequence fuel)
    else return []

/-- Reads the entries of a block mapping, up to its end. -/
def blockMapping : Nat → Reader (List (Node × Node))
  | 0 => refuse .nodeExpected
  | fuel + 1 => do
    if ← accept .key then
      let key ← nodeUnless [.key, .value, .blockEnd] true true fuel
      let value ← if ← accept .value then nodeUnless [.key, .value, .blockEnd] true true fuel
        else pure .empty
      return (key, value) :: (← blockMapping fuel)
    else if ← accept .blockEnd then return []
    else refuse .keyExpected

/-- Reads the entries of a flow sequence, up to its end. -/
def flowSequence (first : Bool) : Nat → Reader (List Node)
  | 0 => refuse .nodeExpected
  | fuel + 1 => do
    if ← accept .flowSequenceEnd then return []
    if !first then
      if !(← accept .flowEntry) then refuse .sequenceEndExpected
      if ← accept .flowSequenceEnd then return []
    let item ← if ← accept .key then do
        let (key, value) ← pair fuel
        pure (Node.mapping none [(key, value)])
      else node false false fuel
    return item :: (← flowSequence false fuel)

/-- Reads a single entry of a mapping inside a flow sequence. Where its key is not written, the
token behind is passed over. -/
def pair : Nat → Reader (Node × Node)
  | 0 => refuse .nodeExpected
  | fuel + 1 => do
    let key ← if ← atEmpty [.value, .flowEntry, .flowSequenceEnd] then
        skip
        pure .empty
      else node false false fuel
    let value ← if ← accept .value then
        nodeUnless [.flowEntry, .flowSequenceEnd] false false fuel
      else pure .empty
    return (key, value)

/-- Reads the entries of a flow mapping, up to its end. -/
def flowMapping (first : Bool) : Nat → Reader (List (Node × Node))
  | 0 => refuse .nodeExpected
  | fuel + 1 => do
    if ← accept .flowMappingEnd then return []
    if !first then
      if !(← accept .flowEntry) then refuse .mappingEndExpected
      if ← accept .flowMappingEnd then return []
    if ← accept .key then
      let key ← nodeUnless [.value, .flowEntry, .flowMappingEnd] false false fuel
      let value ← if ← accept .value then
          nodeUnless [.flowEntry, .flowMappingEnd] false false fuel
        else pure .empty
      return (key, value) :: (← flowMapping false fuel)
    else
      let key ← node false false fuel
      return (key, .empty) :: (← flowMapping false fuel)

end

/-! ## Directives -/

/-- Reads the directives in front of a document; `versioned` tells whether one of them has given
a version. -/
def directives (versioned : Bool) : Nat → Reader Unit
  | 0 => return
  | fuel + 1 => do
    match ← peek? with
    | some (.version major minor) =>
      if versioned then refuse .repeatedDirective
      if major != 1 || (minor != 1 && minor != 2) then refuse .unknownVersion
      skip
      directives true fuel
    | some (.tagDirective handle start) =>
      let r ← get
      if (r.handles.lookup handle).isSome then refuse .repeatedDirective
      set { r with handles := (handle, start) :: r.handles }
      skip
      directives versioned fuel
    | _ => return

/-- The handles that need no directive. -/
def defaultHandles : List (String × TagText) :=
  [("!", .ofString "!"), ("!!", .ofString "tag:yaml.org,2002:")]

/-- Passes over the start of a document. It need not be written where no directive is. -/
def start : Reader Unit := do
  let count := (← get).lexemes.length
  directives false count
  let directed := (← get).lexemes.length < count
  modify fun r => { r with handles := r.handles ++ defaultHandles }
  if !(← accept .documentStart) && directed then refuse .documentStartExpected

/-- The token stands in front of a document. -/
def opensDocument : Token → Bool
  | .version _ _ | .tagDirective _ _ | .documentStart => true
  | _ => false

/-- Reads a document. Behind a start that is written nothing else need be. -/
def document : Reader Node := do
  let explicit := (← peek?).any opensDocument
  start
  let absent := (← peek?).all fun token => opensDocument token || token == .documentEnd
  if explicit && absent then return .empty
  else node true false (2 * (← get).lexemes.length + 2)

end Reader

/-- The document that some tokens make up, if any: nothing but its end may follow. -/
def Node.ofLexemes? (lexemes : List Lexeme) : Except Fault (Option Node) :=
  if lexemes.isEmpty then return none
  else do
    let (root, left) ← Reader.document.run { lexemes }
    match left.lexemes.dropWhile (·.token == .documentEnd) with
    | [] => return some root
    | next :: _ =>
      match next.token with
      | .documentStart => .error ⟨.severalDocuments, next.mark⟩
      | _ => .error ⟨.documentStartExpected, next.mark⟩

/-- The document that a text holds, if any. -/
def Node.ofText? (text : String) : Except Fault (Option Node) := do
  let cells ← Cell.ofText? text
  let lexemes ← Lexeme.ofCells cells
  Node.ofLexemes? lexemes

end TryResources.Yaml
