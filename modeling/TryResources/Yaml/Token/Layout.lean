import TryResources.Yaml.Token.Scalar
import TryResources.Yaml.Token.Tag

/-!
# Layout

The tokens of a text. Most are read off as they stand, but in block collections indentation takes
the place of brackets, and a key is only recognised by the colon behind it: when the colon comes,
the token for the key is put in front of what may have been one (`Candidate`) all along.

* `Lexeme.ofCells`: the tokens of a text, in order.
-/

namespace TryResources.Yaml

/-- Something that is a key if a colon follows. It has to be one if it starts a line of a block
mapping. -/
structure Candidate where
  required : Bool
  /-- The number of tokens in front of it. -/
  index : Nat
  mark : Mark
  deriving Repr, DecidableEq

/-- What has been read of a text, and what is known about the layout at this place. -/
structure Layout where
  rest : List Cell
  /-- The place behind the last cell. -/
  stop : Mark := {}
  lexemes : Array Lexeme := #[]
  /-- The column of the innermost block collection, `-1` outside of all. -/
  indent : Int := -1
  /-- The columns of the block collections around it. -/
  outerIndents : List Int := []
  /-- The candidate in the innermost flow collection, or outside of all. -/
  candidate : Option Candidate := none
  /-- The candidates around the innermost flow collection. -/
  outerCandidates : List (Option Candidate) := []
  /-- A key may start here. -/
  keyAllowed : Bool := true

namespace Layout

/-- The place that has been reached. -/
def mark (l : Layout) : Mark :=
  (Cell.start? l.rest).getD l.stop

/-- The place is inside a flow collection. -/
def inFlow (l : Layout) : Bool :=
  !l.outerCandidates.isEmpty

/-- Refuses the text at this place. -/
def refuse {α : Type} (l : Layout) (problem : Problem) : Except Fault α :=
  .error ⟨problem, some l.mark⟩

/-- Adds a token for this place, behind which `rest` is left. -/
def emit (l : Layout) (token : Token) (rest : List Cell) : Layout :=
  { l with lexemes := l.lexemes.push ⟨token, some l.mark⟩, rest }

/-! ## Candidates for keys -/

/-- A candidate is out of date on the next line, or more than 1024 octets behind it. -/
def isStale (l : Layout) (c : Candidate) : Bool :=
  c.mark.line < l.mark.line || c.mark.octets + 1024 < l.mark.octets

/-- Drops a candidate that is out of date; one that has to be a key cannot be dropped. -/
def dropIfStale (l : Layout) : Option Candidate → Except Fault (Option Candidate)
  | none => .ok none
  | some c =>
    if !l.isStale c then .ok (some c)
    else if c.required then l.refuse .colonExpected
    else .ok none

/-- Drops all candidates that are out of date. -/
def dropStale (l : Layout) : Except Fault Layout := do
  let outerCandidates ← l.outerCandidates.mapM l.dropIfStale
  let candidate ← l.dropIfStale l.candidate
  return { l with candidate, outerCandidates }

/-- Drops the current candidate, which must not have to be a key. -/
def dropCandidate (l : Layout) : Except Fault Layout :=
  match l.candidate with
  | some c => if c.required then l.refuse .colonExpected else .ok { l with candidate := none }
  | none => .ok l

/-- Notes that a key may start at this place, if one is allowed here. -/
def noteCandidate (l : Layout) : Except Fault Layout :=
  if l.keyAllowed then do
    let required := !l.inFlow && l.indent == (l.mark.column : Int)
    let l ← l.dropCandidate
    return { l with candidate := some ⟨required, l.lexemes.size, l.mark⟩ }
  else .ok l

/-! ## Indentation -/

/-- Closes the block collections that are indented by more than `column`. -/
def closeBlocks (column : Int) (l : Layout) : Layout :=
  if l.inFlow then l else go l.indent l.outerIndents l
where
  /-- Closes the innermost of the given collections for as long as it is indented too much. -/
  go (indent : Int) : List Int → Layout → Layout
    | [], l => { l with indent, outerIndents := [] }
    | outer :: others, l =>
      if column < indent then go outer others (l.emit .blockEnd l.rest)
      else { l with indent, outerIndents := outer :: others }

/-- Opens a block collection at a column, unless one is open there; its token is put behind the
first `index` ones. -/
def openBlock (l : Layout) (token : Token) (index column : Nat) (mark : Mark) : Layout :=
  if !l.inFlow ∧ l.indent < column then
    { l with
      indent := column
      outerIndents := l.indent :: l.outerIndents
      lexemes := l.lexemes.insertIdxIfInBounds index ⟨token, some mark⟩ }
  else l

/-- Opens a block collection at this place. -/
def openBlockHere (l : Layout) (token : Token) : Layout :=
  l.openBlock token l.lexemes.size l.mark.column l.mark

/-! ## Tokens -/

/-- Skips spaces, comments and the ends of lines. A new line allows a key, except inside a flow
collection; tabs are skipped where they cannot indent one. So is a byte order mark at the start of
a line, but it takes its column. Returns whether a key is allowed. -/
def skip (flow : Bool) (comment keyAllowed : Bool) : List Cell → Bool × List Cell
  | [] => (keyAllowed, [])
  | c :: rest =>
    if isBreak c.char then skip flow false (keyAllowed || !flow) rest
    else if comment || c.char == ' ' || (c.char == '\t' && (flow || !keyAllowed)) ||
        c.isLineMark then
      skip flow comment keyAllowed rest
    else if c.char == '#' then skip flow true keyAllowed rest
    else (keyAllowed, c :: rest)

/-- Closes all block collections, in front of what stands outside of them. -/
def leaveBlocks (l : Layout) : Except Fault Layout := do
  let l ← (l.closeBlocks (-1)).dropCandidate
  return { l with keyAllowed := false }

/-- Reads the indicator of a sequence entry, which `rest` is left behind. -/
def blockEntry (l : Layout) (rest : List Cell) : Except Fault Layout := do
  if !l.inFlow ∧ !l.keyAllowed then l.refuse .entryNotAllowed
  let l ← (l.openBlockHere .blockSequenceStart).dropCandidate
  return { l.emit .blockEntry rest with keyAllowed := true }

/-- Reads the indicator of a key. -/
def key (l : Layout) (rest : List Cell) : Except Fault Layout := do
  if !l.inFlow ∧ !l.keyAllowed then l.refuse .keyNotAllowed
  let l ← (l.openBlockHere .blockMappingStart).dropCandidate
  return { l.emit .key rest with keyAllowed := !l.inFlow }

/-- Reads the colon in front of a value. If there is a candidate, the colon makes it a key. -/
def value (l : Layout) (rest : List Cell) : Except Fault Layout :=
  match l.candidate with
  | some c =>
    let lexemes := l.lexemes.insertIdxIfInBounds c.index ⟨.key, some c.mark⟩
    let l := { l with lexemes, candidate := none, keyAllowed := false }
    .ok ((l.openBlock .blockMappingStart c.index c.mark.column c.mark).emit .value rest)
  | none => do
    if !l.inFlow ∧ !l.keyAllowed then l.refuse .valueNotAllowed
    let l := l.openBlockHere .blockMappingStart
    return { l.emit .value rest with keyAllowed := !l.inFlow }

/-- Opens a flow collection. -/
def openFlow (l : Layout) (token : Token) (rest : List Cell) : Except Fault Layout := do
  let l ← l.noteCandidate
  return { l.emit token rest with
    candidate := none
    outerCandidates := l.candidate :: l.outerCandidates
    keyAllowed := true }

/-- Closes a flow collection. -/
def closeFlow (l : Layout) (token : Token) (rest : List Cell) : Except Fault Layout := do
  let l ← l.dropCandidate
  let l := { l.emit token rest with keyAllowed := false }
  match l.outerCandidates with
  | [] => return l
  | candidate :: outerCandidates => return { l with candidate, outerCandidates }

/-- Reads a comma. -/
def flowEntry (l : Layout) (rest : List Cell) : Except Fault Layout := do
  let l ← l.dropCandidate
  return { l.emit .flowEntry rest with keyAllowed := true }

/-- Adds a token that may start a key, and is followed by none. -/
def content (l : Layout) (read : Except Fault (Token × List Cell)) : Except Fault Layout := do
  let l ← l.noteCandidate
  let (token, rest) ← read
  return { l.emit token rest with keyAllowed := false }

/-- Reads a block scalar. -/
def blockScalar (l : Layout) (style : Style) (rest : List Cell) : Except Fault Layout := do
  let l ← l.dropCandidate
  let (text, rest) ← readBlock (style == .folded) l.indent rest
  return { l.emit (.scalar style (String.ofList text)) rest with keyAllowed := true }

/-- Reads a plain scalar; a key may follow if it does on a new line. -/
def plainScalar (l : Layout) : Except Fault Layout := do
  let l ← l.noteCandidate
  let plain ← readPlain l.inFlow (l.indent + 1).toNat [] l.rest
  return { l.emit (.scalar .plain (String.ofList plain.text)) plain.rest with
    keyAllowed := plain.newLine }

/-- The token for a name, and what is left behind it. -/
def named (token : String → Token) (rest : List Cell) : Except Fault (Token × List Cell) := do
  let (name, rest) ← readName rest
  return (token name, rest)

/-- The token for a quoted scalar, and what is left behind it. -/
def quoted (style : Style) (read : Except Fault (List Char × List Cell)) :
    Except Fault (Token × List Cell) := do
  let (text, rest) ← read
  return (.scalar style (String.ofList text), rest)

/-- A character that starts a plain scalar: no indicator, or one that something adheres to. -/
def startsPlain (flow : Bool) (c : Char) (rest : List Cell) : Bool :=
  if c == '-' then
    match rest with
    | [] => true
    | next :: _ => !isBlank next.char
  else if c == '?' || c == ':' then !flow && !Cell.endsWord rest
  else !isSpace c && !",[]\x7b\x7d#&*!|>'\"%@\x60".contains c

/-- Reads the token that starts with `c`, behind which `rest` is left. -/
def next (l : Layout) (c : Cell) (rest : List Cell) : Except Fault Layout := do
  if c.char = '%' ∧ c.mark.column = 0 then do
    let (token, left) ← readDirective rest
    return (← l.leaveBlocks).emit token left
  else if Cell.startsWithMarker '-' l.rest then
    return (← l.leaveBlocks).emit .documentStart (rest.drop 2)
  else if Cell.startsWithMarker '.' l.rest then
    return (← l.leaveBlocks).emit .documentEnd (rest.drop 2)
  else match c.char with
    | '[' => l.openFlow .flowSequenceStart rest
    | '\x7b' => l.openFlow .flowMappingStart rest
    | ']' => l.closeFlow .flowSequenceEnd rest
    | '\x7d' => l.closeFlow .flowMappingEnd rest
    | ',' => l.flowEntry rest
    | '*' => l.content (named .reference rest)
    | '&' => l.content (named .anchor rest)
    | '!' => l.content (readTag l.inFlow l.rest)
    | '\'' => l.content (quoted .singleQuoted (readSingleQuoted [] rest))
    | '"' => l.content (quoted .doubleQuoted (readDoubleQuoted false [] rest))
    | char =>
      if char = '-' ∧ Cell.endsWord rest then l.blockEntry rest
      else if char = '?' ∧ (l.inFlow ∨ Cell.endsWord rest) then l.key rest
      else if char = ':' ∧ (l.inFlow ∨ Cell.endsWord rest) then l.value rest
      else if char = '|' ∧ !l.inFlow then l.blockScalar .literal rest
      else if char = '>' ∧ !l.inFlow then l.blockScalar .folded rest
      else if startsPlain l.inFlow char rest then l.plainScalar
      else l.refuse .noTokenStartsSo

/-- Skips to the next token and reads it; at the end of the text, closes all block collections. -/
def step (l : Layout) : Except Fault Layout := do
  let (keyAllowed, rest) := skip l.inFlow false l.keyAllowed l.rest
  let l ← { l with keyAllowed, rest }.dropStale
  let l := l.closeBlocks l.mark.column
  match l.rest with
  | [] => l.leaveBlocks
  | c :: rest => l.next c rest

/-- Reads tokens up to the end of the text, but at most `fuel` of them. -/
def run : Nat → Layout → Except Fault Layout
  | 0, l => l.step
  | fuel + 1, l => do
    let l ← l.step
    if l.rest.isEmpty then l.step else run fuel l

end Layout

/-- The place behind the last of some cells. -/
def Cell.stop (cells : List Cell) : Mark :=
  match cells.getLast? with
  | some c => c.mark.after c.char
  | none => {}

/-- The tokens of a text. Each takes a cell at least, so that there are no more of them than
cells. -/
def Lexeme.ofCells (cells : List Cell) : Except Fault (List Lexeme) := do
  let l ← Layout.run cells.length { rest := cells, stop := Cell.stop cells }
  return l.lexemes.toList

end TryResources.Yaml
