import TryResources.Yaml.Token

/-!
# Scalars

Reading the text of a scalar: plain, quoted or in a block. Each reader takes the cells behind the
indicator of the scalar, or from its first character on if it is plain, and returns the text and
the cells that are left.

Between two words of a plain or quoted scalar, line breaks are folded (`fold`): one becomes a
space, of several the first is dropped.
-/

namespace TryResources.Yaml

/-- What spaces, tabs and line breaks between two words of a scalar stand for. After a backslash
at the end of a line, all breaks that follow count. -/
def fold (escaped : Bool) (run : List Char) : List Char :=
  let breaks := run.filter isBreak
  if escaped then breaks
  else match breaks with
    | [] => run
    | ['\n'] => [' ']
    | '\n' :: more => more
    | breaks => breaks

/-! ## Plain scalars -/

/-- A plain scalar, and whether a line ended behind its last word. -/
structure Plain where
  text : List Char
  newLine : Bool
  rest : List Cell

/-- Inside a flow collection, a colon has to be set off from these characters. -/
def isFlowIndicator (c : Char) : Bool :=
  c == ',' || c == '?' || c == '[' || c == ']' || c == '\x7b' || c == '\x7d'

/-- The character ends a plain scalar: a colon at the end of a word, or, inside a flow collection,
what separates or closes. -/
def endsPlain (flow : Bool) (c : Char) (rest : List Cell) : Bool :=
  (c == ':' && Cell.endsWord rest) ||
    (flow && (c == ',' || c == '[' || c == ']' || c == '\x7b' || c == '\x7d'))

/-- The character is a colon inside a flow collection that something adheres to. -/
def clashes (flow : Bool) (c : Char) : List Cell → Bool
  | [] => false
  | next :: _ => flow && c == ':' && isFlowIndicator next.char

/-- Reads a plain scalar behind the spaces and breaks in `pending`, which holds the last first.
Outside of flow collections, lines have to be indented by `indent` columns. -/
def readPlain (flow : Bool) (indent : Nat) (pending : List Char) :
    List Cell → Except Fault Plain
  | [] => .ok ⟨[], pending.any isBreak, []⟩
  | c :: rest =>
    if isSpace c.char then
      if c.char = '\t' ∧ pending.any isBreak ∧ c.mark.column < indent then
        Cell.refuse .tabAsIndentation (c :: rest)
      else readPlain flow indent (c.char :: pending) rest
    else if Cell.startsWithDocument (c :: rest) ∨
        (pending ≠ [] ∧ (c.char = '#' ∨ (!flow ∧ c.mark.column < indent))) then
      .ok ⟨[], pending.any isBreak, c :: rest⟩
    else if clashes flow c.char rest then Cell.refuse .colonInsideFlow (c :: rest)
    else if endsPlain flow c.char rest then .ok ⟨[], pending.any isBreak, c :: rest⟩
    else do
      let more ← readPlain flow indent [] rest
      return { more with text := fold false pending.reverse ++ c.char :: more.text }

/-! ## Quoted scalars -/

/-- What a backslash and one character stand for between double quotes. -/
def namedEscape? : Char → Option Char
  | '0' => some '\x00'
  | 'a' => some '\x07'
  | 'b' => some '\x08'
  | 't' => some '\t'
  | '\t' => some '\t'
  | 'n' => some '\n'
  | 'v' => some '\x0b'
  | 'f' => some '\x0c'
  | 'r' => some '\r'
  | 'e' => some '\x1b'
  | ' ' => some ' '
  | '"' => some '"'
  | '/' => some '/'
  | '\\' => some '\\'
  | 'N' => some '\u0085'
  | '_' => some '\u00a0'
  | 'L' => some '\u2028'
  | 'P' => some '\u2029'
  | _ => none

/-- How many hexadecimal digits follow a backslash and one character. -/
def escapeWidth? : Char → Option Nat
  | 'x' => some 2
  | 'u' => some 4
  | 'U' => some 8
  | _ => none

/-- The character whose number is written by exactly `width` hexadecimal digits. -/
def numbered? (width : Nat) (cells : List Cell) : Option Char := do
  let digits ← (cells.take width).mapM fun c => hexDigit? c.char
  if digits.length = width then
    let n := digits.foldl (fun n d => 16 * n + d) 0
    if n.isValidChar then return Char.ofNat n else none
  else none

/-- Reads a scalar between single quotes, behind the spaces and breaks in `pending`. -/
def readSingleQuoted (pending : List Char) :
    List Cell → Except Fault (List Char × List Cell)
  | [] => Cell.refuse .unclosedQuote []
  | c :: rest =>
    if Cell.startsWithDocument (c :: rest) then Cell.refuse .documentInsideQuote (c :: rest)
    else if isSpace c.char then readSingleQuoted (c.char :: pending) rest
    else if c.char = '\'' then
      match rest with
      | ⟨'\'', _⟩ :: rest => do
        let (text, rest) ← readSingleQuoted [] rest
        return (fold false pending.reverse ++ '\'' :: text, rest)
      | rest => .ok (fold false pending.reverse, rest)
    else do
      let (text, rest) ← readSingleQuoted [] rest
      return (fold false pending.reverse ++ c.char :: text, rest)

/-- Reads a scalar between double quotes, behind the spaces and breaks in `pending`, in front of
which `escaped` marks a line that ended in a backslash. -/
def readDoubleQuoted (escaped : Bool) (pending : List Char) (cells : List Cell) :
    Except Fault (List Char × List Cell) :=
  match cells with
  | [] => Cell.refuse .unclosedQuote []
  | c :: rest =>
    let before := fold escaped pending.reverse
    if Cell.startsWithDocument (c :: rest) then Cell.refuse .documentInsideQuote (c :: rest)
    else if isSpace c.char then readDoubleQuoted escaped (c.char :: pending) rest
    else if c.char = '"' then .ok (before, rest)
    else if c.char = '\\' then
      match rest with
      | [] => Cell.refuse .unknownEscape (c :: rest)
      | e :: rest' =>
        if isBreak e.char then do
          let (text, left) ← readDoubleQuoted true [] rest'
          return (before ++ text, left)
        else match namedEscape? e.char, escapeWidth? e.char with
          | some named, _ => do
            let (text, left) ← readDoubleQuoted false [] rest'
            return (before ++ named :: text, left)
          | none, some width =>
            match numbered? width rest' with
            | some numbered => do
              let (text, left) ← readDoubleQuoted false [] (rest'.drop width)
              return (before ++ numbered :: text, left)
            | none => Cell.refuse .malformedEscape (c :: rest)
          | none, none => Cell.refuse .unknownEscape (c :: rest)
    else do
      let (text, left) ← readDoubleQuoted false [] rest
      return (before ++ c.char :: text, left)
termination_by cells.length
decreasing_by all_goals simp_all <;> omega

/-! ## Block scalars -/

/-- What becomes of the line breaks at the end of a block scalar. -/
inductive Chomp
  /-- None is kept. -/
  | strip
  /-- The first is kept. -/
  | clip
  /-- All are kept. -/
  | keep
  deriving Repr, DecidableEq

/-- The indicator of what becomes of line breaks. -/
def chomp? : Char → Option Chomp
  | '-' => some .strip
  | '+' => some .keep
  | _ => none

/-- The indicator of an indentation, a digit other than zero. -/
def increment? (c : Char) : Option Nat :=
  if '1' ≤ c ∧ c ≤ '9' then some (c.toNat - '0'.toNat) else none

/-- Takes an indicator, if the cells start with one. -/
def takeIndicator {α : Type} (indicator? : Char → Option α) : List Cell → Option α × List Cell
  | [] => (none, [])
  | c :: rest =>
    match indicator? c.char with
    | some a => (some a, rest)
    | none => (none, c :: rest)

/-- Reads the indicators of a block scalar, in either order, and the rest of their line. Returns
what becomes of line breaks, and by how many columns lines are indented more than what surrounds
them. -/
def readBlockHeader (cells : List Cell) : Except Fault (Chomp × Option Nat × List Cell) := do
  let (early, rest) := takeIndicator chomp? cells
  let (increment, rest) := takeIndicator increment? rest
  let (late, rest) := if early.isSome then (none, rest) else takeIndicator chomp? rest
  return ((early <|> late).getD .clip, increment, ← Cell.dropLine .malformedBlockHeader rest)

/-- The empty lines at the start of a block scalar whose indentation is to be found: their line
breaks, and the greatest column that is reached up to the first line that is not empty. -/
def readEmptyLines (column : Nat) :
    List Cell → Except Fault (List Char × Nat × List Cell)
  | [] => .ok ([], column, [])
  | c :: rest =>
    let column := max column c.mark.column
    if c.char = ' ' then readEmptyLines column rest
    else if c.char = '\t' then Cell.refuse .tabAsIndentation (c :: rest)
    else if isBreak c.char then do
      let (breaks, column, rest) ← readEmptyLines column rest
      return (c.char :: breaks, column, rest)
    else .ok ([], column, c :: rest)

/-- The part of a block scalar between two lines that are not empty: the break at the end of the
first, and those of empty lines behind it. -/
structure Gap where
  /-- The first line starts with a space or a tab. -/
  blankBefore : Bool := false
  first : Option Char := none
  /-- The breaks of empty lines, the last first. -/
  others : List Char := []

/-- What the breaks between two lines stand for. In a folded scalar one break becomes a space and
of several the first is dropped, unless one of the two lines starts with a space or a tab. -/
def Gap.join (folded : Bool) (gap : Gap) (blankBehind : Bool) : List Char :=
  if folded ∧ gap.first = some '\n' ∧ !gap.blankBefore ∧ !blankBehind then
    if gap.others.isEmpty then [' '] else gap.others.reverse
  else gap.first.toList ++ gap.others.reverse

/-- What the breaks behind the last line stand for. -/
def Gap.chomp (gap : Gap) : Chomp → List Char
  | .strip => []
  | .clip => gap.first.toList
  | .keep => gap.first.toList ++ gap.others.reverse

/-- Where the reading of a block scalar stands. -/
inductive BlockState
  /-- Inside a line, which starts with a space or a tab or does not. -/
  | inside (blank : Bool)
  /-- Between two lines that are not empty. -/
  | between (gap : Gap)

/-- Reads the lines of a block scalar, which are indented by `indent` columns. -/
def readBlockLines (folded : Bool) (chomp : Chomp) (indent : Nat) :
    BlockState → List Cell → Except Fault (List Char × List Cell)
  | .inside _, [] => .ok ([], [])
  | .between gap, [] => .ok (gap.chomp chomp, [])
  | .inside blank, c :: rest =>
    if isBreak c.char then
      let gap := { blankBefore := blank, first := some c.char }
      readBlockLines folded chomp indent (.between gap) rest
    else do
      let (text, left) ← readBlockLines folded chomp indent (.inside blank) rest
      return (c.char :: text, left)
  | .between gap, c :: rest =>
    if c.char = ' ' ∧ c.mark.column < indent then
      readBlockLines folded chomp indent (.between gap) rest
    else if c.char = '\t' ∧ c.mark.column < indent then
      Cell.refuse .tabAsIndentation (c :: rest)
    else if isBreak c.char then
      let gap := { gap with others := c.char :: gap.others }
      readBlockLines folded chomp indent (.between gap) rest
    else if c.mark.column = indent then do
      let blank := isBlank c.char
      let (text, left) ← readBlockLines folded chomp indent (.inside blank) rest
      return (gap.join folded blank ++ c.char :: text, left)
    else .ok (gap.chomp chomp, c :: rest)

/-- Reads a block scalar inside a collection that is indented by `outer` columns (`-1` if there is
none). -/
def readBlock (folded : Bool) (outer : Int) (cells : List Cell) :
    Except Fault (List Char × List Cell) := do
  let (chomp, increment, rest) ← readBlockHeader cells
  match increment with
  | some n => readBlockLines folded chomp (outer.toNat + n) (.between {}) rest
  | none =>
    let (breaks, column, rest) ← readEmptyLines 0 rest
    let indent := max column (max (outer + 1).toNat 1)
    readBlockLines folded chomp indent (.between { others := breaks.reverse }) rest

end TryResources.Yaml
