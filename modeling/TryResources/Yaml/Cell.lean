import TryResources.Yaml.Fault

/-!
# Cells

A text is read as a list of cells: its characters, each with its place. The ends of lines are made
alike first, but for the two separators of the character set, which stand for themselves.

* `Cell.ofText?`: the cells of a text that holds no forbidden character.
* `Cell.map_char_place`: places leave the characters as they are.
-/

namespace TryResources.Yaml

/-- A space or a tab. -/
def isBlank (c : Char) : Bool :=
  c == ' ' || c == '\t'

/-- The end of a line. -/
def isBreak (c : Char) : Bool :=
  c == '\n' || c == '\u2028' || c == '\u2029'

/-- A space, a tab or the end of a line. -/
def isSpace (c : Char) : Bool :=
  isBlank c || isBreak c

/-- A letter or digit of a name. -/
def isNameChar (c : Char) : Bool :=
  c.isAlphanum || c == '_' || c == '-'

/-- A digit of a hexadecimal number. -/
def hexDigit? (c : Char) : Option Nat :=
  if '0' ≤ c ∧ c ≤ '9' then some (c.toNat - '0'.toNat)
  else if 'a' ≤ c ∧ c ≤ 'f' then some (c.toNat - 'a'.toNat + 10)
  else if 'A' ≤ c ∧ c ≤ 'F' then some (c.toNat - 'A'.toNat + 10)
  else none

/-- A character that a document may hold. -/
def isAllowed (c : Char) : Bool :=
  let n := c.toNat
  n == 0x9 || n == 0xa || n == 0xd || (0x20 ≤ n && n ≤ 0x7e) || n == 0x85 ||
    (0xa0 ≤ n && n ≤ 0xfffd) || 0x10000 ≤ n

/-- Makes the ends of lines alike. -/
def unifyBreaks : List Char → List Char
  | '\r' :: '\n' :: cs => '\n' :: unifyBreaks cs
  | '\r' :: cs => '\n' :: unifyBreaks cs
  | '\u0085' :: cs => '\n' :: unifyBreaks cs
  | c :: cs => c :: unifyBreaks cs
  | [] => []

/-- The place behind a character at a place. -/
def Mark.after (m : Mark) (c : Char) : Mark :=
  if isBreak c then ⟨m.line + 1, 0, 0⟩ else ⟨m.line, m.column + 1, m.octets + c.utf8Size⟩

/-- A character and its place. -/
structure Cell where
  char : Char
  mark : Mark
  deriving Repr, DecidableEq

namespace Cell

/-- Gives characters their places, from a place on. -/
def place (m : Mark) : List Char → List Cell
  | [] => []
  | c :: cs => ⟨c, m⟩ :: place (m.after c) cs

@[simp] theorem map_char_place (m : Mark) (cs : List Char) : (place m cs).map Cell.char = cs := by
  induction cs generalizing m with
  | nil => rfl
  | cons c cs ih => simp [place, ih]

/-- The cells of a text. -/
def ofText? (text : String) : Except Fault (List Cell) :=
  let cells := place {} (unifyBreaks text.toList)
  match cells.find? (!isAllowed ·.char) with
  | some c => .error ⟨.forbiddenCharacter, some c.mark⟩
  | none => .ok cells

/-- The cell is a byte order mark at the start of a line. -/
def isLineMark (c : Cell) : Bool :=
  c.char == '\ufeff' && c.mark.column == 0

/-- The place where cells start, if there are any. -/
def start? (cells : List Cell) : Option Mark :=
  cells.head?.map Cell.mark

/-- Refuses a document at the place where cells start. -/
def refuse {α : Type} (problem : Problem) (cells : List Cell) : Except Fault α :=
  .error ⟨problem, start? cells⟩

/-- The first of the cells, if any, is a space, a tab or the end of a line. -/
def endsWord : List Cell → Bool
  | [] => true
  | c :: _ => isSpace c.char

/-- The cells start a line with three times the same character, and nothing adheres to it. -/
def startsWithMarker (marker : Char) : List Cell → Bool
  | a :: b :: c :: rest =>
    a.mark.column == 0 && a.char == marker && b.char == marker && c.char == marker && endsWord rest
  | _ => false

/-- The cells start with an indicator between documents. -/
def startsWithDocument (cells : List Cell) : Bool :=
  startsWithMarker '-' cells || startsWithMarker '.' cells

/-- The cells behind spaces and tabs. -/
def dropBlanks (cells : List Cell) : List Cell :=
  cells.dropWhile (isBlank ·.char)

/-- The characters in front of the first that fails a test, and the cells from there on. -/
def span (p : Char → Bool) (cells : List Cell) : List Char × List Cell :=
  ((cells.takeWhile (p ·.char)).map Cell.char, cells.dropWhile (p ·.char))

/-- The cells behind the rest of a line, which may hold a comment but nothing else. -/
def dropLine (problem : Problem) (cells : List Cell) : Except Fault (List Cell) :=
  match dropBlanks cells with
  | [] => .ok []
  | c :: rest =>
    if isBreak c.char then .ok rest
    else if c.char = '#' then .ok ((rest.dropWhile (!isBreak ·.char)).drop 1)
    else refuse problem (c :: rest)

end Cell

end TryResources.Yaml
