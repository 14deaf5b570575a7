import TryResources.Matching.Step
import TryResources.Range

/-!
# Matchers

A matcher looks for a template at a handler. It keeps the position where it was started and a
reading that starts one node in front of it, with no name bound. Besides reading forward, a
template may search backward from the handler (`findBackward`) for the nearest block of code that
some reader accepts.

* `findBackward_eq_ok`: the block found is the last before the handler that the reader accepts,
  read with the bindings of the outset.
* `findBackward_eq_error`: if none is found, the reader accepts no block before the handler.
-/

namespace TryResources.Matching

/-- Something that reads code: a reading to go on with, or the reading that a failure leaves. -/
abbrev Reader := Reading → Except Reading Reading

namespace Reading

/-- Moves to the next instruction, whatever it is. -/
def advance (code : Code) (r : Reading) : Reading :=
  { r with cursor := r.cursor.bind code.nextInsn? }

/-- The cursor is on a jump that never falls through. -/
def onUnconditionalJump (code : Code) (r : Reading) : Bool :=
  match r.cursor.bind code.insn? with
  | some i => i.opcode.isUnconditionalJump
  | none => false

end Reading

/-! ## Searching backward -/

/-- Tries a reader behind each position before `start`, the last position first. Returns the
position in front of the block that is accepted, and the reading at its end. -/
def findBackward (reader : Reader) : Nat → Reading → Except Reading (Nat × Reading)
  | 0, r => .error r
  | p + 1, r =>
    match reader { r with cursor := some p } with
    | .ok r' => .ok (p, r')
    | .error _ => findBackward reader p { r with cursor := some p }

/-- The block found is the nearest: the reader fails behind each later position. -/
theorem findBackward_eq_ok {reader : Reader} {start p : Nat} {r r' : Reading}
    (h : findBackward reader start r = .ok (p, r')) :
    p < start ∧ reader ⟨some p, r.bindings⟩ = .ok r' ∧
      ∀ q, p < q → q < start → ∃ e, reader ⟨some q, r.bindings⟩ = .error e := by
  induction start generalizing r with
  | zero => cases h
  | succ n ih =>
    unfold findBackward at h
    split at h
    · rename_i r₁ hr
      cases h
      exact ⟨by omega, hr, fun q hq hlt => by omega⟩
    · rename_i e he
      obtain ⟨hp, hr, hlater⟩ := ih h
      refine ⟨by omega, hr, fun q hq hlt => ?_⟩
      rcases Nat.lt_or_ge q n with hn | hn
      · exact hlater q hq hn
      · obtain rfl : q = n := by omega
        exact ⟨e, he⟩

/-- Without a block, the reader fails behind every position, and the bindings are as before. -/
theorem findBackward_eq_error {reader : Reader} {start : Nat} {r r' : Reading}
    (h : findBackward reader start r = .error r') :
    r'.bindings = r.bindings ∧
      ∀ q, q < start → ∃ e, reader ⟨some q, r.bindings⟩ = .error e := by
  induction start generalizing r with
  | zero => cases h; exact ⟨rfl, fun q hq => by omega⟩
  | succ n ih =>
    unfold findBackward at h
    split at h
    · cases h
    · rename_i e he
      obtain ⟨hb, hall⟩ := ih h
      refine ⟨hb, fun q hq => ?_⟩
      rcases Nat.lt_or_ge q n with hn | hn
      · exact hall q hn
      · obtain rfl : q = n := by omega
        exact ⟨e, he⟩

/-! ## Sightings -/

/-- First and last position of a piece of code, in whatever order they come. -/
structure Span where
  first : Nat
  last : Nat
  deriving Repr, DecidableEq

/-- The range that a span is, unless it is reversed. -/
def Span.range (s : Span) : Except Fault Range :=
  Range.between s.first s.last

/-- A span is written like a range. -/
def Span.render (s : Span) : String :=
  Position.render s.first ++ "..=" ++ Position.render s.last

/-- The two pieces of code that a recognised statement consists of. -/
structure Sighting where
  /-- The closing of the resources where the statement ends normally. -/
  normal : Span
  /-- The closing of the resources where an exception leaves the statement. -/
  handler : Span
  deriving Repr, DecidableEq

/-- A sighting between four positions, all of which have to exist. -/
def Sighting.between? (normalFirst normalLast handlerFirst handlerLast : Option Nat) :
    Option Sighting := do
  return ⟨⟨← normalFirst, ← normalLast⟩, ⟨← handlerFirst, ← handlerLast⟩⟩

/-- The ranges of a sighting, the normal path first. -/
def Sighting.ranges (s : Sighting) : Except Fault (Range × Range) := do
  let normal ← s.normal.range
  let handler ← s.handler.range
  return (normal, handler)

/-! ## Matchers -/

/-- The state in which templates are tried. -/
structure Matcher where
  /-- The handler that the matcher was started at. -/
  start : Nat := 0
  reading : Reading := {}
  deriving Repr

/-- Starts at a handler: in front of it, with no name bound. Nothing is left of what the matcher
did before. -/
def Matcher.restart (_ : Matcher) (handler : Nat) : Matcher :=
  { start := handler, reading := { cursor := Position.prev? handler } }

/-- How a template ends: with a sighting or without, and in either case with a reading. -/
abbrev Verdict := Except Reading (Sighting × Reading)

/-- The verdict on four positions. -/
def Verdict.between (normalFirst normalLast handlerFirst handlerLast : Option Nat)
    (r : Reading) : Verdict :=
  match Sighting.between? normalFirst normalLast handlerFirst handlerLast with
  | some s => .ok (s, r)
  | none => .error r

end TryResources.Matching
