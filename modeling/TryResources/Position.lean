/-!
# Positions

Nodes of a method body are addressed by their position, counted from `0`. A position is written
with a number sign in front of it. `Fault` holds the two ways in which positions can be misused.
-/

namespace TryResources

/-- Position `k` is written `#k`. -/
def Position.render (p : Nat) : String :=
  "#" ++ toString p

/-- The position before `p`; nothing lies before the first. -/
def Position.prev? : Nat → Option Nat
  | 0 => none
  | p + 1 => some p

/-- A broken precondition: a node is asked for where there is none, or a range ends before it
starts. -/
inductive Fault
  | indexOutOfBounds (length index : Nat)
  | reversedRange (first last : Nat)
  deriving Repr, DecidableEq

/-- The wording of a broken precondition. -/
def Fault.message : Fault → String
  | indexOutOfBounds length index =>
    "index out of bounds: the len is " ++ toString length ++ " but the index is " ++ toString index
  | reversedRange first last =>
    "range " ++ Position.render first ++ "..=" ++ Position.render last ++ " is reversed"

end TryResources
