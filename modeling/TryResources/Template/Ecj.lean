import TryResources.Matching.Matcher

/-!
# Statements compiled by ecj

Ecj closes the resources of a statement inside handlers that catch everything. How many resources
there are is found out while reading: they are numbered in the order in which the handler closes
them. A statement whose body may end normally jumps behind the handler after closing; one whose
body never does has no such jump (`sightNoFlowOut`).
-/

namespace TryResources.Ecj

open Matching

/-- Loads the primary exception. -/
def loadPrimary : Step := .slot .aload .primary

/-- Loads resource number `i`. -/
def loadResource (i : Nat) : Step := .slot .aload (.resource (.nth i))

/-- Closes resource number `i` unless it is null, and goes on. -/
def close (i : Nat) : List Step :=
  [loadResource i, .jump .ifnull (.skipped i), loadResource i, .close (.nth i)]

/-- Closes resource number `i` unless it is null, and throws the primary exception. -/
def closeAndThrow (i : Nat) : List Step :=
  [loadResource i, .jump .ifnull (.closed i), loadResource i, .close (.nth i),
    .label (.closed i), loadPrimary, .op .athrow]

/-- Merges a caught exception into the primary one: it becomes the primary exception if there is
none yet, and is suppressed by it if it is another. -/
def merge (site : Merge) : List Step :=
  [.slot .astore (.merged site),
    loadPrimary, .jump .ifnonnull (.present site),
    .slot .aload (.merged site), .slot .astore .primary, .jump .goto (.merged site),
    .label (.present site),
    loadPrimary, .slot .aload (.merged site), .jump .ifAcmpeq (.merged site),
    loadPrimary, .slot .aload (.merged site), .addSuppressed,
    .label (.merged site)]

/-- Throws the primary exception. -/
def throwPrimary : List Step :=
  [loadPrimary, .op .athrow]

/-! ## Bodies that may end normally -/

/-- What follows the closing of resource number `i` inside the handler: a jump, and the handler
for what closing it threw. -/
def afterClose (i : Nat) : List Step :=
  .jump .goto (.skipped i) :: merge (.before i) ++ closeAndThrow i

theorem afterClose_ne_nil (i : Nat) : afterClose i ≠ [] := by simp [afterClose]

theorem close_ne_nil (i : Nat) : close i ≠ [] := by simp [close]

/-- Reads the handlers of resources from number `i` on, for as long as one is closed; returns how
many resources there are by then. Closing one commits to the rest of its handler.

A counter of 32 bits with a sign would do: each round reads nodes of its own and copies the tables
with all that they hold by then, so 2³¹ rounds are out of reach. -/
def readResources (code : Code) (i : Nat) (r : Reading) : Except Reading (Nat × Reading) :=
  match hc : Step.readAll code (close i) r with
  | .error _ => .ok (i, r)
  | .ok closed =>
    match ha : Step.readAll code (afterClose i) closed with
    | .error e => .error e
    | .ok r' =>
      have : r'.remaining code < r.remaining code :=
        Nat.lt_trans (Reading.remaining_lt_of_readAll (afterClose_ne_nil i) ha)
          (Reading.remaining_lt_of_readAll (close_ne_nil i) hc)
      readResources code (i + 1) r'
termination_by r.remaining code

/-- Reads the handler, then searches backward for the normal path, which has to end in a jump. -/
def sight (code : Code) (m : Matcher) : Verdict := do
  let first ← Step.readAll code (.slot .astore .primary :: closeAndThrow 0) m.reading
  let (_, all) ← readResources code 1 first
  let atEnd ← Step.readAll code (merge .last ++ throwPrimary) all
  let (before, closed) ← findBackward (Step.readAll code (close 0)) m.start atEnd
  let r := closed.advance code
  if r.onUnconditionalJump code then
    Verdict.between (code.next? before) r.cursor (code.next? m.start) atEnd.cursor r
  else .error r

/-! ## Bodies that never end normally -/

/-- The handler of resource number `i`. -/
def handlerOf (i : Nat) : List Step :=
  closeAndThrow i ++ merge (.before i)

theorem handlerOf_ne_nil (i : Nat) : handlerOf i ≠ [] := by simp [handlerOf, closeAndThrow]

/-- Reads the handlers of resources from number `i` on, for as long as one is complete; returns
how many resources there are by then. The counter is as in `readResources`, and the tables are copied
in each round here, too. -/
def readHandlers (code : Code) (i : Nat) (r : Reading) : Nat × Reading :=
  match h : Step.readAll code (handlerOf i) r with
  | .error _ => (i, r)
  | .ok r' => readHandlers code (i + 1) r'
termination_by r.remaining code
decreasing_by exact Reading.remaining_lt_of_readAll (handlerOf_ne_nil i) h

/-- Closes the resources from number `1` on, where the first of `count` is closed already. -/
def closeOthers (count : Nat) : List Step :=
  (List.range' 1 (count - 1)).flatMap close

/-- Reads the handler, then searches backward for the normal path, which closes the same resources
in the same order. -/
def sightNoFlowOut (code : Code) (m : Matcher) : Verdict := do
  let first ← Step.readAll code [.slot .astore .primary] m.reading
  let (count, all) := readHandlers code 0 first
  let atEnd ← Step.readAll code throwPrimary all
  let (before, closed) ← findBackward (Step.readAll code (close 0)) m.start atEnd
  let r ← Step.readAll code (closeOthers count) closed
  Verdict.between (code.next? before) r.cursor (some m.start) atEnd.cursor r

end TryResources.Ecj
