import TryResources.Matching.Matcher

/-!
# Statements compiled by javac

Javac protects the body of the statement by a handler that records what it throws as the primary
exception and throws it again, and that handler by one that catches everything, closes the
resource and throws on. A resource is closed in one of four shapes, on the normal path as in the
handler.
-/

namespace TryResources.Javac

open Matching

/-- The shape of the code that closes a resource. -/
inductive Shape
  /-- The helper method closes the resource, which cannot be null. -/
  | optimal
  /-- Resource and primary exception are checked for null, and the exception that closing throws
  is suppressed, all in place. -/
  | full
  /-- As `full`, for a resource that cannot be null. -/
  | omittedNullCheck
  /-- The helper method closes the resource unless it is null. -/
  | method
  deriving Repr, DecidableEq

namespace Shape

/-- The shapes in the order in which they are tried. -/
def all : List Shape :=
  [optimal, full, omittedNullCheck, method]

theorem mem_all (s : Shape) : s ∈ all := by cases s <;> decide

/-- The name under which a shape is reported. -/
def name : Shape → String
  | optimal => "OPTIMAL"
  | full => "FULL"
  | omittedNullCheck => "OMITTED_NULL_CHECK"
  | method => "METHOD"

end Shape

/-- Loads the primary exception. -/
def loadPrimary : Step := .slot .aload .primary

/-- Loads the resource. -/
def loadResource : Step := .slot .aload (.resource .only)

/-- Leaves the resource alone if it is null. -/
def nullCheck : List Step :=
  [loadResource, .op .ifnull]

/-- Closes the resource by the helper method. -/
def closeByHelper : List Step :=
  [loadPrimary, loadResource, .closeHelper]

/-- Closes the resource in place: what closing throws is suppressed if there is a primary
exception. -/
def closeInPlace (path : Path) : List Step :=
  [loadPrimary, .op .ifnull,
    loadResource, .close .only, .op .goto,
    .slot .astore (.suppressed path),
    loadPrimary, .slot .aload (.suppressed path), .addSuppressed, .op .goto,
    loadResource, .close .only]

/-- Closes the resource. The two paths keep a suppressed exception in variables of their own. -/
def close (path : Path) : Shape → List Step
  | .optimal => closeByHelper
  | .full => nullCheck ++ closeInPlace path
  | .omittedNullCheck => closeInPlace path
  | .method => nullCheck ++ closeByHelper

/-- The two handlers. -/
def handlers (shape : Shape) : List Step :=
  [.slot .astore .caught,
    .slot .aload .caught, .slot .astore .primary, .slot .aload .caught, .op .athrow,
    .slot .astore .rethrown] ++
  close .exceptional shape ++
  [.slot .aload .rethrown, .op .athrow]

/-- Goes on to the next instruction if that is a jump that never falls through. -/
def absorbJump (code : Code) (r : Reading) : Reading :=
  if (r.advance code).onUnconditionalJump code then r.advance code else r

/-- Reads the handlers, then searches backward for the normal path; a jump behind it belongs to
it. -/
def sight (code : Code) (shape : Shape) (m : Matcher) : Verdict := do
  let atEnd ← Step.readAll code (handlers shape) m.reading
  let (before, closed) ← findBackward (Step.readAll code (close .normal shape)) m.start atEnd
  let r := absorbJump code closed
  Verdict.between (code.next? before) r.cursor (code.next? m.start) atEnd.cursor r

end TryResources.Javac
