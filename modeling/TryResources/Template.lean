import TryResources.Template.Javac
import TryResources.Template.Ecj

/-!
# Templates

The six templates by which a statement is recognised, under the names by which they are reported,
and how a matcher tries one of them.
-/

namespace TryResources

open Matching

/-- A way in which a compiler lays out the statement. -/
inductive Template
  | javac (shape : Javac.Shape)
  /-- By ecj, with a body that may end normally. -/
  | ecj
  /-- By ecj, with a body that never ends normally. -/
  | ecjNoFlowOut
  deriving Repr, DecidableEq

namespace Template

/-- Every template: those of javac in the order in which they are tried, then those of ecj. -/
def all : List Template :=
  Javac.Shape.all.map javac ++ [ecj, ecjNoFlowOut]

/-- The name under which a template is reported. -/
def name : Template → String
  | javac shape => "javac " ++ shape.name
  | ecj => "ecj"
  | ecjNoFlowOut => "ecj no-flow-out"

/-- The shape that a template of javac looks for. -/
def shape? : Template → Option Javac.Shape
  | javac shape => some shape
  | _ => none

/-- Looks for the template where a matcher stands. -/
def sight (code : Code) : Template → Matcher → Verdict
  | javac shape, m => Javac.sight code shape m
  | ecj, m => Ecj.sight code m
  | ecjNoFlowOut, m => Ecj.sightNoFlowOut code m

end Template

/-- Tries a template, and keeps the reading that it ends with. -/
def Matching.Matcher.attempt (code : Code) (t : Template) (m : Matcher) :
    Option Sighting × Matcher :=
  match t.sight code m with
  | .ok (s, reading) => (some s, { m with reading })
  | .error reading => (none, { m with reading })

end TryResources
