import TryResources.Method
import TryResources.Range

/-!
# Reports

Two ways to show the ranges that a filter ignores: as a list (`Report.summary`) and as marks on
the nodes of the method (`Report.nodeLines`).
-/

namespace TryResources.Report

/-- A range with its size and the nodes at its ends. -/
def rangeLine (m : Method) (r : Range) : Except Fault String := do
  let first ← m.render r.first
  let last ← m.render r.last
  return "  " ++ r.render ++ " (" ++ toString r.count ++ " nodes, " ++ first ++ " .. " ++ last ++ ")"

/-- The name of a method, and how many ranges it has. -/
def heading (m : Method) (ranges : List Range) : String :=
  m.signature ++ ": " ++ toString ranges.length ++ " ignored range(s)"

/-- The ranges of a method under its name. -/
def summary (m : Method) (ranges : List Range) : Except Fault (List String) := do
  let lines ← ranges.mapM (rangeLine m)
  return heading m ranges :: lines

/-- The mark in front of a node: a hyphen if a range contains it. -/
def mark (ranges : List Range) (p : Nat) : Char :=
  if ranges.any (·.contains p) then '-' else ' '

/-- A node with its mark. Labels are flush left, all else is indented. -/
def nodeLine (m : Method) (ranges : List Range) (n : Node LabelId) (p : Nat) : String :=
  let indent := if n.kind = .labelMarker then "" else "    "
  (mark ranges p).toString ++ " " ++ indent ++ n.render m.labelName

/-- The nodes of a method with their marks. -/
def nodeLines (m : Method) (ranges : List Range) : List String :=
  m.code.nodes.toList.zipIdx.map fun (n, p) => nodeLine m ranges n p

end TryResources.Report
