import TryResources.Proofs.Compiled.Ecj
import TryResources.Proofs.Compiled.Javac

/-!
# Recognising what compilers emit

Of a method that consists of statements, one behind the other, exactly the ranges of the statements
are found: none is missing, and none is found twice or beside them.

* `entries_tableOf`: what the table of a list of statements contributes, by induction on the list.
* `ignoredRanges_methodOf`: the ranges that are found.
-/

namespace TryResources.Compiled

open Matching

variable {c : Code} {num : Label → LabelId} {number : Nat → Label → LabelId} {d : Nat}

theorem entries_statement (hc : c.Unambiguous) (st : Statement)
    (h : c.Holds d (st.segments.nodes.map (Node.map num))) :
    (st.table.map (Block.map num)).flatMap (entry c) =
      [st.segments.normalRange d, st.segments.handlerRange d] := by
  cases st with
  | javac shape x suppressed => exact entries_javac hc h
  | ecj r primary merged => exact entries_ecj hc h
  | ecjNoFlowOut r primary merged result => exact entries_ecjNoFlowOut hc h

theorem entries_tableOf (hc : c.Unambiguous) (sts : List Statement)
    (h : c.Holds d (nodesOf number sts)) :
    (tableOf number sts).flatMap (entry c) = rangesOf d sts := by
  induction sts generalizing number d with
  | nil => rfl
  | cons st sts ih =>
    rw [nodesOf, Code.holds_append_iff, List.length_map] at h
    rw [tableOf, List.flatMap_append, entries_statement hc st h.1, ih h.2]
    rfl

/-- **Recognising what compilers emit.** Of a method that consists of any number of statements, each
emitted by javac in one of its shapes or by ecj in one of its ways with any number of resources,
exactly the normal paths and the handlers of the statements are found, in order. It does not matter
that the statements use the same variables, nor which numbers their labels get, as long as no two
labels get the same. -/
theorem ignoredRanges_methodOf (sts : List Statement)
    (hnumber : (labelsIn sts).InjOn (Function.uncurry number)) (name desc : String) :
    ({} : Options).ignoredRanges (methodOf number name desc sts) = .ok (rangesOf 0 sts) := by
  have hc : (methodOf number name desc sts).code.Unambiguous :=
    Code.unambiguous_ofList (nodup_labels_nodesOf hnumber)
  have h : (methodOf number name desc sts).code.Holds 0 (nodesOf number sts) := by
    simpa [methodOf] using Code.holds_ofList [] (nodesOf number sts) []
  rw [Options.ignoredRanges_eq_flatMap]
  exact congrArg Except.ok (entries_tableOf hc sts h)

/-- Four statements that use the same variables: of javac, of ecj with two resources in either way,
and of javac again. -/
def fourStatements : List Statement :=
  let x : Javac.Locals := ⟨3, 2, 4, 1, "java/io/Reader"⟩
  let r : Resources := ⟨2, by decide, (10 + ·), fun _ => "java/io/Reader",
    fun i _ j _ h => Nat.add_left_cancel h⟩
  let merged : Merge → Slot
    | .before i => 20 + i
    | .last => 30
  [.javac .full x fun _ => 5, .ecj r 2 merged, .ecjNoFlowOut r 2 merged 3,
    .javac .optimal x fun _ => 5]

theorem ignoredRanges_methodOf_fourStatements :
    (labelsIn fourStatements).InjOn (Function.uncurry numbering) ∧
      ({} : Options).ignoredRanges (methodOf numbering "run" "()V" fourStatements) =
        .ok [⟨10, 32, by decide⟩, ⟨34, 66, by decide⟩, ⟨82, 87, by decide⟩, ⟨89, 149, by decide⟩,
          ⟨166, 174, by decide⟩, ⟨179, 235, by decide⟩, ⟨246, 251, by decide⟩,
          ⟨253, 268, by decide⟩] := by
  have hnumber : (labelsIn fourStatements).InjOn (Function.uncurry numbering) :=
    numbering_injective.injOn
  refine ⟨hnumber, ?_⟩
  rw [ignoredRanges_methodOf fourStatements hnumber]
  rfl

end TryResources.Compiled
