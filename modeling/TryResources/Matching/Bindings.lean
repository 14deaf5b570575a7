import TryResources.Node

/-!
# Names and bindings

A template speaks of local variables, labels and declaring types by symbolic names. A name stands
for nothing until it is first met in code; from then on it stands for what was found there.
`Table.unify` is that rule.

* `get?_unify`: after a name has been met it stands for what was found.
* `get?_of_unify`: what stood for something before still stands for the same.
-/

namespace TryResources.Matching

/-- A resource that a template closes. -/
inductive Resource
  /-- The single resource of a javac template. -/
  | only
  /-- One of the resources of an ecj template, by its place in the handler. -/
  | nth (i : Nat)
  deriving Repr, DecidableEq

/-- The path on which a javac template closes its resource. -/
inductive Path
  | normal | exceptional
  deriving Repr, DecidableEq

/-- The place where an ecj template merges a caught exception into the primary one. -/
inductive Merge
  /-- Before a resource is closed. -/
  | before (i : Nat)
  /-- Before the primary exception is thrown. -/
  | last
  deriving Repr, DecidableEq

/-- The local variables that templates name. -/
inductive SlotName
  /-- The exception that the statement throws in the end. -/
  | primary
  /-- What the handler of a javac statement catches first. -/
  | caught
  /-- What the second handler of a javac statement catches and throws again. -/
  | rethrown
  | resource (r : Resource)
  /-- What closing a resource threw, in a javac template. -/
  | suppressed (path : Path)
  /-- What is merged into the primary exception, in an ecj template. -/
  | merged (site : Merge)
  deriving Repr, DecidableEq

/-- The labels that ecj templates name. -/
inductive LabelName
  /-- Behind the closing of a resource that may be null, where code goes on. -/
  | skipped (i : Nat)
  /-- Behind the closing of a resource that may be null, where the handler throws. -/
  | closed (i : Nat)
  /-- Where a merge finds that there is a primary exception already. -/
  | present (site : Merge)
  /-- Behind a merge. -/
  | merged (site : Merge)
  deriving Repr, DecidableEq

/-! ## Tables -/

/-- What names of type `κ` stand for. -/
structure Table (κ ν : Type) where
  entries : List (κ × ν) := []
  deriving Repr

namespace Table

variable {κ ν : Type} [DecidableEq κ] [DecidableEq ν]

/-- What a name stands for, if it has been met. -/
def get? (t : Table κ ν) (name : κ) : Option ν :=
  t.entries.lookup name

/-- Meets a name at `found`: a new name now stands for it, a known one has to. -/
def unify (t : Table κ ν) (name : κ) (found : ν) : Option (Table κ ν) :=
  match t.get? name with
  | none => some ⟨(name, found) :: t.entries⟩
  | some known => if known = found then some t else none

theorem get?_unify {t t' : Table κ ν} {name : κ} {found : ν} (h : t.unify name found = some t') :
    t'.get? name = some found := by
  unfold unify at h
  split at h
  · obtain rfl := Option.some.inj h
    simp [get?]
  · rename_i known hk
    split at h
    · rename_i e
      obtain rfl := Option.some.inj h
      rw [hk, e]
    · cases h

theorem get?_of_unify {t t' : Table κ ν} {name other : κ} {found value : ν}
    (h : t.unify name found = some t') (hother : t.get? other = some value) :
    t'.get? other = some value := by
  unfold unify at h
  split at h
  · rename_i hnone
    obtain rfl := Option.some.inj h
    have hne : other ≠ name := fun e => by simp [e, hnone] at hother
    simpa [get?, List.lookup_cons, beq_false_of_ne hne] using hother
  · split at h
    · obtain rfl := Option.some.inj h
      exact hother
    · cases h

end Table

/-- What all names of a template stand for. -/
structure Bindings where
  slots : Table SlotName Slot := {}
  labels : Table LabelName LabelId := {}
  /-- The types that declare the `close` methods of resources. -/
  owners : Table Resource String := {}
  deriving Repr

end TryResources.Matching
