import TryResources.Code

/-!
# Methods

A method: its name and descriptor, its body, its exception table and the names of its labels.
A label without a name is written by its number, so a method may be made of bare nodes. Once a method
is made, its nodes are not replaced by others: where a label stands may be looked up in the body
(`Code.labelPosition?`) or in a table that is made together with the method (`TableMethod`).

* `Method.handlerPosition?`: where the handler of a table entry starts.
* `Method.render`: one node as text, with the names of labels.
-/

namespace TryResources

/-- An entry of an exception table, with labels of type `ℓ`: code from `start` up to but not
including `stop` is protected by the handler that starts at `handler`. -/
structure Block (ℓ : Type) where
  start : ℓ
  stop : ℓ
  handler : ℓ
  /-- The type that is caught; without one, everything is. -/
  catchType : Option String := none
  deriving Repr, DecidableEq

namespace Block

variable {ℓ ℓ' : Type}

/-- Renames the labels of an entry. -/
def map (f : ℓ → ℓ') (b : Block ℓ) : Block ℓ' :=
  ⟨f b.start, f b.stop, f b.handler, b.catchType⟩

/-- The labels of an entry, in the order in which they are written. -/
def labels (b : Block ℓ) : List ℓ :=
  [b.start, b.stop, b.handler]

@[simp] theorem labels_map (f : ℓ → ℓ') (b : Block ℓ) : (b.map f).labels = b.labels.map f := rfl

end Block

/-- A method body together with its exception table. -/
structure Method where
  name : String
  desc : String
  code : Code
  blocks : List (Block LabelId)
  /-- The names of labels number 0, 1, 2 and so on. -/
  labelNames : List String := []
  deriving Repr, DecidableEq

namespace Method

/-- The name of a label, or its number if it has none. -/
def labelName (m : Method) (l : LabelId) : String :=
  m.labelNames[l.index]?.getD l.render

/-- Where the handler of a table entry starts, if its label is defined. The nodes are those that the
method was made of. -/
def handlerPosition? (m : Method) (b : Block LabelId) : Option Nat :=
  m.code.labelPosition? b.handler

/-- The node at a position, written with the names of labels. -/
def render (m : Method) (p : Nat) : Except Fault String :=
  (m.code.get p).map fun n => n.render m.labelName

/-- Name and descriptor, as in the head of a report. -/
def signature (m : Method) : String :=
  m.name ++ m.desc

theorem render_eq_ok_iff (m : Method) (p : Nat) : (∃ s, m.render p = .ok s) ↔ p < m.code.size := by
  rw [← Code.get_eq_ok_iff]
  unfold render
  cases m.code.get p <;> simp [Except.map]

end Method

end TryResources
