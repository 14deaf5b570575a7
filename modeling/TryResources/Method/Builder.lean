import TryResources.Method
import TryResources.Method.Error

/-!
# Building methods

A method is described by a sequence of directives, in which labels go by name and may be used
before they are placed. The builder numbers the names in order of first use and collects nodes and
table entries; `Builder.build` then checks that no label is placed twice, that every label is
placed, and that operands fit their opcodes, in this order.

The names are kept in one list, and a number may be of any size. `TableBuilder` keeps a table, a set
and numbers of 32 bits instead; as long as 32 bits are enough, both come to the same
(`TableBuilder.Tracks.agrees`).

* `labelOf_intern_of_mem`: a name keeps the number that its first use gave it.
* `nodup_names_intern`: no name is numbered twice.
-/

namespace TryResources

/-- The first instruction whose operand does not fit its opcode. -/
def Code.misfit? (c : Code) : Option (Nat × Opcode) :=
  (List.range c.size).findSome? fun p =>
    match c.insn? p with
    | some i => if i.fits then none else some (p, i.opcode)
    | none => none

/-- One step in the description of a method. -/
inductive Directive
  /-- Gives a label its number without placing it. -/
  | reserve (name : String)
  /-- Appends a node. -/
  | emit (node : Node String)
  /-- Appends an entry to the exception table. -/
  | protect (block : Block String)
  deriving Repr, DecidableEq

/-- The labels that a node mentions: the one it defines or the one it jumps to. -/
def Node.labels {ℓ : Type} : Node ℓ → List ℓ
  | .label l => [l]
  | .insn ⟨_, .target l⟩ => [l]
  | _ => []

/-- The labels that a directive mentions, in the order in which they are numbered. -/
def Directive.labels : Directive → List String
  | reserve name => [name]
  | emit node => node.labels
  | protect block => block.labels

/-- A method that is being described. -/
structure Builder where
  name : String
  desc : String
  code : Code := {}
  blocks : List (Block LabelId) := []
  /-- The names of labels in order of first use. -/
  names : List String := []
  /-- The label that was the first to be placed a second time. -/
  repeated : Option String := none
  deriving Repr, DecidableEq

namespace Builder

/-- The number of a label: its place among the names, or behind them all if it is new. It is what is
left of it in 32 bits (`TableBuilder.labelOf`) for the first 2³² names. -/
def labelOf (b : Builder) (name : String) : LabelId :=
  ⟨b.names.idxOf name⟩

/-- Notes a name, unless it has been used before. -/
def intern (b : Builder) (name : String) : Builder :=
  if name ∈ b.names then b else { b with names := b.names ++ [name] }

/-- Some node defines the label called `name`. -/
def places (b : Builder) (name : String) : Bool :=
  b.code.nodes.contains (.label (b.labelOf name))

/-- The position of the next node. -/
def nextPosition (b : Builder) : Nat :=
  b.code.size

/-- The position of the node emitted last, or `0` before the first. -/
def lastPosition (b : Builder) : Nat :=
  b.code.size - 1

/-- Records a label that is placed again; only the first counts. -/
def noteRepeat (b : Builder) : Node String → Builder
  | .label name =>
    if b.places name then { b with repeated := b.repeated <|> some name } else b
  | _ => b

/-- Appends a node whose labels have been noted. -/
def push (b : Builder) (node : Node String) : Builder :=
  { b with code := b.code.push (node.map b.labelOf) }

/-- Carries out one directive. -/
def apply (b : Builder) (d : Directive) : Builder :=
  let b := d.labels.foldl intern b
  match d with
  | .reserve _ => b
  | .emit node => (b.noteRepeat node).push node
  | .protect block => { b with blocks := b.blocks ++ [block.map b.labelOf] }

/-- Carries out directives in order. -/
def run (b : Builder) (ds : List Directive) : Builder :=
  ds.foldl apply b

/-- Finishes a method, looking for labels without a definition in the given order. -/
def buildInOrder (b : Builder) (order : List String) : Except MethodError Method :=
  match b.repeated, order.find? (!b.places ·), b.code.misfit? with
  | some name, _, _ => .error (.duplicateLabel name)
  | none, some name, _ => .error (.undefinedLabel name)
  | none, none, some (position, opcode) => .error (.operandMismatch position opcode)
  | none, none, none => .ok ⟨b.name, b.desc, b.code, b.blocks, b.names⟩

/-- Finishes a method; of several labels without a definition the first used is reported. -/
def build (b : Builder) : Except MethodError Method :=
  b.buildInOrder b.names

/-! ## Numbering -/

@[simp] theorem names_intern (b : Builder) (name : String) :
    (b.intern name).names = if name ∈ b.names then b.names else b.names ++ [name] := by
  unfold intern
  split <;> rfl

/-- A name that has a number keeps it. -/
theorem labelOf_intern_of_mem {b : Builder} {name : String} (h : name ∈ b.names) (other : String) :
    (b.intern other).labelOf name = b.labelOf name := by
  simp only [labelOf, names_intern]
  split
  · rfl
  · rw [List.idxOf_append, if_pos h]

theorem nodup_names_intern {b : Builder} (h : b.names.Nodup) (name : String) :
    (b.intern name).names.Nodup := by
  rw [names_intern]
  split
  · exact h
  · rename_i hn
    exact List.nodup_append.2 ⟨h, by simp, fun x hx y hy e => by
      simp only [List.mem_singleton] at hy
      exact hn (hy ▸ e ▸ hx)⟩

end Builder

end TryResources
