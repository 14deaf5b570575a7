import TryResources.Opcode

/-!
# Nodes

What a method body consists of: instructions and, between them, markers (label definitions, line
numbers and stack frames) that do not execute. All of it is generic in the type of labels, so that
the same nodes serve a listing, which names its labels, and a finished method, which numbers them.

* `Node.render` writes a node as one line of text, given how to write a label.
* `Node.render_map`: renaming labels first and writing them afterwards is writing them by the
  composite.
-/

namespace TryResources

/-- A local variable slot. -/
abbrev Slot := Nat

/-- The number of a label within one method. Of any size here; see `TableBuilder` for numbers that
have to fit 32 bits. -/
structure LabelId where
  /-- The number itself. -/
  index : Nat
  deriving Repr, DecidableEq

/-- Without a name of its own, label number `n` is written `Ln`. -/
def LabelId.render (l : LabelId) : String :=
  "L" ++ toString l.index

/-- A reference to a method: declaring type, name and descriptor. -/
structure Member where
  owner : String
  name : String
  desc : String
  deriving Repr, DecidableEq

/-- A reference to a method is written `owner.name desc`. -/
def Member.render (m : Member) : String :=
  m.owner ++ "." ++ m.name ++ " " ++ m.desc

/-! ## Operands -/

/-- What follows an opcode, with labels of type `ℓ`. -/
inductive Operand (ℓ : Type)
  | none
  | slot (s : Slot)
  | target (l : ℓ)
  | member (m : Member)
  | type (name : String)
  deriving Repr, DecidableEq

namespace Operand

variable {ℓ ℓ' : Type}

/-- The shape of an operand. -/
def kind : Operand ℓ → OperandKind
  | none => .none
  | slot _ => .slot
  | target _ => .target
  | member _ => .member
  | type _ => .type

/-- The slot, if the operand is one. -/
def slot? : Operand ℓ → Option Slot
  | slot s => some s
  | _ => Option.none

/-- The jump target, if the operand is one. -/
def target? : Operand ℓ → Option ℓ
  | target l => some l
  | _ => Option.none

/-- The method reference, if the operand is one. -/
def member? : Operand ℓ → Option Member
  | member m => some m
  | _ => Option.none

/-- Renames the label of a jump target. -/
def map (f : ℓ → ℓ') : Operand ℓ → Operand ℓ'
  | none => none
  | slot s => slot s
  | target l => target (f l)
  | member m => member m
  | type t => type t

@[simp] theorem kind_map (f : ℓ → ℓ') (o : Operand ℓ) : (o.map f).kind = o.kind := by
  cases o <;> rfl

end Operand

/-! ## Instructions -/

/-- An opcode and what follows it. The two need not fit: `Instruction.fits` tells. -/
structure Instruction (ℓ : Type) where
  opcode : Opcode
  operand : Operand ℓ := .none
  deriving Repr, DecidableEq

namespace Instruction

variable {ℓ ℓ' : Type}

/-- The operand has the shape that the opcode asks for. -/
def fits (i : Instruction ℓ) : Bool :=
  i.opcode.operandKind == i.operand.kind

/-- Renames the label of a jump. -/
def map (f : ℓ → ℓ') (i : Instruction ℓ) : Instruction ℓ' :=
  ⟨i.opcode, i.operand.map f⟩

@[simp] theorem fits_map (f : ℓ → ℓ') (i : Instruction ℓ) : (i.map f).fits = i.fits := by
  simp [fits, map]

/-- An instruction is written as its mnemonic and, after a space, its operand. -/
def render (label : ℓ → String) (i : Instruction ℓ) : String :=
  match i.operand with
  | .none => i.opcode.mnemonic
  | .slot s => i.opcode.mnemonic ++ " " ++ toString s
  | .target l => i.opcode.mnemonic ++ " " ++ label l
  | .member m => i.opcode.mnemonic ++ " " ++ m.render
  | .type t => i.opcode.mnemonic ++ " " ++ t

@[simp] theorem render_map (f : ℓ → ℓ') (label : ℓ' → String) (i : Instruction ℓ) :
    (i.map f).render label = i.render (fun l => label (f l)) := by
  obtain ⟨op, operand⟩ := i
  cases operand <;> rfl

end Instruction

/-! ## Nodes -/

/-- Coarse classification of a node. -/
inductive NodeKind
  | localLoad | localStore | jump | labelMarker | lineMarker | frameMarker | invoke | throw | other
  deriving Repr, DecidableEq

/-- The name under which a class of nodes is reported. -/
def NodeKind.name : NodeKind → String
  | localLoad => "LocalLoad"
  | localStore => "LocalStore"
  | jump => "Jump"
  | labelMarker => "LabelMarker"
  | lineMarker => "LineMarker"
  | frameMarker => "FrameMarker"
  | invoke => "Invoke"
  | throw => "Throw"
  | other => "Other"

/-- The class that the first telling flag of an opcode gives. -/
def Opcode.nodeKind (op : Opcode) : NodeKind :=
  if op.flags.contains .load then .localLoad
  else if op.flags.contains .store then .localStore
  else if op.flags.contains .jump then .jump
  else if op.flags.contains .invoke then .invoke
  else if op.flags.contains .throw then .throw
  else .other

/-- One element of a method body. -/
inductive Node (ℓ : Type)
  /-- The definition of a label. -/
  | label (l : ℓ)
  /-- The source line that the following code belongs to. -/
  | line (number : Nat)
  /-- A stack map frame. -/
  | frame
  /-- Code that executes. -/
  | insn (i : Instruction ℓ)
  deriving Repr, DecidableEq

namespace Node

variable {ℓ ℓ' : Type}

/-- The class of a node. -/
def kind : Node ℓ → NodeKind
  | label _ => .labelMarker
  | line _ => .lineMarker
  | frame => .frameMarker
  | insn i => i.opcode.nodeKind

/-- Labels, line numbers and frames do not execute. -/
def isMarker : Node ℓ → Bool
  | insn _ => false
  | _ => true

/-- The instruction at a node that is no marker. -/
def insn? : Node ℓ → Option (Instruction ℓ)
  | insn i => some i
  | _ => none

/-- The label that a node defines. -/
def label? : Node ℓ → Option ℓ
  | label l => some l
  | _ => none

/-- Renames the labels that a node defines or jumps to. -/
def map (f : ℓ → ℓ') : Node ℓ → Node ℓ'
  | label l => label (f l)
  | line n => line n
  | frame => frame
  | insn i => insn (i.map f)

@[simp] theorem isMarker_map (f : ℓ → ℓ') (n : Node ℓ) : (n.map f).isMarker = n.isMarker := by
  cases n <;> rfl

/-- How a node is written: a label with a colon after it, a line number after `line`, a frame as
`frame`, an instruction by mnemonic and operand. Names of labels are written as they are. -/
def render (text : ℓ → String) : Node ℓ → String
  | label l => text l ++ ":"
  | line n => "line " ++ toString n
  | frame => "frame"
  | insn i => i.render text

@[simp] theorem render_map (f : ℓ → ℓ') (text : ℓ' → String) (n : Node ℓ) :
    (n.map f).render text = n.render (fun l => text (f l)) := by
  cases n <;> simp [map, render]

end Node

end TryResources
