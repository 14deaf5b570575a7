import TryResources.Method.Builder

/-!
# Building methods with tables

How a builder keeps what it knows of labels: a table of names with their numbers, a set of the labels
that have been placed, and, in a finished method, one table of positions and one of names. A number
is the size of the table of names before the name is entered, or what is left of that in 32 bits. So
two names have the same number if one is used 2³² names after the other.

Tables are lists of entries. A table is looked up from the front, so an entry that is put in front
takes the place of an older one. To finish the method, the table of names is turned around entry by
entry; the entries may come in any order.
-/

namespace TryResources

/-- How many numbers there are in 32 bits: 2³². -/
def LabelId.limit : Nat := 4294967296

/-- What is left of a number in 32 bits. -/
def LabelId.wrap (l : LabelId) : LabelId :=
  ⟨l.index % LabelId.limit⟩

/-- The labels that a body defines with their positions, the last one first. -/
def Code.definitions (c : Code) : List (LabelId × Nat) :=
  (c.nodes.toList.zipIdx.filterMap fun (n, p) => n.label?.map (·, p)).reverse

/-- A finished method with its tables. They are made once: the nodes do not change any more. -/
structure TableMethod where
  name : String
  desc : String
  code : Code
  blocks : List (Block LabelId)
  /-- Where labels are defined. -/
  positions : List (LabelId × Nat)
  /-- How labels are called. -/
  names : List (LabelId × String)
  deriving Repr, DecidableEq

namespace TableMethod

/-- Where a label is defined. -/
def labelPosition? (m : TableMethod) (l : LabelId) : Option Nat :=
  m.positions.lookup l

/-- The name of a label, or its number if it has none. -/
def labelName (m : TableMethod) (l : LabelId) : String :=
  (m.names.lookup l).getD l.render

end TableMethod

/-- A method that is being described. -/
structure TableBuilder where
  name : String
  desc : String
  code : Code := {}
  blocks : List (Block LabelId) := []
  /-- The numbers of names. -/
  labels : List (String × LabelId) := []
  /-- The labels that have been placed. -/
  placed : List LabelId := []
  /-- The first error. -/
  error : Option MethodError := none
  deriving Repr, DecidableEq

namespace TableBuilder

/-- The number of a name: the one in the table, or the next one. -/
def labelOf (t : TableBuilder) (name : String) : LabelId :=
  (t.labels.lookup name).getD (LabelId.wrap ⟨t.labels.length⟩)

/-- Enters a name, unless it is in the table. -/
def intern (t : TableBuilder) (name : String) : TableBuilder :=
  if (t.labels.lookup name).isSome then t
  else { t with labels := t.labels ++ [(name, t.labelOf name)] }

/-- Records an error; only the first counts. -/
def fail (t : TableBuilder) (e : MethodError) : TableBuilder :=
  { t with error := t.error <|> some e }

/-- Takes down that a label is placed, or that it is placed again. -/
def notePlace (t : TableBuilder) : Node String → TableBuilder
  | .label name =>
    if t.labelOf name ∈ t.placed then t.fail (.duplicateLabel name)
    else { t with placed := t.labelOf name :: t.placed }
  | _ => t

/-- Appends a node whose labels have been entered. -/
def push (t : TableBuilder) (node : Node String) : TableBuilder :=
  { t with code := t.code.push (node.map t.labelOf) }

/-- Carries out one directive. -/
def apply (t : TableBuilder) (d : Directive) : TableBuilder :=
  let t := d.labels.foldl intern t
  match d with
  | .reserve _ => t
  | .emit node => (t.notePlace node).push node
  | .protect block => { t with blocks := t.blocks ++ [block.map t.labelOf] }

/-- Carries out directives in order. -/
def run (t : TableBuilder) (ds : List Directive) : TableBuilder :=
  ds.foldl apply t

/-- Turns entries around, unless one of them is of a label that has not been placed. -/
def invert (placed : List LabelId) :
    List (String × LabelId) → List (LabelId × String) → Except MethodError (List (LabelId × String))
  | [], names => .ok names
  | (name, l) :: entries, names =>
    if l ∈ placed then invert placed entries ((l, name) :: names)
    else .error (.undefinedLabel name)

/-- Finishes a method, with the table of names in the given order. -/
def buildInOrder (t : TableBuilder) (entries : List (String × LabelId)) :
    Except MethodError TableMethod :=
  match t.error with
  | some e => .error e
  | none => do
    let names ← invert t.placed entries []
    match t.code.misfit? with
    | some (position, opcode) => .error (.operandMismatch position opcode)
    | none => return ⟨t.name, t.desc, t.code, t.blocks, t.code.definitions, names⟩

end TableBuilder

end TryResources
