import TryResources.Node
import TryResources.Position

/-!
# Method bodies

A method body is a sequence of nodes, walked node by node (`Code.next?`) or from instruction to
instruction (`Code.nextInsn?`), and searched for the definition of a label
(`Code.labelPosition?`).

* `get_eq_ok_iff`: asking for a node succeeds exactly inside the body.
* `nextInsn?_eq_some`: the next instruction lies behind the start, inside the body, and only
  markers lie between.
-/

namespace TryResources

/-- A method body. -/
structure Code where
  /-- The nodes, in the order in which they were emitted. -/
  nodes : Array (Node LabelId) := #[]
  deriving Repr, DecidableEq

namespace Code

/-- A body made of the given nodes. -/
def ofList (nodes : List (Node LabelId)) : Code :=
  ⟨nodes.toArray⟩

/-- The number of nodes. -/
def size (c : Code) : Nat :=
  c.nodes.size

/-- A body without a node. -/
def isEmpty (c : Code) : Bool :=
  c.nodes.isEmpty

/-- Appends a node; its position is the size that the body had before. -/
def push (c : Code) (n : Node LabelId) : Code :=
  ⟨c.nodes.push n⟩

@[simp] theorem size_push (c : Code) (n : Node LabelId) : (c.push n).size = c.size + 1 := by
  simp [size, push]

/-- The node at a position, if there is one. -/
def get? (c : Code) (p : Nat) : Option (Node LabelId) :=
  c.nodes[p]?

@[simp] theorem get?_ofList (nodes : List (Node LabelId)) (p : Nat) :
    (ofList nodes).get? p = nodes[p]? := by
  simp [get?, ofList]

theorem get?_eq_none_iff (c : Code) (p : Nat) : c.get? p = none ↔ c.size ≤ p := by
  simp [get?, size]

/-- The node at a position; there has to be one. -/
def get (c : Code) (p : Nat) : Except Fault (Node LabelId) :=
  match c.get? p with
  | some n => .ok n
  | none => .error (.indexOutOfBounds c.size p)

theorem get_eq_ok_iff (c : Code) (p : Nat) : (∃ n, c.get p = .ok n) ↔ p < c.size := by
  unfold get
  cases h : c.get? p with
  | none => simpa using (get?_eq_none_iff c p).1 h
  | some n =>
    have : ¬ c.size ≤ p := fun hle => by simp [(get?_eq_none_iff c p).2 hle] at h
    simp; omega

/-- The instruction at a position, if an instruction is there. -/
def insn? (c : Code) (p : Nat) : Option (Instruction LabelId) :=
  (c.get? p).bind Node.insn?

/-! ## Walking -/

/-- The position after `p`, if a node is there. -/
def next? (c : Code) (p : Nat) : Option Nat :=
  if p + 1 < c.size then some (p + 1) else none

/-- The position of the first instruction behind `p`: labels, lines and frames are passed over. -/
def nextInsn? (c : Code) (p : Nat) : Option Nat :=
  if h : p + 1 < c.nodes.size then
    if c.nodes[p + 1].isMarker then nextInsn? c (p + 1) else some (p + 1)
  else none
termination_by c.nodes.size - p

/-- The next instruction lies behind the start, inside the body, and only markers lie between. -/
theorem nextInsn?_eq_some {c : Code} {p q : Nat} (h : c.nextInsn? p = some q) :
    p < q ∧ q < c.size ∧ (∀ n, c.get? q = some n → n.isMarker = false) ∧
      ∀ r, p < r → r < q → ∃ n, c.get? r = some n ∧ n.isMarker = true := by
  fun_induction nextInsn? c p with
  | case1 p hlt hm ih =>
    obtain ⟨hpq, hq, hn, hbetween⟩ := ih h
    refine ⟨by omega, hq, hn, fun r hpr hrq => ?_⟩
    rcases Nat.lt_or_ge (p + 1) r with hr | hr
    · exact hbetween r hr hrq
    · obtain rfl : r = p + 1 := by omega
      exact ⟨c.nodes[p + 1], by simp [get?, hlt], hm⟩
  | case2 p hlt hm =>
    obtain rfl : p + 1 = q := by simpa using h
    refine ⟨by omega, hlt, fun n hn => ?_, fun r _ _ => by omega⟩
    simp [get?, hlt] at hn
    simpa [← hn] using hm
  | case3 => simp at h

/-- Where a label is defined; of several definitions the last counts. -/
def labelPosition? (c : Code) (l : LabelId) : Option Nat :=
  (List.range c.size).reverse.find? fun p => c.get? p == some (.label l)

theorem get?_of_labelPosition? {c : Code} {l : LabelId} {p : Nat}
    (h : c.labelPosition? l = some p) : c.get? p = some (.label l) := by
  simpa using List.find?_some h

end Code

end TryResources
