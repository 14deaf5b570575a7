import TryResources.Code
import TryResources.Matching.Bindings

/-!
# Steps of a template

A template is a sequence of steps. Each moves the cursor and checks the node that it lands on: to
the next instruction, past any markers, or, for a label, to the very next node. A step that fails
leaves the cursor where it came to and the bindings as they were.

* `advances_of_read`: a step that succeeds moves forward, and stays inside the body.
* `advances_of_readAll`: so does a sequence of steps, by at least one node for each.
-/

namespace TryResources

/-! ## Methods that templates know -/

/-- The root of all that can be thrown. -/
def throwable : String := "java/lang/Throwable"

/-- The method that closes a resource. -/
def Member.isClose (m : Member) : Bool :=
  m.name == "close" && m.desc == "()V"

/-- The helper method that closes a resource. -/
def Member.isCloseHelper (m : Member) : Bool :=
  m.name == "$closeResource" && m.desc == "(Ljava/lang/Throwable;Ljava/lang/AutoCloseable;)V"

/-- The method that records a suppressed exception. -/
def Member.isAddSuppressed (m : Member) : Bool :=
  m == ⟨throwable, "addSuppressed", "(Ljava/lang/Throwable;)V"⟩

namespace Matching

/-! ## Steps -/

/-- One step of a template. -/
inductive Step
  /-- An instruction with this opcode. -/
  | op (op : Opcode)
  /-- An access to the local variable of this name. -/
  | slot (op : Opcode) (name : SlotName)
  /-- A jump to the label of this name. -/
  | jump (op : Opcode) (name : LabelName)
  /-- The definition of a label that a jump has named before. -/
  | label (name : LabelName)
  /-- A call of the `close` method of a resource, on the type that declares it. -/
  | close (r : Resource)
  /-- A call of the helper method that closes a resource and keeps the primary exception. -/
  | closeHelper
  /-- A call that records a suppressed exception. -/
  | addSuppressed
  deriving Repr, DecidableEq

/-- Where the reading of a template stands, and what its names stand for. -/
structure Reading where
  /-- The position of the node that was read last; none once the end has been passed. -/
  cursor : Option Nat := none
  bindings : Bindings := {}
  deriving Repr

namespace Step

/-- Checks an instruction, and returns the bindings as they are afterwards. -/
def acceptsInsn (s : Step) (i : Instruction LabelId) (b : Bindings) : Option Bindings :=
  match s with
  | op o => if i.opcode = o then some b else none
  | slot o name =>
    if i.opcode = o then do
      let found ← i.operand.slot?
      let slots ← b.slots.unify name found
      return { b with slots }
    else none
  | jump o name =>
    if i.opcode = o then do
      let found ← i.operand.target?
      let labels ← b.labels.unify name found
      return { b with labels }
    else none
  | label _ => none
  | close r =>
    if i.opcode = .invokevirtual ∨ i.opcode = .invokeinterface then do
      let m ← i.operand.member?
      if m.isClose then
        let owners ← b.owners.unify r m.owner
        return { b with owners }
      else none
    else none
  | closeHelper =>
    if i.opcode = .invokestatic then do
      let m ← i.operand.member?
      if m.isCloseHelper then return b else none
    else none
  | addSuppressed =>
    if i.opcode = .invokevirtual then do
      let m ← i.operand.member?
      if m.isAddSuppressed then return b else none
    else none

/-- Checks a node, and returns the bindings as they are afterwards. -/
def accepts (s : Step) (n : Node LabelId) (b : Bindings) : Option Bindings :=
  match s, n with
  | label name, .label l => if b.labels.get? name = some l then some b else none
  | s, .insn i => s.acceptsInsn i b
  | _, _ => none

/-- Where a step goes from a position. -/
def target? (s : Step) (code : Code) (p : Nat) : Option Nat :=
  match s with
  | label _ => code.next? p
  | _ => code.nextInsn? p

/-- Carries out a step. An error holds the reading that a failed step leaves. -/
def read (code : Code) (s : Step) (r : Reading) : Except Reading Reading :=
  match r.cursor.bind (s.target? code) with
  | none => .error { r with cursor := none }
  | some p =>
    match (code.get? p).bind fun n => s.accepts n r.bindings with
    | none => .error { r with cursor := some p }
    | some bindings => .ok ⟨some p, bindings⟩

/-- Carries out steps in order, up to the first that fails. -/
def readAll (code : Code) (steps : List Step) (r : Reading) : Except Reading Reading :=
  steps.foldlM (fun r s => s.read code r) r

@[simp] theorem readAll_nil (code : Code) (r : Reading) : readAll code [] r = .ok r := rfl

@[simp] theorem readAll_cons (code : Code) (s : Step) (steps : List Step) (r : Reading) :
    readAll code (s :: steps) r = (s.read code r).bind (readAll code steps) := rfl

theorem readAll_append (code : Code) (xs ys : List Step) (r : Reading) :
    readAll code (xs ++ ys) r = (readAll code xs r).bind (readAll code ys) := by
  induction xs generalizing r with
  | nil => rfl
  | cons x xs ih =>
    simp only [List.cons_append, readAll_cons]
    cases x.read code r with
    | error e => rfl
    | ok r' => exact ih r'

/-! ## Progress -/

theorem lt_of_target? {s : Step} {code : Code} {p q : Nat} (h : s.target? code p = some q) :
    p < q ∧ q < code.size := by
  have insn (h : code.nextInsn? p = some q) : p < q ∧ q < code.size :=
    ⟨(Code.nextInsn?_eq_some h).1, (Code.nextInsn?_eq_some h).2.1⟩
  cases s with
  | label _ =>
    simp only [target?, Code.next?] at h
    split at h
    · obtain rfl := Option.some.inj h
      omega
    · cases h
  | _ => exact insn h

/-- From `p`, some steps lead to `r`: forward by at least `count` nodes and inside the body. -/
def Advances (code : Code) (r : Reading) (count : Nat) (r' : Reading) : Prop :=
  ∃ p q, r.cursor = some p ∧ r'.cursor = some q ∧ p + count ≤ q ∧ q < code.size

/-- A step that succeeds moves forward, and stays inside the body. -/
theorem advances_of_read {code : Code} {s : Step} {r r' : Reading}
    (h : s.read code r = .ok r') : Advances code r 1 r' := by
  unfold read at h
  split at h
  · cases h
  · rename_i q hq
    obtain ⟨p, hp, hpq⟩ := Option.bind_eq_some_iff.1 hq
    split at h
    · cases h
    · cases h
      exact ⟨p, q, hp, rfl, (lt_of_target? hpq).1, (lt_of_target? hpq).2⟩

/-- A sequence of steps that succeeds moves forward by at least one node for each. -/
theorem advances_of_readAll {code : Code} {steps : List Step} {r r' : Reading}
    (hne : steps ≠ []) (h : readAll code steps r = .ok r') :
    Advances code r steps.length r' := by
  induction steps generalizing r with
  | nil => exact absurd rfl hne
  | cons s steps ih =>
    simp only [readAll_cons] at h
    cases hs : s.read code r with
    | error e => simp [hs, Except.bind] at h
    | ok r₁ =>
      simp only [hs, Except.bind] at h
      obtain ⟨p, q, hp, hq, hpq, hlt⟩ := advances_of_read hs
      cases steps with
      | nil =>
        obtain rfl : r₁ = r' := by simpa using h
        exact ⟨p, q, hp, hq, hpq, hlt⟩
      | cons t rest =>
        obtain ⟨q', v, hq', hv, hqv, hvlt⟩ := ih (by simp) h
        obtain rfl : q = q' := Option.some.inj (hq.symm.trans hq')
        refine ⟨p, v, hp, hv, ?_, hvlt⟩
        simp only [List.length_cons] at hqv ⊢
        omega

end Step

namespace Reading

/-- The number of nodes from the cursor on. -/
def remaining (code : Code) (r : Reading) : Nat :=
  match r.cursor with
  | none => 0
  | some p => code.size - p

theorem remaining_lt_of_readAll {code : Code} {steps : List Step} {r r' : Reading}
    (hne : steps ≠ []) (h : Step.readAll code steps r = .ok r') :
    r'.remaining code < r.remaining code := by
  obtain ⟨p, q, hp, hq, hpq, hlt⟩ := Step.advances_of_readAll hne h
  have : 0 < steps.length := List.length_pos_iff.2 hne
  simp only [remaining, hp, hq]
  omega

end Reading

end Matching

end TryResources
