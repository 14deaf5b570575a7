import TryResources.Proofs.Blockwise
import TryResources.Proofs.Exclusion
import TryResources.Proofs.Simulation

/-!
# Other names

Which local variables a compiler takes, how it numbers its labels and on which types the methods
are declared that close resources does not matter to the filter: it only asks whether two of them
are the same. The type that declares the helper method is not even asked for.

* `Renaming`, `Method.rename`: other names for what a method uses.
* `Table.unify_mapValues`: meeting a name at a renamed place.
* `Step.respects_rename`: a step accepts a renamed node exactly where it accepted the node.
* `Options.ignoredRanges_rename`: so the ranges of a method are the same under any names.
-/

namespace TryResources

open Matching

/-- Other names for the local variables, the labels and the types of resources of a method, such
that what was different stays different, and any types for its helper method: `helper p` declares
the one that is called at position `p`. -/
structure Renaming where
  slot : Slot → Slot
  label : LabelId → LabelId
  owner : String → String
  helper : Nat → String
  slot_injective : Function.Injective slot
  label_injective : Function.Injective label
  owner_injective : Function.Injective owner

variable {ρ : Renaming} {p : Nat} {m : Member}

/-! ## Renamed methods -/

/-- Methods that close a resource are declared by other types. -/
def Member.rename (ρ : Renaming) (p : Nat) (m : Member) : Member :=
  if m.isClose then { m with owner := ρ.owner m.owner }
  else if m.name = "$closeResource" then { m with owner := ρ.helper p }
  else m

def Operand.rename (ρ : Renaming) (p : Nat) : Operand LabelId → Operand LabelId
  | slot s => slot (ρ.slot s)
  | target l => target (ρ.label l)
  | member m => member (m.rename ρ p)
  | o => o

def Node.rename (ρ : Renaming) (p : Nat) : Node LabelId → Node LabelId
  | label l => label (ρ.label l)
  | insn i => insn ⟨i.opcode, i.operand.rename ρ p⟩
  | n => n

/-- A method under other names, which its exception table uses as well. -/
def Method.rename (ρ : Renaming) (m : Method) : Method :=
  { m with
    code := m.code.mapNodes (Node.rename ρ)
    blocks := m.blocks.map (Block.map ρ.label) }

theorem keepsOpcodes_rename (ρ : Renaming) : KeepsOpcodes (Node.rename ρ) := by
  intro p n
  cases n <;> rfl

namespace Member

theorem rename_of_isClose (h : m.isClose = true) :
    m.rename ρ p = { m with owner := ρ.owner m.owner } :=
  if_pos h

/-- Only the type that declares a method is changed. -/
theorem rename_eq (ρ : Renaming) (p : Nat) (m : Member) :
    ∃ owner, m.rename ρ p = { m with owner } := by
  unfold rename
  split
  · exact ⟨_, rfl⟩
  · split
    · exact ⟨_, rfl⟩
    · exact ⟨m.owner, rfl⟩

@[simp] theorem isClose_rename (ρ : Renaming) (p : Nat) (m : Member) :
    (m.rename ρ p).isClose = m.isClose := by
  obtain ⟨owner, h⟩ := m.rename_eq ρ p
  rw [h]
  rfl

@[simp] theorem isCloseHelper_rename (ρ : Renaming) (p : Nat) (m : Member) :
    (m.rename ρ p).isCloseHelper = m.isCloseHelper := by
  obtain ⟨owner, h⟩ := m.rename_eq ρ p
  rw [h]
  rfl

@[simp] theorem isAddSuppressed_rename (ρ : Renaming) (p : Nat) (m : Member) :
    (m.rename ρ p).isAddSuppressed = m.isAddSuppressed := by
  by_cases hname : m.name = "addSuppressed"
  · -- the method that records a suppressed exception keeps its type
    have hclose : m.isClose = false := by simp [isClose, hname]
    have hhelper : m.name ≠ "$closeResource" := by simp [hname]
    rw [rename, if_neg (by simp [hclose]), if_neg hhelper]
  · obtain ⟨owner, h⟩ := m.rename_eq ρ p
    rw [h]
    obtain ⟨o, name, desc⟩ := m
    have hname' : name ≠ "addSuppressed" := hname
    simp [isAddSuppressed, hname']

end Member

namespace Operand

variable (ρ : Renaming) (p : Nat) (o : Operand LabelId)

@[simp] theorem slot?_rename : (o.rename ρ p).slot? = o.slot?.map ρ.slot := by
  cases o <;> rfl

@[simp] theorem target?_rename : (o.rename ρ p).target? = o.target?.map ρ.label := by
  cases o <;> rfl

@[simp] theorem member?_rename : (o.rename ρ p).member? = o.member?.map (Member.rename ρ p) := by
  cases o <;> rfl

end Operand

/-! ## Renamed bindings -/

namespace Matching

namespace Table

variable {κ ν ν' : Type} [DecidableEq κ] {g : ν → ν'}

/-- A table whose names stand for something else. -/
def mapValues (g : ν → ν') (t : Table κ ν) : Table κ ν' :=
  ⟨t.entries.map fun (name, value) => (name, g value)⟩

theorem get?_mapValues (g : ν → ν') (t : Table κ ν) (name : κ) :
    (t.mapValues g).get? name = (t.get? name).map g := by
  obtain ⟨entries⟩ := t
  induction entries with
  | nil => rfl
  | cons entry entries ih =>
    obtain ⟨other, value⟩ := entry
    simp only [mapValues, get?, List.map_cons, List.lookup_cons] at ih ⊢
    by_cases hname : name = other
    · simp [hname]
    · rw [beq_false_of_ne hname]
      exact ih

/-- What is found has another name, and so has what it is compared with. -/
theorem unify_mapValues [DecidableEq ν] [DecidableEq ν'] (hg : Function.Injective g)
    (t : Table κ ν) (name : κ) (found : ν) :
    (t.mapValues g).unify name (g found) = (t.unify name found).map (mapValues g) := by
  unfold unify
  rw [get?_mapValues]
  cases t.get? name with
  | none => rfl
  | some known =>
    by_cases hknown : known = found
    · simp [hknown]
    · simp [hknown, hg.ne hknown]

end Table

def Bindings.rename (ρ : Renaming) (b : Bindings) : Bindings :=
  ⟨b.slots.mapValues ρ.slot, b.labels.mapValues ρ.label, b.owners.mapValues ρ.owner⟩

namespace Step

theorem accepts_insn (s : Step) (i : Instruction LabelId) (b : Bindings) :
    s.accepts (.insn i) b = s.acceptsInsn i b := by
  cases s <;> rfl

/-- What a step does with an operand it does with a renamed one, if each thing that it may find
leads to the same. -/
theorem map_bind_eq_map {α β γ δ : Type} {f : α → β} {g : γ → δ} {k : α → Option γ}
    {k' : β → Option δ} (x : Option α) (h : ∀ a, k' (f a) = (k a).map g) :
    (x.map f).bind k' = (x.bind k).map g := by
  cases x with
  | none => rfl
  | some a => exact h a

theorem acceptsInsn_rename (ρ : Renaming) (s : Step) (p : Nat) (i : Instruction LabelId)
    (b : Bindings) :
    s.acceptsInsn ⟨i.opcode, i.operand.rename ρ p⟩ (b.rename ρ) =
      (s.acceptsInsn i b).map (Bindings.rename ρ) := by
  cases s with
  | op o =>
    simp only [acceptsInsn]
    split <;> rfl
  | slot o name =>
    simp only [acceptsInsn, Operand.slot?_rename]
    split
    · refine map_bind_eq_map _ fun found => ?_
      show ((b.slots.mapValues ρ.slot).unify name (ρ.slot found)).bind _ = _
      rw [Table.unify_mapValues ρ.slot_injective]
      exact map_bind_eq_map _ fun _ => rfl
    · rfl
  | jump o name =>
    simp only [acceptsInsn, Operand.target?_rename]
    split
    · refine map_bind_eq_map _ fun found => ?_
      show ((b.labels.mapValues ρ.label).unify name (ρ.label found)).bind _ = _
      rw [Table.unify_mapValues ρ.label_injective]
      exact map_bind_eq_map _ fun _ => rfl
    · rfl
  | label name => rfl
  | close r =>
    simp only [acceptsInsn, Operand.member?_rename]
    split
    · refine map_bind_eq_map _ fun m => ?_
      rw [Member.isClose_rename]
      by_cases hclose : m.isClose = true
      · rw [if_pos hclose, if_pos hclose, Member.rename_of_isClose hclose]
        show ((b.owners.mapValues ρ.owner).unify r (ρ.owner m.owner)).bind _ = _
        rw [Table.unify_mapValues ρ.owner_injective]
        exact map_bind_eq_map _ fun _ => rfl
      · rw [if_neg hclose, if_neg hclose]
        rfl
    · rfl
  | closeHelper =>
    simp only [acceptsInsn, Operand.member?_rename]
    split
    · refine map_bind_eq_map _ fun m => ?_
      rw [Member.isCloseHelper_rename]
      split <;> rfl
    · rfl
  | addSuppressed =>
    simp only [acceptsInsn, Operand.member?_rename]
    split
    · refine map_bind_eq_map _ fun m => ?_
      rw [Member.isAddSuppressed_rename]
      split <;> rfl
    · rfl

theorem accepts_label_rename (ρ : Renaming) (name : LabelName) (l : LabelId) (b : Bindings) :
    (label name).accepts (.label (ρ.label l)) (b.rename ρ) =
      ((label name).accepts (.label l) b).map (Bindings.rename ρ) := by
  have hget : (b.rename ρ).labels.get? name = (b.labels.get? name).map ρ.label :=
    Table.get?_mapValues ρ.label b.labels name
  simp only [accepts, hget]
  cases b.labels.get? name with
  | none => rfl
  | some known =>
    by_cases hknown : known = l
    · simp [hknown]
    · simp [hknown, ρ.label_injective.ne hknown]

/-- No step minds other names. -/
theorem respects_rename (ρ : Renaming) (s : Step) :
    s.Respects (Node.rename ρ) (Bindings.rename ρ) := by
  intro p n b
  cases n with
  | insn i =>
    rw [accepts_insn]
    exact (s.accepts_insn _ _).trans (acceptsInsn_rename ρ s p i b)
  | label l =>
    cases s with
    | label name => exact accepts_label_rename ρ name l b
    | _ => rfl
  | _ => cases s <;> rfl

end Step

end Matching

/-! ## Ranges -/

/-- A renamed label is defined where the label was. -/
theorem Code.labelPosition?_rename (ρ : Renaming) (c : Code) (l : LabelId) :
    (c.mapNodes (Node.rename ρ)).labelPosition? (ρ.label l) = c.labelPosition? l := by
  have hlabel (n : Node LabelId) (p : Nat) : n.rename ρ p = .label (ρ.label l) ↔ n = .label l := by
    cases n with
    | label l' => simp [Node.rename, ρ.label_injective.eq_iff]
    | _ => simp [Node.rename]
  unfold labelPosition?
  rw [size_mapNodes]
  congr 1
  funext p
  rw [get?_mapNodes, Bool.eq_iff_iff, beq_iff_eq, beq_iff_eq]
  cases c.get? p with
  | none => simp
  | some n => simp [hlabel]

namespace Options

theorem contribution_rename (ρ : Renaming) (o : Options) (c : Code) (handler : Option Nat)
    (catchType : Option String) :
    o.contribution (c.mapNodes (Node.rename ρ)) handler catchType =
      o.contribution c handler catchType := by
  have hrecognise (s : Nat) : o.recognise (c.mapNodes (Node.rename ρ)) s catchType =
      o.recognise c s catchType := by
    have hattempt (t : Template) := attempt_mapNodes (g := Bindings.rename ρ)
      (keepsOpcodes_rename ρ) rfl (Step.respects_rename ρ) c t {} s
    simp only [recognise, hattempt]
  simp only [contribution, statement?, hrecognise]

/-- **Names do not matter.** Give the local variables of a method other numbers, its labels other
ids, in the body and in the exception table, and the types that declare its `close` methods other
names, such that what was different stays different; and give its helper methods any types at all.
The filter reports the same ranges in the same order. -/
theorem ignoredRanges_rename (ρ : Renaming) (o : Options) (m : Method) :
    o.ignoredRanges (m.rename ρ) = o.ignoredRanges m := by
  rw [ignoredRanges_eq_flatMap, ignoredRanges_eq_flatMap]
  show Except.ok ((m.blocks.map (Block.map ρ.label)).flatMap _) = _
  rw [List.flatMap_map]
  congr 1
  refine List.flatMap_congr ?_
  intro b _
  have hposition : (m.rename ρ).handlerPosition? (b.map ρ.label) = m.handlerPosition? b :=
    Code.labelPosition?_rename ρ m.code b.handler
  rw [hposition]
  exact contribution_rename ρ o m.code (m.handlerPosition? b) b.catchType

/-- Other numbers, and all types in another package. -/
def moved : Renaming where
  slot s := s + 10
  label l := ⟨l.index + 100⟩
  owner type := "moved/" ++ type
  helper p := "moved/Helper" ++ toString p
  slot_injective _ _ h := Nat.add_right_cancel h
  label_injective := by
    intro l l' h
    cases l
    cases l'
    simpa using h
  owner_injective := by
    intro type type' h
    rw [← String.toList_inj] at h ⊢
    simpa using h

theorem ignoredRanges_rename_twoStatements :
    let blocks : List (Block LabelId) :=
      [⟨⟨0⟩, ⟨1⟩, ⟨1⟩, some throwable⟩, ⟨⟨1⟩, ⟨3⟩, ⟨3⟩, none⟩]
    let m : Method := { name := "m", desc := "()V", code := twoStatements, blocks }
    m.rename moved ≠ m ∧ ({} : Options).ignoredRanges (m.rename moved) =
      .ok [⟨1, 3, by decide⟩, ⟨5, 15, by decide⟩, ⟨16, 21, by decide⟩, ⟨23, 46, by decide⟩] := by
  intro blocks m
  have hranges : ({} : Options).ignoredRanges m =
      .ok [⟨1, 3, by decide⟩, ⟨5, 15, by decide⟩, ⟨16, 21, by decide⟩, ⟨23, 46, by decide⟩] := by
    decide +kernel
  exact ⟨by decide +kernel, (ignoredRanges_rename moved {} m).trans hranges⟩

end Options

end TryResources
