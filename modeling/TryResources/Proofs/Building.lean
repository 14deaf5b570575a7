import Mathlib.Data.List.Basic
import TryResources.Method.Builder

/-!
# What a builder has been told

A builder numbers labels as it meets them, and writes nodes and table entries with these numbers.
Numbers never change, so all that it has written are the nodes and entries that it was given, each
with its labels under the numbers that they have in the end.

* `Builder.Extends`: a builder that knows more names.
* `Builder.Describes`: a builder that has written down directives.
* `Describes.apply`, `Describes.run`: what is written down stays written down, for one more directive
  and for a sequence of them.
* `buildInOrder_eq_ok_iff`: when a method is finished.
* `labelName_labelOf`: a finished method gives its labels their names back.
-/

namespace TryResources

/-! ## What labels matter -/

section

variable {ℓ ℓ' : Type} {f g : ℓ → ℓ'}

/-- Only the labels that a node mentions are renamed. -/
theorem Node.map_congr {n : Node ℓ} (h : ∀ l ∈ n.labels, f l = g l) : n.map f = n.map g := by
  cases n with
  | label l => exact congrArg Node.label (h l (by simp [labels]))
  | insn i =>
    obtain ⟨op, o⟩ := i
    cases o with
    | target l => simp [map, Instruction.map, Operand.map, h l (by simp [labels])]
    | _ => rfl
  | _ => rfl

theorem Node.map_map {ℓ'' : Type} (f : ℓ → ℓ') (g : ℓ' → ℓ'') (n : Node ℓ) :
    (n.map f).map g = n.map (fun l => g (f l)) := by
  cases n with
  | insn i =>
    obtain ⟨op, o⟩ := i
    cases o <;> rfl
  | _ => rfl

@[simp] theorem Node.labels_map (f : ℓ → ℓ') (n : Node ℓ) : (n.map f).labels = n.labels.map f := by
  cases n with
  | insn i =>
    obtain ⟨op, o⟩ := i
    cases o <;> rfl
  | _ => rfl

theorem Node.map_eq_label_iff {n : Node ℓ} {l : ℓ'} :
    n.map f = .label l ↔ ∃ x, n = .label x ∧ f x = l := by
  cases n <;> simp [map]

/-- Only the labels that a node mentions are written. -/
theorem Node.render_congr {text text' : ℓ → String} {n : Node ℓ}
    (h : ∀ l ∈ n.labels, text l = text' l) : n.render text = n.render text' := by
  cases n with
  | label l => simp [render, h l (by simp [labels])]
  | insn i =>
    obtain ⟨op, o⟩ := i
    cases o with
    | target l => simp [render, Instruction.render, h l (by simp [labels])]
    | _ => rfl
  | _ => rfl

theorem Block.map_map {ℓ'' : Type} (f : ℓ → ℓ') (g : ℓ' → ℓ'') (b : Block ℓ) :
    (b.map f).map g = b.map (fun l => g (f l)) := rfl

theorem Block.map_congr {b : Block ℓ} (h : ∀ l ∈ b.labels, f l = g l) : b.map f = b.map g := by
  obtain ⟨start, stop, handler, catchType⟩ := b
  simp only [labels, List.mem_cons, List.not_mem_nil, or_false, forall_eq_or_imp, forall_eq] at h
  obtain ⟨hstart, hstop, hhandler⟩ := h
  simp only [map, hstart, hstop, hhandler]

end

/-- The node that a directive appends. -/
def Directive.node? : Directive → Option (Node String)
  | emit node => some node
  | _ => none

/-- The table entry that a directive appends. -/
def Directive.block? : Directive → Option (Block String)
  | protect block => some block
  | _ => none

theorem Directive.labels_of_node? {d : Directive} {n : Node String} (h : d.node? = some n) :
    d.labels = n.labels := by
  cases d <;> cases h
  rfl

theorem Directive.labels_of_block? {d : Directive} {b : Block String} (h : d.block? = some b) :
    d.labels = b.labels := by
  cases d <;> cases h
  rfl

namespace Builder

/-! ## More names -/

/-- A builder has written the same as before, and the names that were known keep their numbers. -/
structure Extends (b b' : Builder) : Prop where
  code : b'.code = b.code
  blocks : b'.blocks = b.blocks
  mem : ∀ x ∈ b.names, x ∈ b'.names
  labelOf : ∀ x ∈ b.names, b'.labelOf x = b.labelOf x

variable {b b' b'' : Builder} {ds : List Directive} {m : Method} {x : String}

theorem Extends.refl (b : Builder) : b.Extends b :=
  ⟨rfl, rfl, fun _ h => h, fun _ _ => rfl⟩

theorem Extends.trans (h : b.Extends b') (h' : b'.Extends b'') : b.Extends b'' where
  code := h'.code.trans h.code
  blocks := h'.blocks.trans h.blocks
  mem x hx := h'.mem x (h.mem x hx)
  labelOf x hx := (h'.labelOf x (h.mem x hx)).trans (h.labelOf x hx)

theorem mem_names_intern (b : Builder) (x : String) : x ∈ (b.intern x).names := by
  rw [names_intern]
  split
  · assumption
  · simp

theorem extends_intern (b : Builder) (x : String) : b.Extends (b.intern x) := by
  by_cases hx : x ∈ b.names
  · have hsame : b.intern x = b := if_pos hx
    rw [hsame]
    exact .refl b
  · have hlabel : ∀ y ∈ b.names, (b.intern x).labelOf y = b.labelOf y := by
      intro y hy
      exact labelOf_intern_of_mem hy x
    have hnew : b.intern x = { b with names := b.names ++ [x] } := if_neg hx
    rw [hnew] at hlabel ⊢
    exact ⟨rfl, rfl, fun y hy => List.mem_append_left _ hy, hlabel⟩

/-- Noting labels, a builder comes to know them all, and forgets none. -/
theorem extends_foldl_intern (b : Builder) (xs : List String) :
    b.Extends (xs.foldl intern b) ∧ ∀ x ∈ xs, x ∈ (xs.foldl intern b).names := by
  induction xs generalizing b with
  | nil => exact ⟨.refl b, by simp⟩
  | cons x xs ih =>
    obtain ⟨hextends, hall⟩ := ih (b.intern x)
    refine ⟨(b.extends_intern x).trans hextends, ?_⟩
    intro y hy
    rcases List.mem_cons.1 hy with rfl | hy
    · exact hextends.mem y (b.mem_names_intern y)
    · exact hall y hy

/-! ## What has been written -/

/-- A builder knows all labels of some directives, and has written their nodes and table entries in
order. -/
structure Describes (b : Builder) (ds : List Directive) : Prop where
  mem : ∀ d ∈ ds, ∀ x ∈ d.labels, x ∈ b.names
  nodes : b.code.nodes.toList = (ds.filterMap Directive.node?).map (Node.map b.labelOf)
  blocks : b.blocks = (ds.filterMap Directive.block?).map (Block.map b.labelOf)

theorem Describes.of_extends (h : b.Describes ds) (h' : b.Extends b') : b'.Describes ds where
  mem d hd x hx := h'.mem x (h.mem d hd x hx)
  nodes := by
    rw [h'.code, h.nodes]
    refine List.map_congr_left ?_
    intro n hn
    obtain ⟨d, hd, hnode⟩ := List.mem_filterMap.1 hn
    refine Node.map_congr ?_
    intro x hx
    rw [← Directive.labels_of_node? hnode] at hx
    exact (h'.labelOf x (h.mem d hd x hx)).symm
  blocks := by
    rw [h'.blocks, h.blocks]
    refine List.map_congr_left ?_
    intro e he
    obtain ⟨d, hd, hblock⟩ := List.mem_filterMap.1 he
    refine Block.map_congr ?_
    intro x hx
    rw [← Directive.labels_of_block? hblock] at hx
    exact (h'.labelOf x (h.mem d hd x hx)).symm

/-- A label that is placed again is noted elsewhere. -/
theorem extends_noteRepeat (b : Builder) (n : Node String) : b.Extends (b.noteRepeat n) := by
  cases n with
  | label x =>
    simp only [noteRepeat]
    split
    · exact ⟨rfl, rfl, fun _ h => h, fun _ _ => rfl⟩
    · exact .refl b
  | _ => exact .refl b

theorem Describes.reserve (h : b.Describes ds) (hx : x ∈ b.names) :
    b.Describes (ds ++ [.reserve x]) where
  mem := List.forall_mem_append.2 ⟨h.mem, by simpa [Directive.labels] using hx⟩
  nodes := by
    rw [List.filterMap_append, List.map_append]
    exact h.nodes.trans (List.append_nil _).symm
  blocks := by
    rw [List.filterMap_append, List.map_append]
    exact h.blocks.trans (List.append_nil _).symm

theorem Describes.push {n : Node String} (h : b.Describes ds) (hn : ∀ x ∈ n.labels, x ∈ b.names) :
    (b.push n).Describes (ds ++ [.emit n]) where
  mem := List.forall_mem_append.2 ⟨h.mem, List.forall_mem_singleton.2 hn⟩
  nodes := by
    show (b.code.nodes.push _).toList = _
    rw [Array.toList_push, h.nodes, List.filterMap_append, List.map_append]
    rfl
  blocks := by
    rw [List.filterMap_append, List.map_append]
    exact h.blocks.trans (List.append_nil _).symm

theorem Describes.protect {e : Block String} (h : b.Describes ds)
    (he : ∀ x ∈ e.labels, x ∈ b.names) :
    Describes { b with blocks := b.blocks ++ [e.map b.labelOf] } (ds ++ [.protect e]) where
  mem := List.forall_mem_append.2 ⟨h.mem, List.forall_mem_singleton.2 he⟩
  nodes := by
    rw [List.filterMap_append, List.map_append]
    exact h.nodes.trans (List.append_nil _).symm
  blocks := by
    rw [h.blocks, List.filterMap_append, List.map_append]
    rfl

/-- A builder that has written directives down writes down one more by carrying it out. -/
theorem Describes.apply (h : b.Describes ds) (d : Directive) :
    (b.apply d).Describes (ds ++ [d]) := by
  obtain ⟨hextends, hall⟩ := b.extends_foldl_intern d.labels
  have hknown := h.of_extends hextends
  cases d with
  | reserve x => exact hknown.reserve (hall x (by simp [Directive.labels]))
  | emit n =>
    have hnoted := extends_noteRepeat (n.labels.foldl intern b) n
    exact (hknown.of_extends hnoted).push fun x hx => hnoted.mem x (hall x hx)
  | protect e => exact hknown.protect hall

/-- What holds of a builder and its directives, and is preserved by one more directive, holds after
any number of further directives. -/
theorem run_induction {P : Builder → List Directive → Prop}
    (hstep : ∀ b ds d, P b ds → P (b.apply d) (ds ++ [d])) (h : P b ds) (ds' : List Directive) :
    P (b.run ds') (ds ++ ds') := by
  induction ds' generalizing b ds with
  | nil =>
    rw [List.append_nil]
    exact h
  | cons d ds' ih =>
    have hrest := ih (hstep b ds d h)
    rw [List.append_assoc] at hrest
    exact hrest

/-- A builder that has written directives down has written down those and all further ones once it
has carried these out. -/
theorem Describes.run (h : b.Describes ds) (ds' : List Directive) :
    (b.run ds').Describes (ds ++ ds') :=
  run_induction (fun _ _ d hb => hb.apply d) h ds'

/-! ## Names of methods -/

theorem name_foldl_intern (b : Builder) (xs : List String) :
    (xs.foldl intern b).name = b.name ∧ (xs.foldl intern b).desc = b.desc := by
  refine List.foldlRecOn (motive := fun b' => b'.name = b.name ∧ b'.desc = b.desc) xs intern
    ⟨rfl, rfl⟩ ?_
  intro b' h x _
  unfold intern
  split <;> exact h

theorem name_noteRepeat (b : Builder) (n : Node String) :
    (b.noteRepeat n).name = b.name ∧ (b.noteRepeat n).desc = b.desc := by
  cases n with
  | label x =>
    simp only [noteRepeat]
    split <;> exact ⟨rfl, rfl⟩
  | _ => exact ⟨rfl, rfl⟩

theorem name_apply (b : Builder) (d : Directive) :
    (b.apply d).name = b.name ∧ (b.apply d).desc = b.desc := by
  have hnoted := b.name_foldl_intern d.labels
  rw [← hnoted.1, ← hnoted.2]
  cases d with
  | emit n => exact name_noteRepeat _ n
  | _ => exact ⟨rfl, rfl⟩

/-- Directives do not touch name and descriptor. -/
theorem name_run (b : Builder) (ds : List Directive) :
    (b.run ds).name = b.name ∧ (b.run ds).desc = b.desc := by
  refine List.foldlRecOn (motive := fun b' => b'.name = b.name ∧ b'.desc = b.desc) ds apply
    ⟨rfl, rfl⟩ ?_
  intro b' h d _
  rw [(b'.name_apply d).1, (b'.name_apply d).2]
  exact h

/-! ## Finished methods -/

/-- A method is finished if no label was placed again, each label is placed, and operands fit. -/
theorem buildInOrder_eq_ok_iff {order : List String} : b.buildInOrder order = .ok m ↔
    b.repeated = none ∧ (∀ x ∈ order, b.places x = true) ∧ b.code.misfit? = none ∧
      m = ⟨b.name, b.desc, b.code, b.blocks, b.names⟩ := by
  have hplaces : (∀ x ∈ order, b.places x = true) ↔ order.find? (!b.places ·) = none := by
    simp [List.find?_eq_none]
  rw [hplaces]
  unfold buildInOrder
  cases b.repeated <;> cases order.find? (!b.places ·) <;> cases b.code.misfit? <;> simp [eq_comm]

theorem build_eq_ok (h : b.build = .ok m) : m = ⟨b.name, b.desc, b.code, b.blocks, b.names⟩ :=
  (buildInOrder_eq_ok_iff.1 h).2.2.2

/-- A label is given its name back. -/
theorem labelName_labelOf {order : List String} (h : b.buildInOrder order = .ok m)
    (hx : x ∈ b.names) : m.labelName (b.labelOf x) = x := by
  obtain ⟨-, -, -, rfl⟩ := buildInOrder_eq_ok_iff.1 h
  show (b.names[b.names.idxOf x]?).getD _ = x
  rw [List.getElem?_idxOf hx]
  rfl

end Builder

end TryResources
