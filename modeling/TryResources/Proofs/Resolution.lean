import TryResources.Proofs.Numbering

/-!
# Resolved labels

Whatever a builder is told, in whatever order, its names and numbers correspond one to one. In a
method that is finished, each label that a jump or a table entry goes by is defined at one position:
where the label of that name was placed, be it before it was used or after.

* `Method.labels`: the labels that a method mentions.
* `Method.Resolves`: a name, its number and the position where it is defined.
* `Builder.Tracks.exists_resolves`: each name that was used resolves.
* `Builder.run_resolves`: what holds of any sequence of directives.
-/

namespace TryResources

namespace Method

/-- The labels that a method mentions, in its nodes and in its exception table. -/
def labels (m : Method) : List LabelId :=
  m.code.nodes.toList.flatMap Node.labels ++ m.blocks.flatMap Block.labels

/-- In a method that directives describe, a label has a name, and one position only, where it was
placed. -/
structure Resolves (m : Method) (ds : List Directive) (x : String) (l : LabelId) (p : Nat) :
    Prop where
  placed_iff : ∀ q, (Directive.nodes ds)[q]? = some (.label x) ↔ q = p
  defined_iff : ∀ q, m.code.get? q = some (.label l) ↔ q = p
  position : m.code.labelPosition? l = some p
  name : m.labelName l = x

/-- At one position, one name is placed. -/
theorem Resolves.eq_of_position {m : Method} {ds : List Directive} {x y : String} {l l' : LabelId}
    {p : Nat} (h : m.Resolves ds x l p) (h' : m.Resolves ds y l' p) : x = y := by
  have hlabel := ((h.placed_iff p).2 rfl).symm.trans ((h'.placed_iff p).2 rfl)
  cases hlabel
  rfl

end Method

namespace Builder

variable {b : Builder} {ds : List Directive} {x y : String} {m : Method} {order : List String}
  {p q : Nat}

theorem Describes.get? (h : b.Describes ds) (p : Nat) :
    b.code.get? p = (Directive.nodes ds)[p]?.map (Node.map b.labelOf) := by
  rw [Code.get?, ← Array.getElem?_toList, h.nodes, List.getElem?_map]
  rfl

/-- No label is defined twice, if none is placed again. -/
theorem Tracks.unambiguous (h : b.Tracks ds) (hrepeated : b.repeated = none) :
    b.code.Unambiguous := by
  have hplaced : (Directive.placed ds).Nodup := by
    have hfirst := h.repeated
    rwa [hrepeated, FirstRepeat.none_iff] at hfirst
  have hdefined : (labelsOf b.code.nodes.toList).Nodup := by
    rw [h.toDescribes.labelsOf_nodes]
    refine List.Nodup.map_on ?_ hplaced
    intro x hx y _ he
    exact (labelOf_inj (h.mem_names_iff.2 (Directive.mem_uses_of_placed hx))).1 he
  exact Code.unambiguous_ofList hdefined

/-- Where a label is defined, it was placed. -/
theorem Tracks.get?_eq_label_iff (h : b.Tracks ds) (hx : x ∈ Directive.uses ds) :
    b.code.get? p = some (.label (b.labelOf x)) ↔
      (Directive.nodes ds)[p]? = some (.label x) := by
  rw [h.toDescribes.get?, Option.map_eq_some_iff]
  constructor
  · rintro ⟨n, hn, hlabel⟩
    obtain ⟨y, rfl, he⟩ := Node.map_eq_label_iff.1 hlabel
    obtain rfl := (labelOf_inj (h.mem_names_iff.2 hx)).1 he.symm
    exact hn
  · intro hn
    exact ⟨_, hn, rfl⟩

/-- In a finished method, each name that was used resolves. -/
theorem Tracks.exists_resolves (h : b.Tracks ds) (horder : ∀ x ∈ b.names, x ∈ order)
    (hm : b.buildInOrder order = .ok m) (hx : x ∈ Directive.uses ds) :
    ∃ p, m.Resolves ds x (b.labelOf x) p := by
  have hname := h.mem_names_iff.2 hx
  have hback := labelName_labelOf hm hname
  obtain ⟨hrepeated, hplaces, -, rfl⟩ := buildInOrder_eq_ok_iff.1 hm
  have hplaced := (h.toDescribes.places_iff hname).1 (hplaces x (horder x hname))
  obtain ⟨n, hn, hlabel⟩ := List.mem_filterMap.1 hplaced
  obtain rfl : n = .label x := by cases n <;> cases hlabel; rfl
  obtain ⟨p, hp⟩ := List.getElem?_of_mem hn
  have hcode := (h.get?_eq_label_iff hx).2 hp
  have hunambiguous := h.unambiguous hrepeated
  have hdefined : ∀ q, b.code.get? q = some (.label (b.labelOf x)) ↔ q = p := by
    intro q
    constructor
    · intro hq
      exact hunambiguous q p _ hq hcode
    · rintro rfl
      exact hcode
  refine ⟨p, fun q => ?_, hdefined, hunambiguous.labelPosition?_eq hcode, hback⟩
  rw [← h.get?_eq_label_iff hx, hdefined]

/-- The labels of a method are the numbers of the names that were used. -/
theorem Tracks.labels_eq (h : b.Tracks ds) (hm : b.buildInOrder order = .ok m) {l : LabelId}
    (hl : l ∈ m.labels) : ∃ x ∈ Directive.uses ds, l = b.labelOf x := by
  obtain ⟨-, -, -, rfl⟩ := buildInOrder_eq_ok_iff.1 hm
  rcases List.mem_append.1 hl with hl | hl
  · obtain ⟨n, hn, hl⟩ := List.mem_flatMap.1 hl
    rw [h.nodes] at hn
    obtain ⟨n', hn', rfl⟩ := List.mem_map.1 hn
    rw [Node.labels_map] at hl
    obtain ⟨x, hx, rfl⟩ := List.mem_map.1 hl
    exact ⟨x, Directive.mem_uses_of_node hn' hx, rfl⟩
  · obtain ⟨e, he, hl⟩ := List.mem_flatMap.1 hl
    rw [h.blocks] at he
    obtain ⟨e', he', rfl⟩ := List.mem_map.1 he
    rw [Block.labels_map] at hl
    obtain ⟨x, hx, rfl⟩ := List.mem_map.1 hl
    exact ⟨x, Directive.mem_uses_of_entry he' hx, rfl⟩

/-- The label of a jump is that of its target. -/
theorem Tracks.exists_resolves_target (h : b.Tracks ds) (horder : ∀ x ∈ b.names, x ∈ order)
    (hm : b.buildInOrder order = .ok m) {op : Opcode}
    (hq : (Directive.nodes ds)[q]? = some (.insn ⟨op, .target x⟩)) :
    ∃ l p, m.code.get? q = some (.insn ⟨op, .target l⟩) ∧ m.Resolves ds x l p := by
  have hx := Directive.mem_uses_of_node (List.mem_of_getElem? hq) (List.mem_singleton_self x)
  obtain ⟨p, hp⟩ := h.exists_resolves horder hm hx
  refine ⟨b.labelOf x, p, ?_, hp⟩
  obtain ⟨-, -, -, rfl⟩ := buildInOrder_eq_ok_iff.1 hm
  show b.code.get? q = _
  rw [h.toDescribes.get?, hq]
  rfl

/-- Each number below the number of names belongs to one name. -/
theorem Tracks.existsUnique_name (h : b.Tracks ds) {i : Nat} (hi : i < b.names.length) :
    ∃! x, x ∈ Directive.uses ds ∧ b.labelOf x = ⟨i⟩ := by
  have hnumber : b.labelOf b.names[i] = ⟨i⟩ :=
    congrArg LabelId.mk (h.nodup.idxOf_getElem i hi)
  refine ⟨b.names[i], ⟨h.mem_names_iff.1 (List.getElem_mem hi), hnumber⟩, ?_⟩
  rintro y ⟨hy, hnumber'⟩
  exact (labelOf_inj (h.mem_names_iff.2 hy)).1 (hnumber'.trans hnumber.symm)

theorem Tracks.labelOf_lt (h : b.Tracks ds) (hx : x ∈ Directive.uses ds) :
    (b.labelOf x).index < b.names.length :=
  List.idxOf_lt_length_of_mem (h.mem_names_iff.2 hx)

/-- **Labels are numbered and resolved by name.** After any directives,

1. numbers and the names that were used correspond one to one, and the numbers are those below the
   number of names (so they fit 32 bits if there are not too many names);
2. a name that was used for the first time behind some others has as its number how many names
   these are, and keeps it whatever comes later;
3. there is one node for each directive that emits one, in order, with numbers for names, and the
   position of the next node is their number.

If the method is then finished, in whatever order labels are looked at,

4. it has these nodes, and the table entries in order, with numbers for names;
5. each label in a jump or in a table entry is the number of a name that was used; it is defined by
   one node, its position is where that name was placed, and it is given that name back;
6. so is the number of each name that was used, and different names have different positions;
7. a jump has the position where its label was placed, before the jump or after it. -/
theorem run_resolves (name desc : String) (ds : List Directive) :
    let b := run { name, desc } ds
    let uses := Directive.uses ds
    let nodes := Directive.nodes ds
    ((∀ x ∈ uses, (b.labelOf x).index < b.names.length) ∧
      ∀ i < b.names.length, ∃! x, x ∈ uses ∧ b.labelOf x = ⟨i⟩) ∧
    ((∀ before x after, uses = before ++ x :: after → x ∉ before →
        (b.labelOf x).index = before.eraseDups.length) ∧
      ∀ ds', ∀ x ∈ uses, (b.run ds').labelOf x = b.labelOf x) ∧
    (b.code.nodes.toList = nodes.map (Node.map b.labelOf) ∧ b.nextPosition = nodes.length) ∧
    ∀ order m, (∀ x ∈ b.names, x ∈ order) → b.buildInOrder order = .ok m →
      (m.code = b.code ∧ m.blocks = (Directive.entries ds).map (Block.map b.labelOf)) ∧
      (∀ l ∈ m.labels, ∃ x ∈ uses, ∃ p, l = b.labelOf x ∧ m.Resolves ds x l p) ∧
      ((∀ x ∈ uses, ∃ p, m.Resolves ds x (b.labelOf x) p) ∧
        ∀ x ∈ uses, ∀ y ∈ uses, x ≠ y →
          m.code.labelPosition? (b.labelOf x) ≠ m.code.labelPosition? (b.labelOf y)) ∧
      ∀ q op x, nodes[q]? = some (.insn ⟨op, .target x⟩) →
        ∃ l p, m.code.get? q = some (.insn ⟨op, .target l⟩) ∧ m.Resolves ds x l p := by
  intro b uses nodes
  have h : b.Tracks ds := tracks_run name desc ds
  have hlength : b.nextPosition = nodes.length := by
    rw [nextPosition, Code.size, ← Array.length_toList, h.nodes, List.length_map]
    rfl
  refine ⟨⟨fun x hx => h.labelOf_lt hx, fun i hi => h.existsUnique_name hi⟩,
    ⟨fun before x after huses hx => h.index_labelOf huses hx, fun ds' x hx => h.labelOf_run ds' hx⟩,
    ⟨h.nodes, hlength⟩, ?_⟩
  intro order m horder hm
  have hresolves : ∀ x ∈ uses, ∃ p, m.Resolves ds x (b.labelOf x) p := fun x hx =>
    h.exists_resolves horder hm hx
  refine ⟨?_, ?_, ⟨hresolves, ?_⟩, ?_⟩
  · obtain ⟨-, -, -, rfl⟩ := buildInOrder_eq_ok_iff.1 hm
    exact ⟨rfl, h.blocks⟩
  · intro l hl
    obtain ⟨x, hx, rfl⟩ := h.labels_eq hm hl
    obtain ⟨p, hp⟩ := hresolves x hx
    exact ⟨x, hx, p, rfl, hp⟩
  · intro x hx y hy hne he
    obtain ⟨p, hp⟩ := hresolves x hx
    obtain ⟨q, hq⟩ := hresolves y hy
    rw [hp.position, hq.position] at he
    obtain rfl := Option.some.inj he
    exact hne (hp.eq_of_position hq)
  · intro q op x hq
    exact h.exists_resolves_target horder hm hq

/-- A loop: two jumps go to labels that are placed later and one to a label that is placed before
it; one label gets its number first, and another one is used in the table only. -/
def loop : List Directive :=
  [.reserve "end", .emit (.label "start"), .emit (.insn ⟨.aload, .slot 1⟩),
    .emit (.insn ⟨.ifnull, .target "end"⟩), .emit (.insn ⟨.goto, .target "start"⟩),
    .emit (.label "handler"), .emit (.insn ⟨.athrow, .none⟩), .emit (.label "end"),
    .emit (.insn ⟨.returnVoid, .none⟩), .protect ⟨"start", "handler", "handler", none⟩]

theorem run_resolves_loop :
    let b := run { name := "m", desc := "()V" } loop
    let m : Method := ⟨"m", "()V", b.code, b.blocks, ["end", "start", "handler"]⟩
    b.buildInOrder ["handler", "end", "start"] = .ok m ∧
      (∃ p, m.Resolves loop "end" ⟨0⟩ p) ∧
      m.code.labelPosition? ⟨0⟩ ≠ m.code.labelPosition? ⟨1⟩ := by
  intro b m
  obtain ⟨-, -, -, hfinished⟩ := run_resolves "m" "()V" loop
  have hm : b.buildInOrder ["handler", "end", "start"] = .ok m := by decide +kernel
  have hnumber : b.labelOf "end" = ⟨0⟩ ∧ b.labelOf "start" = ⟨1⟩ := by decide +kernel
  obtain ⟨-, -, ⟨hresolves, hdifferent⟩, -⟩ := hfinished _ m (by decide +kernel) hm
  rw [← hnumber.1, ← hnumber.2]
  exact ⟨hm, hresolves "end" (by decide +kernel),
    hdifferent "end" (by decide +kernel) "start" (by decide +kernel) (by decide)⟩

end Builder

end TryResources
