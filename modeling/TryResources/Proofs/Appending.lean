import TryResources.Proofs.Outcome
import TryResources.Proofs.References
import TryResources.Proofs.Resolution

/-!
# Jumps to labels that are defined

A listing that describes a method can be given one more line, a jump to a label that one of its
lines defines. If the name of the label can be referred to, the method has that jump as one more
node and is the same otherwise, and the jump goes to the node of the line that defines the label.
With any other name, the new line is no jump to the label. Such names can be defined all the same,
since a definition is the whole of a line up to the final colon.

* `Told.get?_label`: where a builder has written a label.
* `Told.names_of_goto`: a jump to a label that is known adds no name.
* `toMethod_goto`: what becomes of a listing with one more jump.
-/

namespace TryResources

/-- A name that stands in a list already makes no difference behind it. -/
theorem eraseDups_append_cons {x : String} {xs : List String} (h : x ∈ xs) (ys : List String) :
    (xs ++ x :: ys).eraseDups = (xs ++ ys).eraseDups := by
  rw [List.eraseDups_append, List.eraseDups_append]
  simp [List.removeAll, h]

namespace MethodListing

open Line (WellFormed Referable)

variable {l : MethodListing} {nodes : List (Node String)} {b : Builder} {m : Method} {x : String}
  {p : Nat} {found : List (Option (Node String))} {lines : List String}

/-- A listing with one more jump, to a label of some name. -/
def withGoto (l : MethodListing) (x : String) : MethodListing :=
  { l with code := l.code ++ ["goto " ++ x] }

/-- What is known of a listing that describes a method. -/
theorem exists_told_of_toMethod (h : l.toMethod = .ok m) : ∃ found b,
    List.Forall₂ WellFormed l.code found ∧ l.Told (found.filterMap id) b ∧
      b.buildInOrder b.names = .ok m := by
  have hread := h
  rw [toMethod, tell_bind] at hread
  obtain ⟨ds, hds, -⟩ := bind_eq_ok_iff.1 hread
  obtain ⟨found, hfound, -⟩ := bind_eq_ok_iff.1 hds
  have hlines := Line.mapM_read_eq_ok_iff.1 hfound
  obtain ⟨b, hb⟩ := exists_told hlines
  exact ⟨found, b, hlines, hb, (hb.result id).symm.trans h⟩

/-- A builder that finishes the method has placed each label once. -/
theorem Told.defined_of_build (h : l.Told nodes b) (hm : b.buildInOrder b.names = .ok m) :
    (labelsOf nodes).Nodup ∧ ∀ x ∈ l.labels nodes, x ∈ labelsOf nodes := by
  obtain ⟨hrepeated, hplaces, -⟩ := Builder.buildInOrder_eq_ok_iff.1 hm
  constructor
  · have hfirst := h.repeated
    rwa [hrepeated, FirstRepeat.none_iff] at hfirst
  · intro x hx
    have hname := h.mem_names_iff.2 hx
    exact (h.places_iff hname).1 (hplaces x hname)

/-- A node of the lines is written at its position. -/
theorem Told.get?_eq (h : l.Told nodes b) (p : Nat) :
    b.code.get? p = nodes[p]?.map (Node.map b.labelOf) := by
  rw [Code.get?, ← Array.getElem?_toList, h.code_eq, List.getElem?_map]

/-- A label is found where it was written. -/
theorem Told.get?_label (h : l.Told nodes b) (hm : b.buildInOrder b.names = .ok m)
    (hp : nodes[p]? = some (.label x)) :
    m.code.get? p = some (.label (b.labelOf x)) ∧
      m.code.labelPosition? (b.labelOf x) = some p ∧ m.labelName (b.labelOf x) = x := by
  have hx : x ∈ b.names := by
    refine h.mem_names_iff.2 (List.mem_append_left _ ?_)
    exact List.mem_flatMap.2 ⟨_, List.mem_of_getElem? hp, List.mem_singleton_self x⟩
  have hname := Builder.labelName_labelOf hm hx
  obtain ⟨hrepeated, -, -, rfl⟩ := Builder.buildInOrder_eq_ok_iff.1 hm
  have hget : b.code.get? p = some (.label (b.labelOf x)) := by
    rw [h.get?_eq, hp]
    rfl
  exact ⟨hget, (h.tracks.unambiguous hrepeated).labelPosition?_eq hget, hname⟩

/-- The node of a line stands behind those of the lines in front of it. -/
theorem exists_node_of_line {before after : List String} {line : String} {n : Node String}
    (hcode : lines = before ++ line :: after) (hline : Line.read line = .ok (some n))
    (hfound : List.Forall₂ WellFormed lines found) :
    (found.filterMap id)[before.countP fun line => line.toList.any (!Text.isBlank ·)]? =
      some n := by
  subst hcode
  obtain ⟨front, rest, hfront, hrest, rfl⟩ := forall₂_append_left_iff.1 hfound
  obtain ⟨held, back, hheld, -, rfl⟩ := List.forall₂_cons_left_iff.1 hrest
  obtain rfl := (Line.read_eq_ok_iff.1 hline).unique hheld
  rw [← Line.length_filterMap_of_wellFormed hfront, List.filterMap_append,
    List.getElem?_append_right (Nat.le_refl _), Nat.sub_self]
  rfl

/-! ## One more jump -/

section

variable {b' : Builder} (h : l.Told nodes b)
  (h' : (l.withGoto x).Told (nodes ++ [.insn ⟨.goto, .target x⟩]) b')
  (hp : nodes[p]? = some (.label x))
include h h' hp

/-- A jump to a label that is defined adds no name. -/
theorem Told.names_withGoto : b'.names = b.names := by
  have hx : x ∈ nodes.flatMap Node.labels :=
    List.mem_flatMap.2 ⟨_, List.mem_of_getElem? hp, List.mem_singleton_self x⟩
  have hlabels : (l.withGoto x).labels (nodes ++ [.insn ⟨.goto, .target x⟩]) =
      nodes.flatMap Node.labels ++ x :: l.table.flatMap Block.labels := by
    simp [labels, withGoto, Node.labels]
  rw [h'.names_eq, h.names_eq, hlabels, eraseDups_append_cons hx]
  rfl

theorem Told.labelOf_withGoto (y : String) : b'.labelOf y = b.labelOf y := by
  rw [Builder.labelOf, Builder.labelOf, names_withGoto h h' hp]

/-- It adds its node behind the others. -/
theorem Told.code_withGoto :
    b'.code = b.code.push (.insn ⟨.goto, .target (b.labelOf x)⟩) := by
  have hnodes : b'.code.nodes.toList =
      (b.code.nodes.push (.insn ⟨.goto, .target (b.labelOf x)⟩)).toList := by
    rw [h'.code_eq, Array.toList_push, h.code_eq, funext (labelOf_withGoto h h' hp),
      List.map_append]
    rfl
  exact congrArg Code.mk (Array.toList_inj.1 hnodes)

theorem Told.blocks_withGoto : b'.blocks = b.blocks := by
  rw [h'.blocks_eq, h.blocks_eq, funext (labelOf_withGoto h h' hp)]
  rfl

/-- So the method that was described is finished with one more jump. -/
theorem Told.build_withGoto (hm : b.buildInOrder b.names = .ok m) :
    b'.buildInOrder b'.names =
      .ok { m with code := m.code.push (.insn ⟨.goto, .target (b.labelOf x)⟩) } := by
  obtain ⟨hnodup, hdefined⟩ := h.defined_of_build hm
  have hlabels : labelsOf (nodes ++ [.insn ⟨.goto, .target x⟩]) = labelsOf nodes := by
    simp [labelsOf, Node.label?]
  have hdefined' : ∀ y ∈ (l.withGoto x).labels (nodes ++ [.insn ⟨.goto, .target x⟩]),
      y ∈ labelsOf (nodes ++ [.insn ⟨.goto, .target x⟩]) := by
    intro y hy
    rw [hlabels]
    rw [← h'.mem_names_iff, names_withGoto h h' hp, h.mem_names_iff] at hy
    exact hdefined y hy
  obtain ⟨-, -, -, rfl⟩ := Builder.buildInOrder_eq_ok_iff.1 hm
  rw [h'.buildInOrder_eq_ok (hlabels ▸ hnodup) (fun y => Iff.rfl) hdefined',
    code_withGoto h h' hp, blocks_withGoto h h' hp, names_withGoto h h' hp, h'.name, h'.desc,
    h.name, h.desc]
  rfl

end

/-- If the new line adds a jump to the label, it refers to the name of the label. -/
theorem Told.referable_of_withGoto {b' : Builder} {held : Option (Node String)} {k : LabelId}
    (h : l.Told nodes b) (hheld : WellFormed ("goto " ++ x) held)
    (h' : (l.withGoto x).Told (nodes ++ held.toList) b') (hp : nodes[p]? = some (.label x))
    (hcode : b'.code = b.code.push (.insn ⟨.goto, .target k⟩))
    (hk : b'.code.labelPosition? k = some p) : Referable x := by
  -- what the new line holds is the node that was added
  have hlast : held.toList.map (Node.map b'.labelOf) = [.insn ⟨.goto, .target k⟩] := by
    have hnodes : (nodes ++ held.toList).map (Node.map b'.labelOf) =
        nodes.map (Node.map b.labelOf) ++ [.insn ⟨.goto, .target k⟩] := by
      rw [← h'.code_eq, hcode, ← h.code_eq]
      exact Array.toList_push
    rw [List.map_append] at hnodes
    exact (List.append_inj hnodes (by simp)).2
  obtain ⟨y, hy, rfl⟩ : ∃ y, b'.labelOf y = k ∧ held = some (.insn ⟨.goto, .target y⟩) := by
    rcases held with _ | _ | _ | _ | ⟨op, o⟩
    · cases hlast
    · cases hlast
    · cases hlast
    · cases hlast
    · cases o <;> cases hlast
      exact ⟨_, rfl, rfl⟩
  have hlabel : (nodes ++ (some (Node.insn ⟨.goto, .target y⟩)).toList)[p]? = some (.label x) := by
    rw [List.getElem?_append_left (List.getElem?_eq_some_iff.1 hp).1, hp]
  have hx : x ∈ b'.names := by
    refine h'.mem_names_iff.2 (List.mem_append_left _ ?_)
    exact List.mem_flatMap.2 ⟨_, List.mem_of_getElem? hlabel, List.mem_singleton_self x⟩
  -- both names have the number of the label that is defined at `p`
  have hsame : b'.labelOf x = b'.labelOf y := by
    have hget := Code.get?_of_labelPosition? hk
    rw [h'.get?_eq, hlabel] at hget
    rw [hy]
    exact Node.label.inj (Option.some.inj hget)
  obtain rfl := (Builder.labelOf_inj hx).1 hsame
  exact Line.read_goto_iff.1 (Line.read_eq_ok_iff.2 hheld)

/-- **A label that is defined can be jumped to by a name that fits.** Let a listing describe a
method, and let one of its lines define a label. The node of that line stands behind those of the
lines in front of it, and a line is appended that is a jump to the name of the label.

1. If the name is a single word that does not end in a colon, the new listing describes the same
   method with that jump as one more node, and its target is the label of the line: it has the name,
   and the position of the node.
2. If the new listing describes a method with one more jump whose target is the node of the line,
   the name is such a word. -/
theorem toMethod_withGoto (h : l.toMethod = .ok m) {before after : List String} {line : String}
    (hcode : l.code = before ++ line :: after) (hline : Line.read line = .ok (some (.label x))) :
    let p := before.countP fun line => line.toList.any (!Text.isBlank ·)
    (Referable x → ∃ k,
      (l.withGoto x).toMethod = .ok { m with code := m.code.push (.insn ⟨.goto, .target k⟩) } ∧
      m.code.get? p = some (.label k) ∧
      (m.code.push (.insn ⟨.goto, .target k⟩)).labelPosition? k = some p ∧
      m.labelName k = x) ∧
    ∀ m' k, (l.withGoto x).toMethod = .ok m' →
      m'.code = m.code.push (.insn ⟨.goto, .target k⟩) → m'.code.labelPosition? k = some p →
        Referable x := by
  intro p
  obtain ⟨found, b, hfound, hb, hm⟩ := exists_told_of_toMethod h
  have hp := exists_node_of_line hcode hline hfound
  constructor
  · intro hx
    have hjump := Line.read_eq_ok_iff.1 (Line.read_goto_iff.2 hx)
    obtain ⟨b', hb'⟩ := exists_told (l := l.withGoto x)
      (forall₂_append_left_iff.2 ⟨found, [_], hfound, .cons hjump .nil, rfl⟩)
    rw [List.filterMap_append] at hb'
    have hm' := hb.build_withGoto hb' hp hm
    have hp' : (found.filterMap id ++ [.insn ⟨.goto, .target x⟩])[p]? = some (.label x) := by
      rw [List.getElem?_append_left (List.getElem?_eq_some_iff.1 hp).1, hp]
    obtain ⟨hget, -, hname⟩ := hb.get?_label hm hp
    obtain ⟨-, hposition, -⟩ := hb'.get?_label hm' hp'
    rw [hb.labelOf_withGoto hb' hp] at hposition
    exact ⟨b.labelOf x, (hb'.result id).trans hm', hget, hposition, hname⟩
  · intro m' k hm' hcode' hk
    obtain ⟨found', b', hfound', hb', hbuild'⟩ := exists_told_of_toMethod hm'
    obtain ⟨front, rest, hfront, hrest, rfl⟩ := forall₂_append_left_iff.1 hfound'
    obtain ⟨held, _, hheld, ⟨⟩, rfl⟩ := List.forall₂_cons_left_iff.1 hrest
    obtain rfl : found = front := Except.ok.inj
      ((Line.mapM_read_eq_ok_iff.2 hfound).symm.trans (Line.mapM_read_eq_ok_iff.2 hfront))
    have hlast : [held].filterMap id = held.toList := by cases held <;> rfl
    rw [List.filterMap_append, hlast] at hb'
    obtain ⟨-, -, -, rfl⟩ := Builder.buildInOrder_eq_ok_iff.1 hbuild'
    obtain ⟨-, -, -, rfl⟩ := Builder.buildInOrder_eq_ok_iff.1 hm
    exact hb.referable_of_withGoto hheld hb' hp hcode' hk

theorem toMethod_withGoto_untidy :
    let jump : Node LabelId := .insn ⟨.goto, .target ⟨1⟩⟩
    Referable "end:x" ∧
      (untidy.withGoto "end:x").toMethod = .ok { tidied with code := tidied.code.push jump } ∧
      (tidied.code.push jump).labelPosition? ⟨1⟩ = some 7 ∧
      ¬ Referable "try start" := by
  intro jump
  have h : untidy.toMethod = .ok tidied := by decide +kernel
  have hx : Referable "end:x" := by decide
  have hline : Line.read "end:x:" = .ok (some (.label "end:x")) := by decide +kernel
  have hcode : untidy.code = untidy.code.take 9 ++ "end:x:" :: ["return"] := rfl
  obtain ⟨k, hm, hget, hposition, -⟩ := (toMethod_withGoto h hcode hline).1 hx
  have hp : (untidy.code.take 9).countP (fun line => line.toList.any (!Text.isBlank ·)) = 7 := by
    decide +kernel
  rw [hp] at hget hposition
  obtain rfl : ⟨1⟩ = k := Node.label.inj (Option.some.inj hget)
  exact ⟨hx, hm, hposition, by decide⟩

/-- A label with a space in its name is defined, but the line that is to jump to it has a word too
many. -/
theorem not_toMethod_withGoto_spaced :
    let l : MethodListing := { name := "m", code := ["a b:", "return"] }
    (∃ m, l.toMethod = .ok m) ∧ Line.read "a b:" = .ok (some (.label "a b")) ∧
      (l.withGoto "a b").toMethod = .error (.invalidOperand "goto" "b") := by
  intro l
  let code : Code := .ofList [.label ⟨0⟩, .insn ⟨.returnVoid, .none⟩]
  have hm : l.toMethod = .ok ⟨"m", "()V", code, [], ["a b"]⟩ := by decide +kernel
  exact ⟨⟨_, hm⟩, by decide +kernel, by decide +kernel⟩

end MethodListing

end TryResources
