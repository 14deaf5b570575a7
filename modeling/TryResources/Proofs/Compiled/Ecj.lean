import TryResources.Proofs.Compiled.Placed
import TryResources.Proofs.Exclusion

/-!
# Statements that ecj emits

A statement of ecj is recognised at its outer handler, by the template for the way in which it was
emitted. All other handlers of its table merge what they catch into the primary exception, however
many resources there are, and report nothing.

* `sighted_ecj`, `sighted_ecjNoFlowOut`: where the nodes of a statement are held, it is sighted.
* `recognise_ecjNoFlowOut`: a body that always returns is not taken for one that may end normally.
* `entry_merging`: a handler that merges reports nothing.
* `entries_ecj`, `entries_ecjNoFlowOut`: what the tables contribute.
-/

namespace TryResources.Compiled

open Matching

variable {c : Code} {num : Label → LabelId} {d p s : Nat} {ts : List Token} {r : Resources}
  {primary : Slot} {merged : Merge → Slot} {result : Slot} {i : Nat}

/-! ## Nodes and patterns -/

/-- Where a caught exception is merged. -/
def mergingAt (num : Label → LabelId) (merged : Merge → Slot) (site : Merge) : Ecj.Merging where
  slot := merged site
  present := num (.present site)
  merged := num (.merged site)

/-- What the code of a resource uses. -/
def useOf (num : Label → LabelId) (r : Resources) (merged : Merge → Slot) (i : Nat) : Ecj.Use where
  slot := r.slot i
  owner := r.owner i
  skipped := num .exit
  closed := num (.closed i)
  merging := mergingAt num merged (.before i)

theorem consists_closingOf (target : Label) :
    Consists (Ecj.closing (r.slot i) (r.owner i) (num target))
      ((closingOf r i target).map (Node.map num)) := by
  simp [Consists, Token.Fits, Ecj.closing, closingOf, close, Node.map, Instruction.map, Operand.map]

theorem consists_closingAndThrowing :
    Consists (Ecj.closingAndThrowing primary (useOf num r merged i))
      ((closingAndThrowing r primary i).map (Node.map num)) := by
  simp [Consists, Token.Fits, Ecj.closingAndThrowing, useOf, closingAndThrowing, closingOf, close,
    Node.map, Instruction.map, Operand.map]

theorem consists_merging (site : Merge) (l : Label) :
    Consists (Ecj.merging primary (mergingAt num merged site))
      ((.label l :: merging primary merged site).map (Node.map num)) := by
  simp [Consists, Token.Fits, Ecj.merging, mergingAt, merging, addSuppressed, Node.map,
    Instruction.map, Operand.map]

theorem consists_throwing : Consists (Ecj.throwing primary)
    ([.frame, load primary, bare .athrow].map (Node.map num)) := by
  simp [Consists, Token.Fits, Ecj.throwing, Node.map, Instruction.map, Operand.map]

theorem consists_closingNext :
    Consists (Ecj.FlowOut.closingNext primary (useOf num r merged i))
      ((closingNext r primary merged i).map (Node.map num)) := by
  have hjump : Consists [.jump .goto (num .exit)] ([jump .goto .exit].map (Node.map num)) := by
    simp [Consists, Token.Fits, Node.map, Instruction.map, Operand.map]
  simp only [closingNext, List.map_append]
  exact (((consists_closingOf .exit).append hjump).append
    (consists_merging (.before i) (.handler i))).append
    (consists_closingAndThrowing.of_marker trivial rfl)

theorem consists_flowOut :
    Consists
      (Ecj.FlowOut.handling primary (useOf num r merged) (mergingAt num merged .last) r.count)
      (((ecj r primary merged).between ++ (ecj r primary merged).handler).map (Node.map num)) := by
  have hfirst : Consists [.slot .astore primary]
      ([.label (.handler 0), .frame, store primary].map (Node.map num)) := by
    simp [Consists, Token.Fits, Node.map, Instruction.map, Operand.map]
  have hnext : Consists
      ((List.range' 1 (r.count - 1)).flatMap fun i =>
        Ecj.FlowOut.closingNext primary (useOf num r merged i))
      (((List.range' 1 (r.count - 1)).flatMap (closingNext r primary merged)).map
        (Node.map num)) := by
    rw [List.map_flatMap]
    exact Consists.flatMap fun i _ => consists_closingNext
  simp only [ecj, List.map_append]
  exact (hfirst.append consists_closingAndThrowing).append
    (hnext.append ((consists_merging .last .lastHandler).append consists_throwing))

theorem consists_ecj_normal : Consists
    (Ecj.closing (r.slot 0) (r.owner 0) (num (.skipped 0)) ++ [.op .goto])
    ((ecj r primary merged).normal.map (Node.map num)) := by
  have hlast : Consists [.op .goto]
      ([.label (.skipped 0), jump .goto .exit].map (Node.map num)) := by
    simp [Consists, Token.Fits, Node.map, Instruction.map, Operand.map]
  simp only [ecj, List.map_append]
  exact (consists_closingOf (.skipped 0)).append hlast

/-- Where a statement of ecj stands whose body may end normally, it is sighted. -/
theorem sighted_ecj (h : c.Holds d ((ecj r primary merged).nodes.map (Node.map num))) :
    Ecj.FlowOut.Sighted c (((ecj r primary merged).sighting d).normal.last + 1) r.count primary
      (useOf num r merged) (mergingAt num merged .last) ((ecj r primary merged).sighting d) := by
  have hnormal := Segments.reads_normal h consists_ecj_normal
  have hhandler := Segments.reads_between_handler h consists_flowOut
  obtain ⟨q, i, hblock, hi, hjump⟩ := exists_jump_of_reads hnormal
  have hmem : Ecj.closing (r.slot 0) (r.owner 0) (num (.skipped 0)) ∈
      Ecj.closings (r.slot 0) (r.owner 0) := ⟨_, rfl⟩
  have hgreatest := Segments.isGreatest_normal h hnormal (by simp)
    (by simp [Ecj.closing, Token.IsInsn])
    (by
      rintro _ ⟨target, rfl⟩
      simp [absent, clash, Token.apart, Token.opcodes, Ecj.closing])
    ⟨_, hmem, q, hblock⟩
  exact ⟨r.count_pos, hhandler, Segments.first_handler rfl d, hgreatest, _, hmem, q, i, hblock, hi,
    hjump⟩

theorem recognise_ecj {n : Nat} {u : Nat → Ecj.Use} {last : Ecj.Merging} {w : Sighting}
    (h : Ecj.FlowOut.Sighted c s n primary u last w) :
    ({} : Options).recognise c s none = some (.ecj, w) := by
  have hattempt := Ecj.FlowOut.attempt_eq_some_iff (k := {}).2 ⟨n, primary, u, last, h⟩
  simp [Options.recognise, Options.templates, hattempt]

/-- A handler that merges what it catches reports nothing: the first thing that it checks is whether
there is a primary exception, not whether there is a resource. -/
theorem entry_merging {site : Merge} {start stop l : Label} (hc : c.Unambiguous)
    (h : c.Holds p ((.label l :: merging primary merged site).map (Node.map num))) :
    entry c (Block.map num ⟨start, stop, l, none⟩) = [] := by
  refine entry_none_of_clash (hc.labelPosition?_eq h.1) rfl ((consists_merging site l).reads h)
    ?_ ?_ <;> intros <;>
    simp [clash, Token.apart, Token.opcodes, Ecj.merging, Ecj.closingAndThrowing, Ecj.throwing]

/-- Only the first entry of a table counts, if no other contributes anything. -/
theorem entries_cons {b : Block Label} {bs : List (Block Label)}
    (hbs : ∀ b' ∈ bs, entry c (b'.map num) = []) :
    ((b :: bs).map (Block.map num)).flatMap (entry c) = entry c (b.map num) := by
  rw [List.map_cons, List.flatMap_cons, List.flatMap_map, List.flatMap_eq_nil_iff.2 hbs,
    List.append_nil]

/-- **Statements of ecj whose bodies may end normally.** Of all entries of its table, only that for
the outer handler contributes anything. -/
theorem entries_ecj (hc : c.Unambiguous)
    (h : c.Holds d ((ecj r primary merged).nodes.map (Node.map num))) :
    ((ecjTable r).map (Block.map num)).flatMap (entry c) =
      [(ecj r primary merged).normalRange d, (ecj r primary merged).handlerRange d] := by
  obtain ⟨-, -, -, hhandler, -⟩ := Segments.holds_nodes_iff.1 h
  simp only [ecj, List.map_append, List.map_flatMap, Code.holds_append_iff] at hhandler
  obtain ⟨-, hnext, hlast, -⟩ := hhandler
  have hs := Segments.labelPosition?_between h hc rfl
  rw [ecjTable, List.cons_append, entries_cons,
    entry_of_recognise hs (recognise_ecj (sighted_ecj h))]
  intro b hb
  rcases List.mem_append.1 hb with hb | hb
  · obtain ⟨i, hi, rfl⟩ := List.mem_map.1 hb
    obtain ⟨q, hq⟩ := hnext.exists_of_flatMap hi
    simp only [closingNext, List.map_append, Code.holds_append_iff] at hq
    exact entry_merging hc hq.1.2
  · obtain rfl := List.mem_singleton.1 hb
    exact entry_merging hc hlast

theorem consists_handlingOf : Consists
    (Ecj.NoFlowOut.handlingOf primary (useOf num r merged i))
    ((closingAndThrowing r primary i ++
      .label (.handler (i + 1)) :: merging primary merged (.before i)).map (Node.map num)) := by
  rw [List.map_append]
  exact consists_closingAndThrowing.append (consists_merging (.before i) (.handler (i + 1)))

theorem consists_noFlowOut :
    Consists (Ecj.NoFlowOut.handling primary (useOf num r merged) r.count)
      ((ecjNoFlowOut r primary merged result).handler.map (Node.map num)) := by
  have hfirst : Consists [.slot .astore primary]
      ([.label (.handler 0), .frame, store primary].map (Node.map num)) := by
    simp [Consists, Token.Fits, Node.map, Instruction.map, Operand.map]
  have hlast : Consists (Ecj.throwing primary)
      ([load primary, bare .athrow].map (Node.map num)) := by
    simp [Consists, Token.Fits, Ecj.throwing, Node.map, Instruction.map, Operand.map]
  simp only [ecjNoFlowOut, handlersOf, List.map_append, List.map_flatMap]
  exact hfirst.append (Consists.flatMap_append_marker (fun i => consists_handlingOf)
    (fun i => ⟨_, _, rfl, trivial⟩) hlast trivial rfl _)

/-- The resources behind the first one are closed. -/
def closingOthers (num : Label → LabelId) (r : Resources) : List Token :=
  (List.range' 1 (r.count - 1)).flatMap fun i =>
    Ecj.closing (r.slot i) (r.owner i) (num (.skipped i))

theorem consists_ecjNoFlowOut_normal : Consists
    (Ecj.closing (r.slot 0) (r.owner 0) (num (.skipped 0)) ++ closingOthers num r)
    ((ecjNoFlowOut r primary merged result).normal.map (Node.map num)) := by
  have hothers : Consists (closingOthers num r) ((List.range' 1 (r.count - 1)).flatMap fun i =>
      (.label (.skipped (i - 1)) :: closingOf r i (.skipped i)).map (Node.map num)) :=
    Consists.flatMap fun i _ => (consists_closingOf (.skipped i)).of_marker trivial rfl
  simp only [ecjNoFlowOut, List.map_append, List.map_flatMap]
  exact (consists_closingOf (.skipped 0)).append hothers

/-- Among the blocks that close other resources there is none that closes this one. -/
theorem absent_closings {slot : Slot} {owner : String} {target : LabelId} {is : List Nat}
    (hne : ∀ i ∈ is, r.slot i ≠ slot) (h : absent (Ecj.closing slot owner target) ts = true) :
    absent (Ecj.closing slot owner target) (is.flatMap (fun i =>
      Ecj.closing (r.slot i) (r.owner i) (num (.skipped i))) ++ ts) = true := by
  induction is with
  | nil => exact h
  | cons i is ih =>
    have hi := hne i List.mem_cons_self
    have hrest := ih fun j hj => hne j (List.mem_cons_of_mem i hj)
    simp only [Ecj.closing] at hrest
    simp [Ecj.closing, absent, clash, Token.apart, Token.opcodes, hi, hrest]

/-- The statement returns. -/
def returning (result : Slot) : List Token :=
  [.slot .aload result, .op .areturn]

theorem consists_returning : Consists (returning result)
    ((ecjNoFlowOut r primary merged result).between.map (Node.map num)) := by
  simp [Consists, Token.Fits, returning, ecjNoFlowOut, Node.map, Instruction.map, Operand.map]

/-- No block that closes the first resource starts within the normal path, nor behind it. -/
theorem absent_firstClosing {owner : String} {target target' : LabelId} :
    absent (Ecj.closing (r.slot 0) owner target)
      (Ecj.closing (r.slot 0) (r.owner 0) target' ++
        (closingOthers num r ++ returning result)).tail = true := by
  have hne : ∀ i ∈ List.range' 1 (r.count - 1), r.slot i ≠ r.slot 0 := by
    intro i hi heq
    have hmem := List.mem_range'_1.1 hi
    have := r.slot_inj i (by omega) 0 r.count_pos heq
    omega
  have hlast : absent (Ecj.closing (r.slot 0) owner target) (returning result) = true := by
    simp [returning, Ecj.closing, absent, clash, Token.apart, Token.opcodes]
  have hothers : absent (Ecj.closing (r.slot 0) owner target)
      (closingOthers num r ++ returning result) = true := absent_closings hne hlast
  simp only [Ecj.closing] at hothers
  simp [Ecj.closing, absent, clash, Token.apart, Token.opcodes, hothers]

theorem isInsn_ecjNoFlowOut_normal {t : Token}
    (ht : t ∈ Ecj.closing (r.slot 0) (r.owner 0) (num (.skipped 0)) ++
      (closingOthers num r ++ returning result)) : t.IsInsn := by
  have hclosing (i : Nat) :
      ∀ t ∈ Ecj.closing (r.slot i) (r.owner i) (num (.skipped i)), t.IsInsn := by
    simp [Ecj.closing, Token.IsInsn]
  rcases List.mem_append.1 ht with ht | ht
  · exact hclosing 0 t ht
  rcases List.mem_append.1 ht with ht | ht
  · obtain ⟨i, -, ht⟩ := List.mem_flatMap.1 ht
    exact hclosing i t ht
  · rcases List.mem_pair.1 ht with rfl | rfl <;> trivial

/-- Where a statement of ecj stands whose body always returns, it is sighted. -/
theorem sighted_ecjNoFlowOut
    (h : c.Holds d ((ecjNoFlowOut r primary merged result).nodes.map (Node.map num))) :
    Ecj.NoFlowOut.Sighted c ((ecjNoFlowOut r primary merged result).sighting d).handler.first
      r.count primary (useOf num r merged) ((ecjNoFlowOut r primary merged result).sighting d) := by
  have hnormal := Segments.reads_normal h consists_ecjNoFlowOut_normal
  have hhandler := Segments.reads_handler h consists_noFlowOut
  have hread := Segments.reads_normal_between h (by
    rw [List.map_append]
    exact consists_ecjNoFlowOut_normal.append consists_returning)
  rw [List.append_assoc] at hread
  have hfirst : Ecj.closing (r.slot 0) (r.owner 0) (num (.skipped 0)) ∈
      Ecj.NoFlowOut.firstClosings (useOf num r merged) r.count :=
    ⟨_, _, _, fun _ => ⟨rfl, rfl⟩, rfl⟩
  have hgreatest := Segments.isGreatest_normal h hread (by simp [Ecj.closing])
    (fun t => isInsn_ecjNoFlowOut_normal)
    (by
      rintro _ ⟨slot, owner, target, hslot, rfl⟩
      obtain ⟨rfl, rfl⟩ := hslot r.count_pos
      exact absent_firstClosing)
    ⟨_, hfirst, (reads_append_iff.1 hnormal).imp fun q hq => hq.1⟩
  exact ⟨hhandler, rfl, hgreatest, _, hfirst, _, ⟨fun i => num (.skipped i), rfl⟩, hnormal⟩

/-- A statement whose body always returns is not taken for one whose body may end normally: behind
its normal path there is no jump. -/
theorem recognise_ecjNoFlowOut
    (h : c.Holds d ((ecjNoFlowOut r primary merged result).nodes.map (Node.map num))) :
    ({} : Options).recognise c ((ecjNoFlowOut r primary merged result).sighting d).handler.first
      none = some (.ecjNoFlowOut, (ecjNoFlowOut r primary merged result).sighting d) := by
  have hsighted := sighted_ecjNoFlowOut h
  refine recognise_eq_some ?_ (Ecj.NoFlowOut.attempt_eq_some_iff.2 ⟨_, _, _, hsighted⟩) ?_
  · simp [Options.templates]
  · intro t ht w hw
    rcases List.mem_pair.1 ht with rfl | rfl
    · obtain ⟨n, primary', u, last, hu⟩ := Ecj.FlowOut.attempt_eq_some_iff.1 hw
      obtain ⟨i, hi, hjump⟩ := (Ecj.sameStatement_of_sighted hu hsighted).jumps
      have hread := Segments.reads_between_handler h (by
        rw [List.map_append]
        exact consists_returning.append consists_noFlowOut)
      obtain ⟨m, ⟨i', hi', rfl⟩, -⟩ := reads_cons_iff.1 hread
      obtain ⟨-, rfl⟩ := hi.unique hi'
      cases hjump
    · rfl

/-- **Statements of ecj whose bodies always return.** Of all entries of its table, only that for the
outer handler contributes anything. -/
theorem entries_ecjNoFlowOut (hc : c.Unambiguous)
    (h : c.Holds d ((ecjNoFlowOut r primary merged result).nodes.map (Node.map num))) :
    ((ecjNoFlowOutTable r).map (Block.map num)).flatMap (entry c) =
      [(ecjNoFlowOut r primary merged result).normalRange d,
        (ecjNoFlowOut r primary merged result).handlerRange d] := by
  obtain ⟨-, -, -, hhandler, -⟩ := Segments.holds_nodes_iff.1 h
  have hs : c.labelPosition? (num (.handler 0)) =
      some ((ecjNoFlowOut r primary merged result).sighting d).handler.first :=
    hc.labelPosition?_eq hhandler.1
  rw [ecjNoFlowOutTable, entries_cons, entry_of_recognise hs (recognise_ecjNoFlowOut h)]
  intro b hb
  obtain ⟨i, hi, rfl⟩ := List.mem_map.1 hb
  simp only [ecjNoFlowOut, List.map_append, List.map_flatMap, Code.holds_append_iff] at hhandler
  obtain ⟨-, hhandlers, -⟩ := hhandler
  -- the handler for what closing a resource throws is numbered like the next one
  obtain ⟨j, rfl⟩ : ∃ j, i = j + 1 := ⟨i - 1, by have := List.mem_range'_1.1 hi; omega⟩
  have hj : j ∈ List.range' 0 r.count := by
    have := List.mem_range'_1.1 hi
    exact List.mem_range'_1.2 (by omega)
  obtain ⟨q, hq⟩ := hhandlers.exists_of_flatMap hj
  simp only [handlersOf, List.map_append, Code.holds_append_iff] at hq
  exact entry_merging hc hq.1.2

end TryResources.Compiled
