import TryResources.Proofs.Compiled.Placed
import TryResources.Proofs.Exclusion

/-!
# Statements that javac emits

A statement of javac is recognised at its outer handler. The other handlers of its table report
nothing: those for what closing throws do not store the primary exception, and the one that closes
the resource catches everything, but does not close it as ecj does.

* `sighted_javac`: where the nodes of a statement are held, it is sighted.
* `entries_javac`: what its table contributes.
-/

namespace TryResources.Compiled

open Matching

variable {c : Code} {num : Label → LabelId} {d p s : Nat} {ts : List Token} {x : Javac.Locals}
  {e : Slot} {path : Path} {shape : Javac.Shape} {suppressed : Path → Slot}

/-! ## Nodes and patterns -/

theorem consists_closing :
    Consists (Javac.closing x e shape) ((closing x e path shape).map (Node.map num)) := by
  cases shape <;> simp [Consists, Token.Fits, Javac.closing, Javac.ifNull, Javac.byHelper,
    Javac.inPlace, closing, ifNull, byHelper, inPlace, suppressing, close, addSuppressed, Node.map,
    Instruction.map, Operand.map]

theorem consists_rethrowing : Consists
    (.slot .astore x.rethrown :: Javac.closing x e shape ++ [.slot .aload x.rethrown, .op .athrow])
    ((rethrowing x e shape).map (Node.map num)) := by
  have hfirst : Consists [.slot .astore x.rethrown]
      ([.label (.handler 1), .frame, store x.rethrown].map (Node.map num)) := by
    simp [Consists, Token.Fits, Node.map, Instruction.map, Operand.map]
  have hlast : Consists [.slot .aload x.rethrown, .op .athrow]
      ([.label (.done .exceptional), .frame, load x.rethrown, bare .athrow].map
        (Node.map num)) := by
    simp [Consists, Token.Fits, Node.map, Instruction.map, Operand.map]
  rw [rethrowing, List.map_append, List.map_append]
  exact (hfirst.append consists_closing).append hlast

theorem consists_handling : Consists (Javac.handling x (suppressed .exceptional) shape)
    (((javac shape x suppressed).between ++ (javac shape x suppressed).handler).map
      (Node.map num)) := by
  have hfirst : Consists [.slot .astore x.caught, .slot .aload x.caught, .slot .astore x.primary,
        .slot .aload x.caught, .op .athrow]
      ([.label (.handler 0), .frame, store x.caught, load x.caught, store x.primary, load x.caught,
        bare .athrow].map (Node.map num)) := by
    simp [Consists, Token.Fits, Node.map, Instruction.map, Operand.map]
  exact hfirst.append consists_rethrowing

theorem consists_normal : Consists (Javac.closing x e shape ++ [.op .goto])
    ((closing x e .normal shape ++ [.label (.done .normal), .frame, jump .goto .exit]).map
      (Node.map num)) := by
  have hlast : Consists [.op .goto]
      ([.label (.done .normal), .frame, jump .goto .exit].map (Node.map num)) := by
    simp [Consists, Token.Fits, Node.map, Instruction.map, Operand.map]
  rw [List.map_append]
  exact consists_closing.append hlast

theorem isInsn_closing {t : Token} (ht : t ∈ Javac.closing x e shape ++ [.op .goto]) :
    t.IsInsn := by
  revert t
  cases shape <;> simp [Javac.closing, Javac.ifNull, Javac.byHelper, Javac.inPlace, Token.IsInsn]

/-- No block that closes the resource starts within one. -/
theorem absent_closing (hts : ts ∈ Javac.closings x shape) :
    absent ts (Javac.closing x e shape ++ [Token.op .goto]).tail = true := by
  obtain ⟨e', rfl⟩ := hts
  cases shape <;> simp [absent, clash, Token.apart, Token.opcodes, Javac.closing, Javac.ifNull,
    Javac.byHelper, Javac.inPlace]

/-- Where a statement of javac stands, it is sighted. -/
theorem sighted_javac
    (h : c.Holds d ((javac shape x suppressed).nodes.map (Node.map num))) :
    Javac.Sighted c shape (((javac shape x suppressed).sighting d).normal.last + 1) x
      ((javac shape x suppressed).sighting d) := by
  have hnormal := Segments.reads_normal h consists_normal
  have hhandler := Segments.reads_between_handler h consists_handling
  obtain ⟨q, i, hblock, hjump⟩ := exists_jump_of_reads hnormal
  have hmem : Javac.closing x (suppressed .normal) shape ∈ Javac.closings x shape := ⟨_, rfl⟩
  have hgreatest := Segments.isGreatest_normal h hnormal (by simp) (fun t => isInsn_closing)
    (fun ys => absent_closing) ⟨_, hmem, q, hblock⟩
  exact ⟨⟨_, hhandler⟩, Segments.first_handler rfl d, hgreatest, _, hmem, q, hblock,
    .inl ⟨i, hjump⟩⟩

theorem recognise_javac {w : Sighting} (h : Javac.Sighted c shape s x w) :
    ({} : Options).recognise c s (some throwable) = some (.javac shape, w) := by
  have htemplates : ({} : Options).templates (some throwable) = Javac.Shape.all.map .javac := rfl
  refine recognise_eq_some ?_ (Javac.attempt_eq_some_iff.2 ⟨x, h⟩) ?_
  · rw [htemplates]
    exact List.mem_map_of_mem shape.mem_all
  · intro t' ht' w' hw'
    rw [htemplates] at ht'
    obtain ⟨shape', -, rfl⟩ := List.mem_map.1 ht'
    obtain ⟨x', hx'⟩ := Javac.attempt_eq_some_iff.1 hw'
    rw [h.shape_unique hx']

/-- The handler that suppresses what closing throws reports nothing: it does not store the primary
exception. -/
theorem entries_closeTable (hc : c.Unambiguous)
    (h : c.Holds p ((closing x e path shape).map (Node.map num))) :
    ((closeTable path shape).map (Block.map num)).flatMap (entry c) = [] := by
  have hentry (hpart : suppressing x e path <:+: closing x e path shape) :
      entry c (Block.map num
        ⟨.closeStart path, .closeEnd path, .suppress path, some throwable⟩) = [] := by
    obtain ⟨s, hs⟩ := h.exists_part (hpart.map _)
    have hconsists : Consists [.slot .astore e, .slot .aload x.primary, .slot .aload e,
        .addSuppressed] ((suppressing x e path).map (Node.map num)) := by
      simp [Consists, Token.Fits, suppressing, addSuppressed, Node.map, Instruction.map,
        Operand.map]
    refine entry_some_of_clash (hc.labelPosition?_eq hs.1) rfl (hconsists.reads hs) ?_
    intro shape x e
    simp [clash, Token.apart, Token.opcodes, Javac.handling]
  have hinPlace : suppressing x e path <:+: inPlace x e path := List.infix_append _ _ _
  cases shape with
  | optimal => rfl
  | method => rfl
  | full => simp [closeTable, hentry (hinPlace.trans (List.suffix_append _ _).isInfix)]
  | omittedNullCheck => simp [closeTable, hentry hinPlace]

/-- The second handler reports nothing, though it catches everything: it closes the resource in a
way in which ecj does not. -/
theorem entry_rethrowing (hc : c.Unambiguous)
    (h : c.Holds p ((rethrowing x e shape).map (Node.map num))) :
    entry c (Block.map num ⟨.tryStart, .handler 1, .handler 1, none⟩) = [] := by
  have hs : c.labelPosition? (num (.handler 1)) = some p := hc.labelPosition?_eq h.1
  cases shape with
  | omittedNullCheck =>
    -- what tells is that the code goes on behind the label behind the call of `close`
    let part : List (Node Label) := [.label (.handler 1), .frame, store x.rethrown,
      load x.primary, jump .ifnull (.plain .exceptional), .label (.closeStart .exceptional),
      load x.resource, call .invokevirtual x.owner "close" "()V",
      .label (.closeEnd .exceptional), jump .goto (.done .exceptional)]
    have hpart : part <+: rethrowing x e .omittedNullCheck := ⟨_, rfl⟩
    have hconsists : Consists [.slot .astore x.rethrown, .slot .aload x.primary, .op .ifnull,
        .slot .aload x.resource, .close x.owner, .label (num (.closeEnd .exceptional)), .op .goto]
        (part.map (Node.map num)) := by
      simp [part, Consists, Token.Fits, Node.map, Instruction.map, Operand.map]
    obtain ⟨rest, hrest⟩ := hpart
    rw [← hrest, List.map_append, Code.holds_append_iff] at h
    refine entry_none_of_clash hs rfl (hconsists.reads h.1) ?_ ?_ <;> intros <;>
      simp [clash, Token.apart, Token.opcodes, Ecj.closingAndThrowing, Ecj.throwing]
  | _ =>
    refine entry_none_of_clash hs rfl (consists_rethrowing.reads h) ?_ ?_ <;> intros <;>
      simp [clash, Token.apart, Token.opcodes, Javac.closing, Javac.byHelper, Javac.ifNull,
        Javac.inPlace, Ecj.closingAndThrowing, Ecj.throwing]

/-- **Statements of javac.** Of all entries of its table, only that for the outer handler
contributes anything. -/
theorem entries_javac (hc : c.Unambiguous)
    (h : c.Holds d ((javac shape x suppressed).nodes.map (Node.map num))) :
    ((javacTable shape).map (Block.map num)).flatMap (entry c) =
      [(javac shape x suppressed).normalRange d, (javac shape x suppressed).handlerRange d] := by
  obtain ⟨-, hnormal, -, hhandler, -⟩ := Segments.holds_nodes_iff.1 h
  simp only [javac, List.map_append, Code.holds_append_iff] at hnormal hhandler
  obtain ⟨hclosing, -⟩ := hnormal
  obtain ⟨-, hrethrowing⟩ := hhandler
  have hparts := hrethrowing
  simp only [rethrowing, List.map_append, Code.holds_append_iff] at hparts
  obtain ⟨⟨-, hclosing'⟩, -⟩ := hparts
  have hs := Segments.labelPosition?_between h hc rfl
  have houter := entry_of_recognise (b := Block.map num
    ⟨.tryStart, .tryEnd, .handler 0, some throwable⟩) hs (recognise_javac (sighted_javac h))
  simp [javacTable, entries_closeTable hc hclosing, entries_closeTable hc hclosing', houter,
    entry_rethrowing hc hrethrowing]

end TryResources.Compiled
