import TryResources.Proofs.Blockwise
import TryResources.Proofs.Compiled

/-!
# Statements in a body

What a body that holds the nodes of a statement says about the statement: what its segments consist
of is read there, and its normal path is the last block in front of its handler. What the entries of
its exception table contribute then depends on the code at their handlers only.

* `Segments.reads_normal`, `Segments.reads_handler`: what the segments consist of is read.
* `Segments.isGreatest_normal`: where the normal path starts.
* `entry_of_recognise`: an entry at whose handler a statement is recognised contributes its ranges.
* `entry_some_of_clash`, `entry_none_of_clash`: an entry contributes nothing if the code at its
  handler clashes with everything that might be recognised.
-/

namespace TryResources.Compiled

open Matching

variable {c : Code} {num : Label → LabelId} {d f l q s : Nat} {ts : List Token}

/-! ## Segments -/

namespace Segments

/-- Where the two ranges of a statement are whose first node is at position `d`. -/
def sighting (g : Segments) (d : Nat) : Sighting :=
  ⟨⟨(g.normalRange d).first, (g.normalRange d).last⟩,
    ⟨(g.handlerRange d).first, (g.handlerRange d).last⟩⟩

theorem ranges_sighting (g : Segments) (d : Nat) :
    (g.sighting d).ranges = .ok (g.normalRange d, g.handlerRange d) :=
  bind_eq_ok_iff.2 ⟨_, Range.between_eq_ok_iff.2 ⟨rfl, rfl⟩,
    bind_eq_ok_iff.2 ⟨_, Range.between_eq_ok_iff.2 ⟨rfl, rfl⟩, rfl⟩⟩

variable {g : Segments}

/-- The nodes of a statement are held segment by segment. -/
theorem holds_nodes_iff : c.Holds d (g.nodes.map (Node.map num)) ↔
    c.Holds d (g.before.map (Node.map num)) ∧
    c.Holds (d + g.before.length) (g.normal.map (Node.map num)) ∧
    c.Holds (d + g.before.length + g.normal.length) (g.between.map (Node.map num)) ∧
    c.Holds (d + g.before.length + g.normal.length + g.between.length)
      (g.handler.map (Node.map num)) ∧
    c.Holds (d + g.before.length + g.normal.length + g.between.length + g.handler.length)
      (g.after.map (Node.map num)) := by
  simp only [nodes, List.map_append, Code.holds_append_iff, List.length_map]

theorem last_normal_add_one (g : Segments) (d : Nat) :
    (g.sighting d).normal.last + 1 = d + g.before.length + g.normal.length := by
  have := g.normal_pos
  simp only [sighting, normalRange]
  omega

theorem last_handler_add_one (g : Segments) (d : Nat) : (g.sighting d).handler.last + 1 =
    d + g.before.length + g.normal.length + g.between.length + g.handler.length := by
  have := g.handler_pos
  simp only [sighting, handlerRange]
  omega

/-- Behind the normal path, a label marks where the handler starts. -/
theorem first_handler (hbetween : g.between.length = 1) (d : Nat) :
    (g.sighting d).handler.first = (g.sighting d).normal.last + 1 + 1 := by
  rw [last_normal_add_one]
  simp only [sighting, handlerRange, hbetween]

variable (h : c.Holds d (g.nodes.map (Node.map num)))
include h

theorem reads_normal (hts : Consists ts (g.normal.map (Node.map num))) :
    Reads c (g.sighting d).normal.first ts ((g.sighting d).normal.last + 1) := by
  obtain ⟨-, hnormal, -⟩ := holds_nodes_iff.1 h
  have hread := hts.reads hnormal
  rw [List.length_map] at hread
  rw [last_normal_add_one]
  exact hread

theorem reads_normal_between (hts : Consists ts ((g.normal ++ g.between).map (Node.map num))) :
    Reads c (g.sighting d).normal.first ts (g.sighting d).handler.first := by
  obtain ⟨-, hnormal, hbetween, -⟩ := holds_nodes_iff.1 h
  rw [List.map_append] at hts
  have hread := hts.reads (Code.holds_append_iff.2 ⟨hnormal, by rwa [List.length_map]⟩)
  rw [List.length_append, List.length_map, List.length_map, ← Nat.add_assoc] at hread
  exact hread

theorem reads_between_handler (hts : Consists ts ((g.between ++ g.handler).map (Node.map num))) :
    Reads c ((g.sighting d).normal.last + 1) ts ((g.sighting d).handler.last + 1) := by
  obtain ⟨-, -, hbetween, hhandler, -⟩ := holds_nodes_iff.1 h
  rw [List.map_append] at hts
  have hread := hts.reads (Code.holds_append_iff.2 ⟨hbetween, by rwa [List.length_map]⟩)
  rw [List.length_append, List.length_map, List.length_map, ← Nat.add_assoc] at hread
  rw [last_normal_add_one, last_handler_add_one]
  exact hread

theorem reads_handler (hts : Consists ts (g.handler.map (Node.map num))) :
    Reads c (g.sighting d).handler.first ts ((g.sighting d).handler.last + 1) := by
  obtain ⟨-, -, -, hhandler, -⟩ := holds_nodes_iff.1 h
  have hread := hts.reads hhandler
  rw [List.length_map] at hread
  rw [last_handler_add_one]
  exact hread

/-- The label behind the normal path is found there. -/
theorem labelPosition?_between {l : Label} {rest : List (Node Label)} (hc : c.Unambiguous)
    (hl : g.between = .label l :: rest) :
    c.labelPosition? (num l) = some ((g.sighting d).normal.last + 1) := by
  obtain ⟨-, -, hbetween, -⟩ := holds_nodes_iff.1 h
  rw [hl] at hbetween
  rw [last_normal_add_one]
  exact hc.labelPosition?_eq hbetween.1

/-- The normal path starts with the last block in front of the handler, if no block starts within
it. -/
theorem isGreatest_normal {patterns : Set (List Token)}
    (hreads : Reads c (g.sighting d).normal.first ts s) (hne : ts ≠ [])
    (hinsn : ∀ t ∈ ts, t.IsInsn) (habsent : ∀ ys ∈ patterns, absent ys ts.tail = true)
    (hblock : ∃ ys ∈ patterns, ∃ q, Reads c (g.sighting d).normal.first ys q) :
    IsGreatest (c.blocksBefore patterns s) (g.sighting d).normal.first := by
  obtain ⟨-, hnormal, -⟩ := holds_nodes_iff.1 h
  obtain ⟨i, rest, hhead⟩ := g.normal_head
  have hfirst : c.insn? (g.sighting d).normal.first = some (i.map num) := by
    rw [hhead] at hnormal
    exact Code.insn?_eq_some_iff.2 hnormal.1
  have hpos : 1 ≤ (g.sighting d).normal.first := by
    have := g.before_pos
    simp only [sighting, normalRange]
    omega
  obtain ⟨t, rest, rfl⟩ := List.exists_cons_of_ne_nil hne
  exact isGreatest_blocksBefore hreads hinsn habsent hpos ⟨_, hfirst⟩ hblock

end Segments

/-- A jump behind a block is the next instruction there. -/
theorem exists_jump_of_reads (h : Reads c f (ts ++ [.op .goto]) (l + 1)) :
    ∃ q i, Reads c f ts q ∧ c.FirstInsn q l i ∧ i.opcode.isUnconditionalJump = true := by
  obtain ⟨q, hblock, hjump⟩ := reads_append_iff.1 h
  obtain ⟨m, ⟨i, hi, hgoto⟩, hend⟩ := reads_cons_iff.1 hjump
  obtain rfl : m = l := Nat.succ.inj (reads_nil_iff.1 hend)
  refine ⟨q, i, hblock, hi, ?_⟩
  rw [show i.opcode = .goto from hgoto]
  rfl

/-! ## Entries of the exception table -/

/-- What an entry contributes to the ranges of a method. -/
def entry (c : Code) (b : Block LabelId) : List Range :=
  ({} : Options).contribution c (c.labelPosition? b.handler) b.catchType

section

variable {o : Options} {catchType : Option String} {t : Template} {w : Sighting} {b : Block LabelId}
  {g : Segments}

/-- If one template alone fits a handler, it is the one that is recognised. -/
theorem recognise_eq_some (ht : t ∈ o.templates catchType)
    (hw : ((({} : Matcher).restart s).attempt c t).1 = some w)
    (hunique : ∀ t' ∈ o.templates catchType, ∀ w',
      ((({} : Matcher).restart s).attempt c t').1 = some w' → t' = t) :
    o.recognise c s catchType = some (t, w) := by
  cases hfound : o.recognise c s catchType with
  | none =>
    have hnone := List.findSome?_eq_none_iff.1 hfound t ht
    simp [hw] at hnone
  | some found =>
    obtain ⟨t', w'⟩ := found
    obtain ⟨ht', hattempt, -⟩ := Options.of_recognise_eq_some hfound
    obtain rfl := hunique t' ht' w' (hattempt {})
    rw [hattempt {}] at hw
    rw [Option.some.inj hw]

/-- An entry at whose handler a statement is recognised contributes both ranges of it. -/
theorem entry_of_recognise (hs : c.labelPosition? b.handler = some s)
    (h : ({} : Options).recognise c s b.catchType = some (t, g.sighting d)) :
    entry c b = [g.normalRange d, g.handlerRange d] := by
  rw [entry, hs, Options.contribution_of_recognise h (g.ranges_sighting d)]
  rfl

/-- An entry contributes nothing if the code at its handler parts from every handler that javac
might have emitted for a statement. -/
theorem entry_some_of_clash {type : String} (hs : c.labelPosition? b.handler = some s)
    (htype : b.catchType = some type) (h : Reads c s ts q)
    (hclash : ∀ shape x e, clash ts (Javac.handling x e shape) = true) : entry c b = [] := by
  rw [entry, hs, htype]
  rcases ({} : Options).contribution_eq_nil_or c (some s) (some type) with hnil | hsome
  · exact hnil
  obtain ⟨s', t, w, _, _, hs', ht, hattempt, -⟩ := hsome
  obtain rfl := Option.some.inj hs'
  obtain ⟨shape, -, rfl⟩ : ∃ shape ∈ Javac.Shape.all, .javac shape = t := by
    rw [Options.templates] at ht
    split at ht
    · exact List.mem_map.1 ht
    · cases ht
  obtain ⟨x, hx⟩ := Javac.attempt_eq_some_iff.1 (hattempt {})
  obtain ⟨e, hhandler⟩ := hx.handler
  exact absurd hhandler (h.not_reads_of_clash (hclash shape x e))

/-- So does an entry that catches everything, if the code parts from every handler of ecj: it either
closes a resource first, or throws at once. -/
theorem entry_none_of_clash (hs : c.labelPosition? b.handler = some s)
    (hany : b.catchType = none) (h : Reads c s ts q)
    (hclosing : ∀ primary u rest,
      clash ts (.slot .astore primary :: Ecj.closingAndThrowing primary u ++ rest) = true)
    (hthrowing : ∀ primary, clash ts (.slot .astore primary :: Ecj.throwing primary) = true) :
    entry c b = [] := by
  rw [entry, hs, hany]
  rcases ({} : Options).contribution_eq_nil_or c (some s) none with hnil | hsome
  · exact hnil
  obtain ⟨s', t, w, _, _, hs', ht, hattempt, -⟩ := hsome
  obtain rfl := Option.some.inj hs'
  cases t with
  | javac shape => simp [Options.templates] at ht
  | ecj =>
    obtain ⟨n, primary, u, last, hu⟩ := Ecj.FlowOut.attempt_eq_some_iff.1 (hattempt {})
    exact absurd hu.handler (h.not_reads_of_clash (hclosing primary (u 0) _))
  | ecjNoFlowOut =>
    obtain ⟨n, primary, u, hu⟩ := Ecj.NoFlowOut.attempt_eq_some_iff.1 (hattempt {})
    have hhandler := hu.handler
    rw [Ecj.NoFlowOut.handling] at hhandler
    cases n with
    | zero => exact absurd hhandler (h.not_reads_of_clash (hthrowing primary))
    | succ n =>
      rw [List.range'_succ, List.flatMap_cons, Ecj.NoFlowOut.handlingOf, List.append_assoc,
        List.append_assoc] at hhandler
      exact absurd hhandler (h.not_reads_of_clash (hclosing primary (u 0) _))

end

end TryResources.Compiled
