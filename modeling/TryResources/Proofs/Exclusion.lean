import TryResources.Filter
import TryResources.Proofs.Clash
import TryResources.Proofs.Ecj.FlowOut
import TryResources.Proofs.Ecj.NoFlowOut
import TryResources.Proofs.Javac

/-!
# Templates that exclude each other

At one handler, at most one template of javac succeeds, and none of ecj does if one of javac does:
the patterns of their handlers clash. The two templates of ecj do not exclude each other. The
handlers that they expect are the same if there is one resource, and clash for any other numbers,
so both succeed exactly on statements with one resource that end in a jump; they then report the
same statement, but for the jump and the label of the handler.

* `Javac.Sighted.shape_unique`: a handler has one shape.
* `Ecj.count_eq_one_of_reads`: both handlers of ecj are read where there is one resource only.
* `Ecj.sameStatement_of_sighted`: what the two templates of ecj then report.
* `attempt_exclusive`: which templates succeed together.
-/

namespace TryResources

open Matching

variable {code : Code} {s p q n n' : Nat} {w w' : Sighting}

/-! ## Templates of javac -/

namespace Javac

variable {shape shape' : Shape} {x x' : Locals} {e e' : Slot}

theorem clash_handling (hne : shape ≠ shape') :
    clash (handling x e shape) (handling x' e' shape') = true := by
  cases shape <;> cases shape' <;> first
    | exact absurd rfl hne
    | simp [clash, Token.apart, Token.opcodes, handling, closing, byHelper, ifNull, inPlace]

/-- A handler has one shape. -/
theorem Sighted.shape_unique (h : Sighted code shape s x w) (h' : Sighted code shape' s x' w') :
    shape = shape' := by
  by_contra hne
  obtain ⟨e, hhandler⟩ := h.handler
  obtain ⟨e', hhandler'⟩ := h'.handler
  exact hhandler.not_reads_of_clash (clash_handling hne) hhandler'

/-- The handler of javac stores the primary exception where that of ecj checks a resource. -/
theorem clash_handling_flowOut {primary : Slot} {u : Nat → Ecj.Use} {last : Ecj.Merging} :
    clash (handling x e shape) (Ecj.FlowOut.handling primary u last n) = true := by
  simp [clash, Token.apart, Token.opcodes, handling, Ecj.FlowOut.handling, Ecj.closingAndThrowing]

/-- So it does where that of ecj checks a resource, or throws. -/
theorem clash_handling_noFlowOut {primary : Slot} {u : Nat → Ecj.Use} :
    clash (handling x e shape) (Ecj.NoFlowOut.handling primary u n) = true := by
  cases n <;> simp [clash, Token.apart, Token.opcodes, handling, Ecj.NoFlowOut.handling,
    Ecj.NoFlowOut.handlingOf, Ecj.closingAndThrowing, Ecj.throwing, List.range'_succ]

end Javac

/-! ## Templates of ecj -/

namespace Ecj

variable {primary primary' : Slot} {u u' : Nat → Use} {last : Merging}

/-- The handlers of the two templates clash for any numbers of resources but one and one: either
one throws where the other one checks a resource, or one merges where the other one does. -/
theorem clash_handling (hn : 1 ≤ n) (hne : ¬ (n = 1 ∧ n' = 1)) :
    clash (FlowOut.handling primary u last n) (NoFlowOut.handling primary' u' n') = true := by
  obtain rfl | ⟨k, rfl⟩ : n = 1 ∨ ∃ k, n = k + 2 := by
    rcases Nat.lt_or_ge 1 n with h | h
    · exact .inr ⟨n - 2, by omega⟩
    · exact .inl (by omega)
  · obtain rfl | ⟨k', rfl⟩ : n' = 0 ∨ ∃ k', n' = k' + 2 := by
      rcases Nat.lt_or_ge 1 n' with h | h
      · exact .inr ⟨n' - 2, by omega⟩
      · exact .inl (by omega)
    · simp [clash, Token.apart, Token.opcodes, FlowOut.handling, NoFlowOut.handling,
        closingAndThrowing, throwing]
    · simp [clash, Token.apart, Token.opcodes, FlowOut.handling, NoFlowOut.handling,
        NoFlowOut.handlingOf, closingAndThrowing, merging, throwing, List.range'_succ]
  · cases n' <;> simp [clash, Token.apart, Token.opcodes, FlowOut.handling, FlowOut.closingNext,
      NoFlowOut.handling, NoFlowOut.handlingOf, closing, closingAndThrowing, merging, throwing,
      List.range'_succ]

/-- The code of a handler that suits both templates is that of a single resource. -/
theorem count_eq_one_of_reads (hn : 1 ≤ n)
    (h : Reads code s (FlowOut.handling primary u last n) p)
    (h' : Reads code s (NoFlowOut.handling primary' u' n') q) : n = 1 ∧ n' = 1 := by
  by_contra hne
  refine h.not_reads_of_clash (clash_handling hn hne) h'

/-- Two sightings of one statement, with one resource, that may end normally: one of them leaves
out the jump behind the block that closes the resource, and takes in the label of the handler. -/
structure SameStatement (code : Code) (s : Nat) (flowOut noFlowOut : Sighting) : Prop where
  normalFirst : flowOut.normal.first = noFlowOut.normal.first
  /-- The shorter block ends with the call of `close`. -/
  closes : ∃ i owner, code.insn? noFlowOut.normal.last = some i ∧ (Token.close owner).Fits i
  /-- The longer one ends with the jump that is the next instruction. -/
  jumps : ∃ i, code.FirstInsn (noFlowOut.normal.last + 1) flowOut.normal.last i ∧
    i.opcode.isUnconditionalJump = true
  handlerFirst : noFlowOut.handler.first = s ∧ flowOut.handler.first = s + 1
  handlerLast : flowOut.handler.last = noFlowOut.handler.last

/-- The handlers of one resource are the same, if the resource merges what the last merge does. -/
theorem noFlowOut_handling_one :
    NoFlowOut.handling primary (fun _ => { u 0 with merging := last }) 1 =
      FlowOut.handling primary u last 1 := rfl

/-- A statement with one resource that ends in a jump is also one that never ends normally. -/
theorem FlowOut.Sighted.exists_noFlowOut (h : FlowOut.Sighted code s 1 primary u last w) :
    ∃ u' w', NoFlowOut.Sighted code s 1 primary u' w' ∧ SameStatement code s w w' := by
  obtain ⟨-, hhandler, hfirst', hgreatest, ts, hts, q, i, hblock, hi, hjump⟩ := h
  have hlen := hblock.length_le
  obtain ⟨target, rfl⟩ := hts
  have hcall : Reads code w.normal.first
      ([.slot .aload (u 0).slot, .jump .ifnull target, .slot .aload (u 0).slot] ++
        [.close (u 0).owner]) q := hblock
  obtain ⟨i', hi', hclose⟩ := hcall.last trivial
  have hq : q - 1 + 1 = q := by
    simp only [closing, List.length_cons] at hlen
    omega
  -- what the last merge uses is what the resource merges with
  refine ⟨fun _ => { u 0 with merging := last }, ⟨⟨w.normal.first, q - 1⟩, ⟨s, w.handler.last⟩⟩,
    ⟨?_, rfl, ?_, closing (u 0).slot (u 0).owner target, ?_, [], ?_, ?_⟩,
    ⟨rfl, ⟨i', _, hi', hclose⟩, ⟨i, hq.symm ▸ hi, hjump⟩, ⟨rfl, hfirst'⟩, rfl⟩⟩
  · rw [noFlowOut_handling_one]
    exact hhandler
  · have hblocks : NoFlowOut.firstClosings (fun _ => { u 0 with merging := last }) 1 =
        closings (u 0).slot (u 0).owner := by
      ext ts
      simp [NoFlowOut.firstClosings, closings]
    rw [hblocks]
    exact hgreatest
  · exact ⟨_, _, target, fun _ => ⟨rfl, rfl⟩, rfl⟩
  · exact ⟨fun _ => target, rfl⟩
  · simpa [hq] using hblock

/-- What both templates of ecj recognise is one statement. -/
theorem sameStatement_of_sighted (h : FlowOut.Sighted code s n primary u last w)
    (h' : NoFlowOut.Sighted code s n' primary' u' w') : SameStatement code s w w' := by
  obtain ⟨rfl, rfl⟩ := count_eq_one_of_reads h.count h.handler h'.handler
  obtain ⟨u₁, w₁, h₁, hsame⟩ := h.exists_noFlowOut
  -- at one handler a template recognises one statement only
  have hw₁ : ((({} : Matcher).restart s).attempt code .ecjNoFlowOut).1 = some w₁ :=
    NoFlowOut.attempt_eq_some_iff.2 ⟨1, primary, u₁, h₁⟩
  rw [NoFlowOut.attempt_eq_some_iff.2 ⟨1, primary', u', h'⟩] at hw₁
  rw [Option.some.inj hw₁]
  exact hsame

end Ecj

/-! ## Attempts -/

/-- If at most one candidate has an answer, the candidates may be asked in any order. -/
theorem findSome?_eq_of_perm {α β : Type} {g : α → Option β} {xs ys : List α} (h : xs.Perm ys)
    (hunique : ∀ a b, (g a).isSome → (g b).isSome → a = b) : xs.findSome? g = ys.findSome? g := by
  have eq_some_iff (zs : List α) (b : β) : zs.findSome? g = some b ↔ ∃ a ∈ zs, g a = some b := by
    constructor
    · exact List.exists_of_findSome?_eq_some
    · rintro ⟨a, ha, hb⟩
      cases hfound : zs.findSome? g with
      | none => simp [List.findSome?_eq_none_iff.1 hfound a ha] at hb
      | some b' =>
        obtain ⟨a', -, hb'⟩ := List.exists_of_findSome?_eq_some hfound
        obtain rfl := hunique a a' (by simp [hb]) (by simp [hb'])
        rw [← hb, ← hb']
  ext b
  simp only [eq_some_iff, h.mem_iff]

/-- **Templates that exclude each other.** Whatever the code and wherever the templates are tried,
each by a matcher that may have been used before: at most one shape of javac succeeds, so the order
in which the shapes are tried does not matter; if one does, neither template of ecj succeeds; and
both templates of ecj succeed exactly on a statement with one resource that ends in a jump, and
then report one and the same statement. -/
theorem attempt_exclusive (code : Code) (s : Nat) (k : Template → Matcher) :
    let found (t : Template) := (((k t).restart s).attempt code t).1
    {shape | (found (.javac shape)).isSome}.Subsingleton ∧
    (∀ shapes : List Javac.Shape, shapes.Perm Javac.Shape.all → ∀ k k' : Matcher,
      (Trial.run code s (shapes.map .javac) k).1.accepted =
        (Trial.run code s (Javac.Shape.all.map .javac) k').1.accepted) ∧
    (∀ shape, (found (.javac shape)).isSome → found .ecj = none ∧ found .ecjNoFlowOut = none) ∧
    ((found .ecj).isSome ∧ (found .ecjNoFlowOut).isSome ↔
      ∃ w ∈ found .ecj, ∃ primary u last, Ecj.FlowOut.Sighted code s 1 primary u last w) ∧
    ∀ w ∈ found .ecj, ∀ w' ∈ found .ecjNoFlowOut, Ecj.SameStatement code s w w' := by
  intro found
  have hjavac {shape : Javac.Shape} {w : Sighting} :
      found (.javac shape) = some w ↔ ∃ x, Javac.Sighted code shape s x w :=
    Javac.attempt_eq_some_iff
  have hflow {w : Sighting} :
      found .ecj = some w ↔ ∃ n primary u last, Ecj.FlowOut.Sighted code s n primary u last w :=
    Ecj.FlowOut.attempt_eq_some_iff
  have hno {w : Sighting} :
      found .ecjNoFlowOut = some w ↔ ∃ n primary u, Ecj.NoFlowOut.Sighted code s n primary u w :=
    Ecj.NoFlowOut.attempt_eq_some_iff
  have hunique {shape shape' : Javac.Shape} (h : (found (.javac shape)).isSome)
      (h' : (found (.javac shape')).isSome) : shape = shape' := by
    obtain ⟨w, hw⟩ := Option.isSome_iff_exists.1 h
    obtain ⟨w', hw'⟩ := Option.isSome_iff_exists.1 h'
    obtain ⟨x, hx⟩ := hjavac.1 hw
    obtain ⟨x', hx'⟩ := hjavac.1 hw'
    exact hx.shape_unique hx'
  refine ⟨fun _ h _ h' => hunique h h', ?_, ?_, ?_, ?_⟩
  · intro shapes hperm k k'
    rw [Trial.accepted_run, Trial.accepted_run, List.findSome?_map, List.findSome?_map]
    refine findSome?_eq_of_perm hperm fun shape shape' h h' => ?_
    rw [Function.comp_apply, Option.isSome_map] at h h'
    exact hunique h h'
  · intro shape h
    obtain ⟨w, hw⟩ := Option.isSome_iff_exists.1 h
    obtain ⟨x, hx⟩ := hjavac.1 hw
    obtain ⟨e, hhandler⟩ := hx.handler
    constructor
    · refine Option.eq_none_iff_forall_not_mem.2 fun w' hw' => ?_
      obtain ⟨n, primary, u, last, hu⟩ := hflow.1 hw'
      exact hhandler.not_reads_of_clash Javac.clash_handling_flowOut hu.handler
    · refine Option.eq_none_iff_forall_not_mem.2 fun w' hw' => ?_
      obtain ⟨n, primary, u, hu⟩ := hno.1 hw'
      exact hhandler.not_reads_of_clash Javac.clash_handling_noFlowOut hu.handler
  · constructor
    · rintro ⟨h, h'⟩
      obtain ⟨w, hw⟩ := Option.isSome_iff_exists.1 h
      obtain ⟨w', hw'⟩ := Option.isSome_iff_exists.1 h'
      obtain ⟨n, primary, u, last, hu⟩ := hflow.1 hw
      obtain ⟨n', primary', u', hu'⟩ := hno.1 hw'
      obtain ⟨rfl, -⟩ := Ecj.count_eq_one_of_reads hu.count hu.handler hu'.handler
      exact ⟨w, hw, primary, u, last, hu⟩
    · rintro ⟨w, hw, primary, u, last, hu⟩
      obtain ⟨u', w', hu', -⟩ := hu.exists_noFlowOut
      exact ⟨Option.isSome_iff_exists.2 ⟨w, hw⟩,
        Option.isSome_iff_exists.2 ⟨w', hno.2 ⟨1, primary, u', hu'⟩⟩⟩
  · intro w hw w' hw'
    obtain ⟨n, primary, u, last, hu⟩ := hflow.1 hw
    obtain ⟨n', primary', u', hu'⟩ := hno.1 hw'
    exact Ecj.sameStatement_of_sighted hu hu'

/-- A statement compiled by javac, with its handler at 4, and behind it one compiled by ecj, with
its handler at 22. -/
def twoStatements : Code :=
  let helper : Member :=
    ⟨"Main", "$closeResource", "(Ljava/lang/Throwable;Ljava/lang/AutoCloseable;)V"⟩
  let close : Member := ⟨"java/io/Reader", "close", "()V"⟩
  let addSuppressed : Member :=
    ⟨"java/lang/Throwable", "addSuppressed", "(Ljava/lang/Throwable;)V"⟩
  .ofList [
    .label ⟨0⟩,
    .insn ⟨.aload, .slot 2⟩, .insn ⟨.aload, .slot 1⟩, .insn ⟨.invokestatic, .member helper⟩,
    .label ⟨1⟩,
    .insn ⟨.astore, .slot 3⟩, .insn ⟨.aload, .slot 3⟩, .insn ⟨.astore, .slot 2⟩,
    .insn ⟨.aload, .slot 3⟩, .insn ⟨.athrow, .none⟩,
    .insn ⟨.astore, .slot 4⟩,
    .insn ⟨.aload, .slot 2⟩, .insn ⟨.aload, .slot 1⟩, .insn ⟨.invokestatic, .member helper⟩,
    .insn ⟨.aload, .slot 4⟩, .insn ⟨.athrow, .none⟩,
    .insn ⟨.aload, .slot 5⟩, .insn ⟨.ifnull, .target ⟨2⟩⟩,
    .insn ⟨.aload, .slot 5⟩, .insn ⟨.invokevirtual, .member close⟩,
    .label ⟨2⟩, .insn ⟨.goto, .target ⟨7⟩⟩,
    .label ⟨3⟩,
    .insn ⟨.astore, .slot 2⟩,
    .insn ⟨.aload, .slot 5⟩, .insn ⟨.ifnull, .target ⟨4⟩⟩,
    .insn ⟨.aload, .slot 5⟩, .insn ⟨.invokevirtual, .member close⟩,
    .label ⟨4⟩, .insn ⟨.aload, .slot 2⟩, .insn ⟨.athrow, .none⟩,
    .insn ⟨.astore, .slot 6⟩,
    .insn ⟨.aload, .slot 2⟩, .insn ⟨.ifnonnull, .target ⟨5⟩⟩,
    .insn ⟨.aload, .slot 6⟩, .insn ⟨.astore, .slot 2⟩, .insn ⟨.goto, .target ⟨6⟩⟩,
    .label ⟨5⟩,
    .insn ⟨.aload, .slot 2⟩, .insn ⟨.aload, .slot 6⟩, .insn ⟨.ifAcmpeq, .target ⟨6⟩⟩,
    .insn ⟨.aload, .slot 2⟩, .insn ⟨.aload, .slot 6⟩, .insn ⟨.invokevirtual, .member addSuppressed⟩,
    .label ⟨6⟩, .insn ⟨.aload, .slot 2⟩, .insn ⟨.athrow, .none⟩,
    .label ⟨7⟩, .insn ⟨.returnVoid, .none⟩]

theorem attempt_exclusive_twoStatements :
    let found (s : Nat) (t : Template) := ((({} : Matcher).restart s).attempt twoStatements t).1
    ((found 4 (.javac .optimal)).isSome ∧ found 4 .ecj = none ∧ found 4 .ecjNoFlowOut = none) ∧
    (Javac.Shape.all.reverse.Perm Javac.Shape.all ∧
      (Trial.run twoStatements 4 (Javac.Shape.all.reverse.map .javac) {}).1.accepted =
        (Trial.run twoStatements 4 (Javac.Shape.all.map .javac) {}).1.accepted) ∧
    found 22 .ecj = some ⟨⟨16, 21⟩, ⟨23, 46⟩⟩ ∧ found 22 .ecjNoFlowOut = some ⟨⟨16, 19⟩, ⟨22, 46⟩⟩ ∧
      Ecj.SameStatement twoStatements 22 ⟨⟨16, 21⟩, ⟨23, 46⟩⟩ ⟨⟨16, 19⟩, ⟨22, 46⟩⟩ := by
  intro found
  have hjavac : (found 4 (.javac .optimal)).isSome := by decide +kernel
  have hflow : found 22 .ecj = some ⟨⟨16, 21⟩, ⟨23, 46⟩⟩ := by decide +kernel
  have hno : found 22 .ecjNoFlowOut = some ⟨⟨16, 19⟩, ⟨22, 46⟩⟩ := by decide +kernel
  obtain ⟨-, horder, hecj, -, -⟩ := attempt_exclusive twoStatements 4 fun _ => {}
  have hperm : Javac.Shape.all.reverse.Perm Javac.Shape.all := List.reverse_perm _
  exact ⟨⟨hjavac, hecj .optimal hjavac⟩, ⟨hperm, horder _ hperm {} {}⟩, hflow, hno,
    (attempt_exclusive twoStatements 22 fun _ => {}).2.2.2.2 _ hflow _ hno⟩

end TryResources
