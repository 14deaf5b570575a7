import TryResources.Filter
import TryResources.Proofs.Ecj.FlowOut
import TryResources.Proofs.Ecj.NoFlowOut
import TryResources.Proofs.Javac

/-!
# Where recognised statements lie

A search for a block starts it in front of the handler, but nothing stops the block there: it could
run into the handler, and so could the jump behind it. Neither happens. What the handler starts
with is a store, which most blocks do not have; those that do would have to go on like the handler,
and cannot. So the two pieces of a statement lie apart, in order and inside the body.

* `WellPlaced`: what the places of a statement satisfy.
* `end_le_of_reads_closing`: the alignment argument, for the shapes that store an exception.
* `wellPlaced_of_attempt`: whatever a template recognises is well placed.
* `filter_wellPlaced`: so filtering never breaks a precondition.
-/

namespace TryResources

open Matching

/-- The two pieces of a statement whose handler starts at `s` lie apart, in order and inside the
body. The first piece goes from loading a resource to calling a method or jumping away, the second
one ends with a throw. -/
structure WellPlaced (code : Code) (s : Nat) (w : Sighting) : Prop where
  normal_pos : 1 ≤ w.normal.first
  normal_le : w.normal.first ≤ w.normal.last
  normal_lt : w.normal.last < s
  handler_ge : s ≤ w.handler.first
  handler_le : w.handler.first ≤ w.handler.last
  handler_lt : w.handler.last < code.size
  loads : ∃ i, code.insn? w.normal.first = some i ∧ i.opcode = .aload
  leaves : ∃ i, code.insn? w.normal.last = some i ∧
    (.invoke ∈ i.opcode.flags ∨ i.opcode.isUnconditionalJump = true)
  throws : ∃ i, code.insn? w.handler.last = some i ∧ i.opcode = .athrow

/-! ## Both ends of a pattern -/

variable {code : Code} {s p q f l : Nat} {x : Slot} {ts xs ys : List Token}

/-- A pattern that loads a variable first and makes a call last. -/
structure LoadsAndCalls (ts : List Token) : Prop where
  loads : ∃ x rest, ts = .slot .aload x :: rest
  calls : ∃ t, [t] <:+ ts ∧ t.IsInsn ∧ ∀ o ∈ t.opcodes, .invoke ∈ o.flags

theorem LoadsAndCalls.append (hx : ∃ x rest, xs = .slot .aload x :: rest)
    (hy : LoadsAndCalls ys) : LoadsAndCalls (xs ++ ys) := by
  obtain ⟨x, rest, rfl⟩ := hx
  obtain ⟨t, hsuffix, ht⟩ := hy.calls
  exact ⟨⟨x, rest ++ ys, rfl⟩, t, List.suffix_append_of_suffix hsuffix, ht⟩

theorem LoadsAndCalls.append_flatMap {f : Nat → List Token} (hx : LoadsAndCalls xs)
    (hf : ∀ i, LoadsAndCalls (f i)) (is : List Nat) : LoadsAndCalls (xs ++ is.flatMap f) := by
  induction is generalizing xs with
  | nil => simpa using hx
  | cons i is ih =>
    rw [List.flatMap_cons, ← List.append_assoc]
    exact ih ((hf i).append hx.loads)

theorem exists_aload_of_mem_blocksBefore {patterns : Set (List Token)}
    (hf : f ∈ code.blocksBefore patterns s) (hpatterns : ∀ ts ∈ patterns, LoadsAndCalls ts) :
    ∃ i, code.insn? f = some i ∧ i.opcode = .aload := by
  obtain ⟨-, -, ⟨i, hi⟩, ts, hts, q, hreads⟩ := hf
  obtain ⟨x, rest, rfl⟩ := (hpatterns ts hts).loads
  obtain ⟨m, ⟨i', hi', hfits⟩, -⟩ := reads_cons_iff.1 hreads
  obtain ⟨-, rfl⟩ := (Code.FirstInsn.self hi).unique hi'
  exact ⟨i, hi, by rw [hfits]⟩

theorem LoadsAndCalls.exists_invoke (hts : LoadsAndCalls ts) (h : Reads code f ts q) :
    f < q ∧ ∃ i, code.insn? (q - 1) = some i ∧ .invoke ∈ i.opcode.flags := by
  obtain ⟨t, ⟨rest, rfl⟩, ht, hinvoke⟩ := hts.calls
  obtain ⟨i, hi, hfits⟩ := h.last ht
  have hlen := h.length_le
  simp only [List.length_append, List.length_singleton] at hlen
  exact ⟨by omega, i, hi, hinvoke _ hfits.mem_opcodes⟩

theorem exists_athrow_of_reads (h : Reads code p ts (l + 1)) (hts : [.op .athrow] <:+ ts) :
    l < code.size ∧ ∃ i, code.insn? l = some i ∧ i.opcode = .athrow := by
  obtain ⟨rest, rfl⟩ := hts
  exact ⟨h.le_size (by simp), h.last trivial⟩

/-! ## The way into the handler -/

/-- A pattern without a store does not run into the handler. -/
theorem end_le_of_reads (hs : Reads code s (.slot .astore x :: xs) p) (h : Reads code f ts q)
    (hfs : f ≤ s) (hts : ∀ t ∈ ts, t.IsInsn ∧ .astore ∉ t.opcodes) : q ≤ s := by
  obtain ⟨m, ⟨i, hi, hfits⟩, -⟩ := reads_cons_iff.1 hs
  obtain rfl : i = ⟨.astore, .slot x⟩ := hfits
  exact h.le_of_notMem_opcodes hfs hi hts

/-- A jump behind a block is not in the handler, which starts with a store. -/
theorem lt_of_isUnconditionalJump {i : Instruction LabelId}
    (hs : Reads code s (.slot .astore x :: xs) p) (hi : code.FirstInsn q l i) (hqs : q ≤ s)
    (hjump : i.opcode.isUnconditionalJump = true) : l < s := by
  by_contra hls
  obtain ⟨m, ⟨i', hi', hfits⟩, -⟩ := reads_cons_iff.1 hs
  obtain ⟨-, rfl⟩ := (hi.of_le hqs (by omega)).unique hi'
  obtain rfl : i = ⟨.astore, .slot x⟩ := hfits
  cases hjump

/-! ## Statements compiled by javac -/

namespace Javac

variable {shape : Shape} {y : Locals} {w : Sighting} {e : Slot}

/-- Closing in place stores an exception, and its store might be the one that the handler starts
with. But the handler loads its exception once and stores it again, where the block loads two. -/
theorem end_le_of_reads_inPlace {a b : Slot}
    (hs : Reads code s (.slot .astore a :: .slot .aload a :: .slot .astore b :: xs) p)
    (h : Reads code f (inPlace y e) q) (hfs : f ≤ s) : q ≤ s := by
  have h' : Reads code f
      ([.slot .aload y.primary, .op .ifnull, .slot .aload y.resource, .close y.owner, .op .goto] ++
        (.slot .astore e :: .slot .aload y.primary :: .slot .aload e ::
          [.addSuppressed, .op .goto, .slot .aload y.resource, .close y.owner])) q := h
  obtain ⟨m, hbefore, hrest⟩ := reads_append_iff.1 h'
  have hms : m ≤ s := end_le_of_reads hs hbefore hfs (by simp [Token.IsInsn, Token.opcodes])
  obtain ⟨k, hstore, hafter⟩ := reads_cons_iff.1 hrest
  rcases Nat.lt_or_ge k s with hlt | hge
  · exact end_le_of_reads hs hafter hlt (by simp [Token.IsInsn, Token.opcodes])
  · -- the two stores are one, and so are the loads behind them, but not what follows
    exfalso
    have haligned := reads_cons_iff.2 ⟨k, hstore.of_le trivial hms hge, hafter⟩
    obtain ⟨_, _, -, -, haligned, hs⟩ := haligned.head hs trivial trivial
    obtain ⟨_, _, -, -, haligned, hs⟩ := haligned.head hs trivial trivial
    exact absurd hs (haligned.not_reads trivial trivial (by simp [Token.opcodes]))

theorem end_le_of_reads_closing (hs : Reads code s (handling y e shape) p)
    (hts : ts ∈ closings y shape) (h : Reads code f ts q) (hfs : f ≤ s) : q ≤ s := by
  obtain ⟨e', rfl⟩ := hts
  cases shape with
  | optimal =>
    exact end_le_of_reads hs h hfs (by simp [closing, byHelper, Token.IsInsn, Token.opcodes])
  | method =>
    exact end_le_of_reads hs h hfs
      (by simp [closing, ifNull, byHelper, Token.IsInsn, Token.opcodes])
  | omittedNullCheck => exact end_le_of_reads_inPlace hs h hfs
  | full =>
    obtain ⟨m, hnull, hclose⟩ := reads_append_iff.1 h
    have hms := end_le_of_reads hs hnull hfs (by simp [ifNull, Token.IsInsn, Token.opcodes])
    exact end_le_of_reads_inPlace hs hclose hms

theorem loadsAndCalls_closing (hts : ts ∈ closings y shape) : LoadsAndCalls ts := by
  obtain ⟨e, rfl⟩ := hts
  have hhelper : LoadsAndCalls (byHelper y) :=
    ⟨⟨_, _, rfl⟩, .closeHelper, ⟨[_, _], rfl⟩, trivial, by decide⟩
  have hinPlace : LoadsAndCalls (inPlace y e) :=
    ⟨⟨_, _, rfl⟩, .close y.owner, ⟨(inPlace y e).dropLast, rfl⟩, trivial,
      by simp [Token.opcodes, Opcode.flags]⟩
  cases shape with
  | optimal => exact hhelper
  | method => exact hhelper.append ⟨_, _, rfl⟩
  | omittedNullCheck => exact hinPlace
  | full => exact hinPlace.append ⟨_, _, rfl⟩

theorem Sighted.wellPlaced (h : Sighted code shape s y w) : WellPlaced code s w := by
  obtain ⟨⟨e, hhandler⟩, hfirst', hgreatest, ts, hts, q, hblock, hends⟩ := h
  have hf := hgreatest.1
  obtain ⟨hsize, hthrow⟩ :=
    exists_athrow_of_reads hhandler (List.suffix_append_of_suffix (List.suffix_cons _ _))
  have hload := exists_aload_of_mem_blocksBefore hf fun _ => loadsAndCalls_closing
  have hhandlerLen := hhandler.length_le
  simp only [handling, List.length_append, List.length_cons] at hhandlerLen
  obtain ⟨hfq, i, hi, hinvoke⟩ := (loadsAndCalls_closing hts).exists_invoke hblock
  have hqs := end_le_of_reads_closing hhandler hts hblock hf.2.1.le
  rcases hends with ⟨i', hi', hjump⟩ | ⟨rfl, -⟩
  · -- the piece ends with a jump
    have hle := hi'.le
    have hlt := lt_of_isUnconditionalJump hhandler hi' hqs hjump
    exact ⟨hf.1, by omega, hlt, by omega, by omega, hsize, hload, ⟨i', hi'.insn?, .inr hjump⟩,
      hthrow⟩
  · -- the piece ends with the block
    exact ⟨hf.1, by omega, by omega, by omega, by omega, hsize, hload, ⟨i, hi, .inl hinvoke⟩,
      hthrow⟩

end Javac

/-! ## Statements compiled by ecj -/

namespace Ecj

variable {slot : Slot} {owner : String} {target : LabelId} {w : Sighting} {n : Nat}
  {primary : Slot} {u : Nat → Use} {last : Merging}

theorem loadsAndCalls_closing (slot : Slot) (owner : String) (target : LabelId) :
    LoadsAndCalls (closing slot owner target) :=
  ⟨⟨_, _, rfl⟩, .close owner, ⟨[_, _, _], rfl⟩, trivial, by simp [Token.opcodes, Opcode.flags]⟩

theorem astore_notMem_closing {t : Token} (ht : t ∈ closing slot owner target) :
    t.IsInsn ∧ .astore ∉ t.opcodes := by
  simp only [closing, List.mem_cons, List.not_mem_nil, or_false] at ht
  rcases ht with rfl | rfl | rfl | rfl <;> simp [Token.IsInsn, Token.opcodes]

theorem FlowOut.Sighted.wellPlaced (h : FlowOut.Sighted code s n primary u last w) :
    WellPlaced code s w := by
  obtain ⟨hn, hhandler, hfirst', hgreatest, ts, ⟨target, rfl⟩, q, i, hblock, hi, hjump⟩ := h
  have hf := hgreatest.1
  obtain ⟨hsize, hthrow⟩ := exists_athrow_of_reads hhandler
    (List.suffix_append_of_suffix (List.suffix_append_of_suffix
      (List.suffix_append_of_suffix (List.suffix_cons _ _))))
  have hload := exists_aload_of_mem_blocksBefore hf (by
    rintro _ ⟨target', rfl⟩
    exact loadsAndCalls_closing _ _ _)
  have hhandlerLen := hhandler.length_le
  simp only [FlowOut.handling, closingAndThrowing, List.length_append, List.length_cons]
    at hhandlerLen
  obtain ⟨hfq, -⟩ := (loadsAndCalls_closing _ _ _).exists_invoke hblock
  have hqs := end_le_of_reads hhandler hblock hf.2.1.le fun _ => astore_notMem_closing
  have hle := hi.le
  have hlt := lt_of_isUnconditionalJump hhandler hi hqs hjump
  exact ⟨hf.1, by omega, hlt, by omega, by omega, hsize, hload, ⟨i, hi.insn?, .inr hjump⟩, hthrow⟩

/-- The blocks that close all resources form one block. -/
theorem NoFlowOut.loadsAndCalls_append (hxs : xs ∈ NoFlowOut.firstClosings u n)
    (hys : ys ∈ NoFlowOut.otherClosings u n) : LoadsAndCalls (xs ++ ys) := by
  obtain ⟨slot, owner, target, -, rfl⟩ := hxs
  obtain ⟨targets, rfl⟩ := hys
  exact (loadsAndCalls_closing _ _ _).append_flatMap (fun _ => loadsAndCalls_closing _ _ _) _

theorem NoFlowOut.Sighted.wellPlaced (h : NoFlowOut.Sighted code s n primary u w) :
    WellPlaced code s w := by
  obtain ⟨hhandler, rfl, hgreatest, xs, hxs, ys, hys, hblock⟩ := h
  have hf := hgreatest.1
  obtain ⟨hsize, hthrow⟩ := exists_athrow_of_reads hhandler
    ((List.suffix_append_of_suffix (List.suffix_cons _ _)).trans (List.suffix_cons _ _))
  have hload := exists_aload_of_mem_blocksBefore hf (by
    rintro _ ⟨slot, owner, target, -, rfl⟩
    exact loadsAndCalls_closing _ _ _)
  have hhandlerLen := hhandler.length_le
  simp only [NoFlowOut.handling, throwing, List.length_append, List.length_cons] at hhandlerLen
  obtain ⟨hfq, i, hi, hinvoke⟩ := (NoFlowOut.loadsAndCalls_append hxs hys).exists_invoke hblock
  -- nowhere on the normal path is anything stored
  have hqs := end_le_of_reads hhandler hblock hf.2.1.le (by
    obtain ⟨slot, owner, target, -, rfl⟩ := hxs
    obtain ⟨targets, rfl⟩ := hys
    intro t ht
    rcases List.mem_append.1 ht with ht | ht
    · exact astore_notMem_closing ht
    · obtain ⟨j, -, ht⟩ := List.mem_flatMap.1 ht
      exact astore_notMem_closing ht)
  exact ⟨hf.1, by omega, by omega, le_refl _, by omega, hsize, hload, ⟨i, hi, .inl hinvoke⟩,
    hthrow⟩

end Ecj

/-! ## Attempts and filters -/

variable {w : Sighting} {t : Template}

/-- Whatever a template recognises is well placed. -/
theorem wellPlaced_of_attempt {k : Matcher} (h : ((k.restart s).attempt code t).1 = some w) :
    WellPlaced code s w := by
  have hsight := Matcher.attempt_eq_some_iff.1 h
  cases t with
  | javac shape =>
    obtain ⟨y, hy⟩ := Javac.exists_sight_eq_ok_iff.1 hsight
    exact hy.wellPlaced
  | ecj =>
    obtain ⟨n, primary, u, last, hu⟩ := Ecj.FlowOut.exists_sight_eq_ok_iff.1 hsight
    exact hu.wellPlaced
  | ecjNoFlowOut =>
    obtain ⟨n, primary, u, hu⟩ := Ecj.NoFlowOut.exists_sight_eq_ok_iff.1 hsight
    exact hu.wellPlaced

/-- Pieces that are well placed are ranges, and inside the body. -/
theorem WellPlaced.exists_ranges (h : WellPlaced code s w) :
    ∃ normal handler, w.ranges = .ok (normal, handler) ∧
      normal.last < code.size ∧ handler.last < code.size := by
  have hn : w.normal.range = .ok ⟨w.normal.first, w.normal.last, h.normal_le⟩ :=
    Range.between_eq_ok_iff.2 ⟨rfl, rfl⟩
  have hh : w.handler.range = .ok ⟨w.handler.first, w.handler.last, h.handler_le⟩ :=
    Range.between_eq_ok_iff.2 ⟨rfl, rfl⟩
  refine ⟨_, _, bind_eq_ok_iff.2 ⟨_, hn, bind_eq_ok_iff.2 ⟨_, hh, rfl⟩⟩, ?_, h.handler_lt⟩
  have := h.normal_lt
  have := h.handler_ge
  have := h.handler_le
  have := h.handler_lt
  dsimp only
  omega

/-- The first template that fits a handler succeeds there whatever the matcher did before. -/
theorem attempt_of_findSome? {ts : List Template}
    (h : (ts.findSome? fun t => ((({} : Matcher).restart s).attempt code t).1.map (t, ·)) =
      some (t, w)) :
    t ∈ ts ∧ ∀ k : Matcher, ((k.restart s).attempt code t).1 = some w := by
  obtain ⟨t', ht', hfound⟩ := List.exists_of_findSome?_eq_some h
  obtain ⟨w', hw', he⟩ := Option.map_eq_some_iff.1 hfound
  obtain ⟨rfl, rfl⟩ : t' = t ∧ w' = w := by simpa using he
  exact ⟨ht', fun _ => hw'⟩

/-- Where an entry has a handler, the first template that fits it is accepted. -/
theorem exists_trial {m : Method} {b : Block LabelId} (h : m.handlerPosition? b = some s)
    (o : Options) (k : Matcher) :
    ∃ trial, (o.examine m b k).1 = .tried s trial ∧
      trial.accepted = (o.templates b.catchType).findSome? fun t =>
        ((({} : Matcher).restart s).attempt m.code t).1.map (t, ·) := by
  refine ⟨(Trial.run m.code s (o.templates b.catchType) k).1, ?_, Trial.accepted_run _ _ _ _⟩
  rw [Options.examine, h]

/-- The ranges of one entry of the exception table exist and are inside the body. -/
theorem exists_ranges_examine (o : Options) (m : Method) (b : Block LabelId) (k : Matcher) :
    ∃ rs, (o.examine m b k).1.ranges = .ok rs ∧ ∀ r ∈ rs, r.last < m.code.size := by
  cases hhandler : m.handlerPosition? b with
  | none =>
    refine ⟨[], ?_, by simp⟩
    rw [Options.examine, hhandler]
    rfl
  | some s =>
    obtain ⟨⟨_, accepted⟩, htrial, haccepted⟩ := exists_trial hhandler o k
    rw [htrial]
    cases accepted with
    | none => exact ⟨[], rfl, by simp⟩
    | some found =>
      obtain ⟨t, w⟩ := found
      have hattempt := (attempt_of_findSome? haccepted.symm).2 {}
      obtain ⟨normal, handler, hranges, hn, hh⟩ := (wellPlaced_of_attempt hattempt).exists_ranges
      refine ⟨[normal, handler], bind_eq_ok_iff.2 ⟨_, hranges, rfl⟩, fun r hr => ?_⟩
      rcases List.mem_pair.1 hr with rfl | rfl
      · exact hn
      · exact hh

/-- The ranges of a method exist and are inside the body. -/
theorem exists_ignoredRanges (o : Options) (m : Method) :
    ∃ rs, o.ignoredRanges m = .ok rs ∧ ∀ r ∈ rs, r.last < m.code.size := by
  have hfindings : ∀ finding ∈ o.findings m, ∃ rs, finding.ranges = .ok rs ∧
      ∀ r ∈ rs, r.last < m.code.size := by
    rw [o.findings_eq_map m]
    intro finding hfinding
    obtain ⟨b, -, rfl⟩ := List.mem_map.1 hfinding
    exact exists_ranges_examine o m b {}
  obtain ⟨rss, hrss, hlt⟩ := exists_mapM_flatten hfindings
  exact ⟨rss.flatten, bind_eq_ok_iff.2 ⟨rss, hrss, rfl⟩, hlt⟩

/-- **Filtering never breaks a precondition.** Whatever the method, what any template recognises at
any position is well placed and consists of two ranges; any filter comes to a list of ranges, and
the nodes at both ends of each can be written; and on the way, no step of a template leads to where
no node is. -/
theorem filter_wellPlaced (m : Method) :
    (∀ (k : Matcher) (s : Nat) (t : Template), ∀ w ∈ ((k.restart s).attempt m.code t).1,
      WellPlaced m.code s w ∧ ∃ ranges, w.ranges = .ok ranges) ∧
    (∀ o : Options, ∃ rs, o.ignoredRanges m = .ok rs ∧
      ∀ r ∈ rs, (∃ text, m.render r.first = .ok text) ∧ ∃ text, m.render r.last = .ok text) ∧
    ∀ (step : Step) (p q : Nat), step.target? m.code p = some q → ∃ n, m.code.get q = .ok n := by
  refine ⟨fun k s t w hw => ?_, fun o => ?_, fun step p q hq => ?_⟩
  · have hplaced := wellPlaced_of_attempt hw
    obtain ⟨normal, handler, hranges, -⟩ := hplaced.exists_ranges
    exact ⟨hplaced, _, hranges⟩
  · obtain ⟨rs, hrs, hlt⟩ := exists_ignoredRanges o m
    refine ⟨rs, hrs, fun r hr => ?_⟩
    have hlast := hlt r hr
    have hfirst := Nat.lt_of_le_of_lt r.first_le_last hlast
    exact ⟨(m.render_eq_ok_iff _).2 hfirst, (m.render_eq_ok_iff _).2 hlast⟩
  · exact (m.code.get_eq_ok_iff q).2 (Step.lt_of_target? hq).2

/-- A method that closes its resource by the helper method, in front of its handler and inside. -/
def closingTwice : Method where
  name := "run"
  desc := "()V"
  code :=
    let helper : Member :=
      ⟨"Main", "$closeResource", "(Ljava/lang/Throwable;Ljava/lang/AutoCloseable;)V"⟩
    .ofList [
      .label ⟨0⟩,
      .insn ⟨.aload, .slot 2⟩, .insn ⟨.aload, .slot 1⟩, .insn ⟨.invokestatic, .member helper⟩,
      .insn ⟨.goto, .target ⟨3⟩⟩,
      .label ⟨1⟩,
      .insn ⟨.astore, .slot 3⟩,
      .insn ⟨.aload, .slot 3⟩, .insn ⟨.astore, .slot 2⟩, .insn ⟨.aload, .slot 3⟩,
      .insn ⟨.athrow, .none⟩,
      .label ⟨2⟩,
      .insn ⟨.astore, .slot 4⟩,
      .insn ⟨.aload, .slot 2⟩, .insn ⟨.aload, .slot 1⟩, .insn ⟨.invokestatic, .member helper⟩,
      .insn ⟨.aload, .slot 4⟩, .insn ⟨.athrow, .none⟩,
      .label ⟨3⟩,
      .insn ⟨.returnVoid, .none⟩]
  blocks := [⟨⟨0⟩, ⟨1⟩, ⟨1⟩, some throwable⟩]

theorem filter_wellPlaced_closingTwice :
    ((({} : Matcher).restart 5).attempt closingTwice.code (.javac .optimal)).1 =
        some ⟨⟨1, 4⟩, ⟨6, 17⟩⟩ ∧
      WellPlaced closingTwice.code 5 ⟨⟨1, 4⟩, ⟨6, 17⟩⟩ := by
  have h : ((({} : Matcher).restart 5).attempt closingTwice.code (.javac .optimal)).1 =
      some ⟨⟨1, 4⟩, ⟨6, 17⟩⟩ := by decide +kernel
  exact ⟨h, ((filter_wellPlaced closingTwice).1 {} 5 (.javac .optimal) _ h).1⟩

end TryResources
