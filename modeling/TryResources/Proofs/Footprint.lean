import TryResources.Proofs.Placement

/-!
# What a statement depends on

A statement that is recognised depends on the code from the first node of its normal path to the
last node of its handler, and on nothing else. A search may look at blocks that start in front of
the handler, and tries each of them forward; but no block that is read runs into the handler, so
the search does not see what lies behind the statement, and it is over before it comes to what
lies in front.

* `Code.Agree`: two bodies hold the same nodes, each at its own place.
* `Reads.move`, `isGreatest_move`: patterns, and the last block in front of a handler, move along.
* `Javac.Sighted.move`, `Ecj.FlowOut.Sighted.move`, `Ecj.NoFlowOut.Sighted.move`: so do statements.
* `attempt_footprint`: what is recognised is recognised in any surroundings.
-/

namespace TryResources

open Matching

/-! ## Moving code -/

/-- Some nodes of a body: those from position `first` up to position `last`. -/
def Code.slice (c : Code) (first last : Nat) : List (Node LabelId) :=
  (c.nodes.toList.drop first).take (last + 1 - first)

/-- A span whose ends are taken to other positions. -/
def Matching.Span.map (g : Nat → Nat) (s : Span) : Span :=
  ⟨g s.first, g s.last⟩

/-- A sighting whose positions are taken to other positions. -/
def Matching.Sighting.map (g : Nat → Nat) (w : Sighting) : Sighting :=
  ⟨w.normal.map g, w.handler.map g⟩

/-- The nodes that one body has from position `f` on, another one has from position `a` on, as far
as `n` nodes go. -/
def Code.Agree (c : Code) (f : Nat) (c' : Code) (a n : Nat) : Prop :=
  ∀ i < n, c'.get? (a + i) = c.get? (f + i)

variable {c c' : Code} {a f n p q s l : Nat} {i : Instruction LabelId} {t : Token}
  {ts : List Token} {patterns : Set (List Token)}

theorem Code.Agree.symm (h : c.Agree f c' a n) : c'.Agree a c f n :=
  fun i hi => (h i hi).symm

theorem Code.Agree.get?_eq (h : c.Agree f c' a n) (hp : f ≤ p) (hpn : p < f + n) :
    c'.get? (a + (p - f)) = c.get? p := by
  rw [h (p - f) (by omega), Nat.add_sub_of_le hp]

/-- A piece of a body agrees with the body, whatever is put around it. -/
theorem Code.agree_slice (c : Code) (pre post : List (Node LabelId)) (hl : l < c.size) :
    c.Agree f (.ofList (pre ++ c.slice f l ++ post)) pre.length (l + 1 - f) := by
  intro i hi
  have hlen : (c.slice f l).length = l + 1 - f := by
    simp only [Code.slice, List.length_take, List.length_drop, Array.length_toList]
    simp only [Code.size] at hl
    omega
  rw [Code.get?_ofList, List.append_assoc, List.getElem?_append_right (by omega),
    List.getElem?_append_left (by omega), Nat.add_sub_cancel_left, Code.slice,
    List.getElem?_take_of_lt hi, List.getElem?_drop, Array.getElem?_toList]
  rfl

theorem Code.FirstInsn.move (h : c.FirstInsn p q i) (hagree : c.Agree f c' a n) (hp : f ≤ p)
    (hq : q < f + n) : c'.FirstInsn (a + (p - f)) (a + (q - f)) i := by
  have hpq := h.le
  refine ⟨by omega, ?_, fun r hpr hrq => ?_⟩
  · rw [hagree.get?_eq (by omega) hq]
    exact h.get
  · obtain ⟨m, hm, hmarker⟩ := h.markers (f + (r - a)) (by omega) (by omega)
    have hr : a + (f + (r - a) - f) = r := by omega
    refine ⟨m, ?_, hmarker⟩
    rw [← hr, hagree.get?_eq (by omega) (by omega)]
    exact hm

theorem Token.StandsAt.move (h : t.StandsAt c p q) (hagree : c.Agree f c' a n) (hp : f ≤ p)
    (hq : q < f + n) : t.StandsAt c' (a + (p - f)) (a + (q - f)) := by
  cases t with
  | label l =>
    obtain ⟨rfl, hget⟩ := h
    exact ⟨rfl, (hagree.get?_eq hp hq).trans hget⟩
  | _ =>
    obtain ⟨i, hi, hfits⟩ := h
    exact ⟨i, hi.move hagree hp hq, hfits⟩

/-- A pattern is read wherever the nodes that it consists of are. -/
theorem Reads.move (h : Reads c p ts q) (hagree : c.Agree f c' a n) (hp : f ≤ p)
    (hq : q ≤ f + n) : Reads c' (a + (p - f)) ts (a + (q - f)) := by
  induction h with
  | nil => exact .nil
  | @cons p m q t ts hm hrest ih =>
    have hpm := hm.le
    have hmq := hrest.length_le
    have hnext : a + (m + 1 - f) = a + (m - f) + 1 := by omega
    exact .cons (hm.move hagree hp (by omega)) (hnext ▸ ih (by omega) hq)

theorem Reads.move_last (h : Reads c p ts (l + 1)) (hagree : c.Agree f c' a n) (hp : f ≤ p)
    (hl : f ≤ l) (hln : l < f + n) : Reads c' (a + (p - f)) ts (a + (l - f) + 1) := by
  have hnext : a + (l + 1 - f) = a + (l - f) + 1 := by omega
  exact hnext ▸ h.move hagree hp (by omega)

/-- The last block in front of a handler is the last one in other surroundings too, if no block
there runs into the handler. -/
theorem isGreatest_move (h : IsGreatest (c.blocksBefore patterns s) f)
    (hagree : c.Agree f c' a n) (ha : 1 ≤ a) (hs : s ≤ f + n)
    (hend : ∀ ts ∈ patterns, ∀ q, Reads c f ts q → q ≤ s)
    (hend' : ∀ ts ∈ patterns, ∀ p q, p ≤ a + (s - f) → Reads c' p ts q → q ≤ a + (s - f)) :
    IsGreatest (c'.blocksBefore patterns (a + (s - f))) (a + (f - f)) := by
  obtain ⟨⟨hpos, hfs, ⟨i, hi⟩, ts, hts, q, hblock⟩, hgreatest⟩ := h
  constructor
  · have hi' := (Code.FirstInsn.self hi).move hagree (le_refl f) (by omega)
    have hblock' := hblock.move hagree (le_refl f) (by have := hend ts hts q hblock; omega)
    exact ⟨by omega, by omega, ⟨i, hi'.insn?⟩, ts, hts, _, hblock'⟩
  · rintro g ⟨hgpos, hgs, ⟨i', hi'⟩, ts', hts', q', hblock'⟩
    by_contra hlt
    -- a later block lies within the piece, so it is one of the first body as well
    have hqs := hend' ts' hts' g q' hgs.le hblock'
    have hback := hblock'.move hagree.symm (by omega) (by omega)
    have hi := (Code.FirstInsn.self hi').move hagree.symm (by omega) (by omega)
    have := hgreatest ⟨by omega, by omega, ⟨i', hi.insn?⟩, ts', hts', _, hback⟩
    omega

/-! ## Moving statements -/

section

variable {w : Sighting} (hagree : c.Agree w.normal.first c' a n) (ha : 1 ≤ a)
  (hn : w.handler.last < w.normal.first + n)

namespace Javac

variable {shape : Shape} {x : Locals}

/-- A block ends where it ended before: a jump behind it lies in front of the handler. -/
theorem EndsAt.move {p' : Nat} {rest : List Token} {slot : Slot} (h : EndsAt c q l)
    (hagree : c.Agree f c' a n) (hfq : f < q) (hqs : q ≤ s) (hs : s < f + n)
    (hhandler : Reads c s (.slot .astore slot :: rest) p)
    (hhandler' : Reads c' (a + (s - f)) (.slot .astore slot :: rest) p') :
    EndsAt c' (a + (q - f)) (a + (l - f)) := by
  rcases h with ⟨i, hi, hjump⟩ | ⟨hlq, hnone⟩
  · have hls := lt_of_isUnconditionalJump hhandler hi hqs hjump
    exact .inl ⟨i, hi.move hagree hfq.le (by omega), hjump⟩
  · refine .inr ⟨by omega, fun m i hi => ?_⟩
    by_contra hjump
    -- a jump behind the block would be in front of the handler, so it would not be new
    rw [Bool.not_eq_false] at hjump
    have hms := lt_of_isUnconditionalJump hhandler' hi (by omega) hjump
    have hle := hi.le
    have hback := hi.move hagree.symm (by omega) (by omega)
    have hq : f + (a + (q - f) - a) = q := by omega
    rw [hq] at hback
    simp [hnone _ i hback] at hjump

include hagree ha hn in
theorem Sighted.move (h : Sighted c shape s x w) :
    Sighted c' shape (a + (s - w.normal.first)) x (w.map fun p => a + (p - w.normal.first)) := by
  have hplaced := h.wellPlaced
  obtain ⟨⟨e, hhandler⟩, hfirst', hgreatest, ts, hts, q, hblock, hends⟩ := h
  have hfs := hgreatest.1.2.1
  have hse := hplaced.handler_ge
  have hee := hplaced.handler_le
  have hhandler' := hhandler.move_last hagree (by omega) (by omega) hn
  have hqs := end_le_of_reads_closing hhandler hts hblock hfs.le
  obtain ⟨hfq, -⟩ := (loadsAndCalls_closing hts).exists_invoke hblock
  have hgreatest' := isGreatest_move hgreatest hagree ha (by omega)
    (fun ts hts q hblock => end_le_of_reads_closing hhandler hts hblock hfs.le)
    (fun ts hts p q hps hblock => end_le_of_reads_closing hhandler' hts hblock hps)
  refine ⟨⟨e, hhandler'⟩, ?_, hgreatest', ts, hts, _, hblock.move hagree (le_refl _) (by omega),
    hends.move hagree hfq hqs (by omega) hhandler hhandler'⟩
  simp only [Sighting.map, Span.map, hfirst']
  omega

end Javac

namespace Ecj

variable {slot primary : Slot} {rest xs ys : List Token} {count : Nat} {u : Nat → Use}
  {last : Merging}

/-- A block that closes a resource does not run into the handler. -/
theorem end_le_of_reads_closing {owner : String} {target : LabelId}
    (hs : Reads c s (.slot .astore primary :: rest) p)
    (h : Reads c f (closing slot owner target) q) (hfs : f ≤ s) : q ≤ s :=
  end_le_of_reads hs h hfs fun _ => astore_notMem_closing

include hagree ha hn in
theorem FlowOut.Sighted.move (h : FlowOut.Sighted c s count primary u last w) :
    FlowOut.Sighted c' (a + (s - w.normal.first)) count primary u last
      (w.map fun p => a + (p - w.normal.first)) := by
  have hplaced := h.wellPlaced
  obtain ⟨hcount, hhandler, hfirst', hgreatest, ts, ⟨target, rfl⟩, q, i, hblock, hi, hjump⟩ := h
  have hfs := hgreatest.1.2.1
  have hfl := hplaced.normal_le
  have hls := hplaced.normal_lt
  have hse := hplaced.handler_ge
  have hee := hplaced.handler_le
  have hhandler' := hhandler.move_last hagree (by omega) (by omega) hn
  have hqs := end_le_of_reads_closing hhandler hblock hfs.le
  have hfq := hblock.length_le
  have hgreatest' := isGreatest_move hgreatest hagree ha (by omega)
    (by
      rintro _ ⟨target', rfl⟩ q hblock
      exact end_le_of_reads_closing hhandler hblock hfs.le)
    (by
      rintro _ ⟨target', rfl⟩ p q hps hblock
      exact end_le_of_reads_closing hhandler' hblock hps)
  refine ⟨hcount, hhandler', ?_, hgreatest', _, ⟨target, rfl⟩, _, i,
    hblock.move hagree (le_refl _) (by omega), hi.move hagree (by omega) (by omega), hjump⟩
  simp only [Sighting.map, Span.map, hfirst']
  omega

include hagree ha hn in
theorem NoFlowOut.Sighted.move (h : NoFlowOut.Sighted c s count primary u w) :
    NoFlowOut.Sighted c' (a + (s - w.normal.first)) count primary u
      (w.map fun p => a + (p - w.normal.first)) := by
  have hplaced := h.wellPlaced
  obtain ⟨hhandler, rfl, hgreatest, xs, hxs, ys, hys, hblock⟩ := h
  have hfs := hgreatest.1.2.1
  have hfl := hplaced.normal_le
  have hls := hplaced.normal_lt
  have hee := hplaced.handler_le
  have hhandler' := hhandler.move_last hagree (by omega) (by omega) hn
  have hgreatest' := isGreatest_move hgreatest hagree ha (by omega)
    (by
      rintro _ ⟨slot, owner, target, -, rfl⟩ q hblock
      exact end_le_of_reads_closing hhandler hblock hfs.le)
    (by
      rintro _ ⟨slot, owner, target, -, rfl⟩ p q hps hblock
      exact end_le_of_reads_closing hhandler' hblock hps)
  exact ⟨hhandler', rfl, hgreatest', xs, hxs, ys, hys,
    hblock.move_last hagree (le_refl _) hfl (by omega)⟩

end Ecj

end

/-! ## Attempts -/

/-- **What a statement depends on.** If a template recognises a statement, it recognises the same
statement in any other surroundings: whatever comes in front of its normal path, as long as there
is something, and whatever comes behind its handler. -/
theorem attempt_footprint {t : Template} {w : Sighting} {k : Matcher}
    (h : ((k.restart s).attempt c t).1 = some w) {pre : List (Node LabelId)} (hpre : pre ≠ [])
    (post : List (Node LabelId)) (k' : Matcher) :
    ((k'.restart (pre.length + (s - w.normal.first))).attempt
        (.ofList (pre ++ c.slice w.normal.first w.handler.last ++ post)) t).1 =
      some (w.map fun p => pre.length + (p - w.normal.first)) := by
  have hplaced := wellPlaced_of_attempt h
  have hagree := c.agree_slice pre post (f := w.normal.first) hplaced.handler_lt
  have ha : 1 ≤ pre.length := List.length_pos_iff.2 hpre
  have hn : w.handler.last < w.normal.first + (w.handler.last + 1 - w.normal.first) := by omega
  cases t with
  | javac shape =>
    obtain ⟨x, hx⟩ := Javac.attempt_eq_some_iff.1 h
    exact Javac.attempt_eq_some_iff.2 ⟨x, hx.move hagree ha hn⟩
  | ecj =>
    obtain ⟨count, primary, u, last, hu⟩ := Ecj.FlowOut.attempt_eq_some_iff.1 h
    exact Ecj.FlowOut.attempt_eq_some_iff.2 ⟨count, primary, u, last, hu.move hagree ha hn⟩
  | ecjNoFlowOut =>
    obtain ⟨count, primary, u, hu⟩ := Ecj.NoFlowOut.attempt_eq_some_iff.1 h
    exact Ecj.NoFlowOut.attempt_eq_some_iff.2 ⟨count, primary, u, hu.move hagree ha hn⟩

/-- The statement of `closingTwice`, behind a jump and in front of a copy of itself. -/
theorem attempt_footprint_closingTwice :
    let statement := closingTwice.code.slice 1 17
    let pre : List (Node LabelId) := [.insn ⟨.goto, .target ⟨1⟩⟩, .frame]
    ((({} : Matcher).restart 5).attempt closingTwice.code (.javac .optimal)).1 =
        some ⟨⟨1, 4⟩, ⟨6, 17⟩⟩ ∧ pre ≠ [] ∧
      ((({} : Matcher).restart 6).attempt (.ofList (pre ++ statement ++ statement))
        (.javac .optimal)).1 = some ⟨⟨2, 5⟩, ⟨7, 18⟩⟩ := by
  intro statement pre
  have h : ((({} : Matcher).restart 5).attempt closingTwice.code (.javac .optimal)).1 =
      some ⟨⟨1, 4⟩, ⟨6, 17⟩⟩ := by decide +kernel
  have hpre : pre ≠ [] := List.cons_ne_nil _ _
  exact ⟨h, hpre, attempt_footprint h hpre statement {}⟩

end TryResources
