import Mathlib.Data.List.Basic
import TryResources.Proofs.Ecj

/-!
# The shape of statements compiled by ecj whose bodies never end normally

The handler closes the resources one by one and merges what each one throws; how many there are is
for the code to say. In front of the handler, the same resources are closed in the same order. A
handler without resources is left with nothing but the exception that it throws again, and then any
resource will do.

* `handling`, `firstClosings`, `otherClosings`: the patterns.
* `readHandlers_eq_iff`: the loop over the resources, as one sequence of steps.
* `Sighted`: code that contains a statement, and where.
* `exists_sight_eq_ok_iff`: the template succeeds exactly on such code.
* `attempt_iff_noFlowOut`: the same of an attempt, with the number of resources unique.
-/

namespace TryResources.Ecj.NoFlowOut

open Matching

/-! ## Patterns -/

/-- The handler of one resource. -/
def handlingOf (primary : Slot) (u : Use) : List Token :=
  closingAndThrowing primary u ++ merging primary u.merging

/-- The handler of a statement with `n` resources. -/
def handling (primary : Slot) (u : Nat → Use) (n : Nat) : List Token :=
  .slot .astore primary ::
    ((List.range' 0 n).flatMap (fun i => handlingOf primary (u i)) ++ throwing primary)

/-- The first resource is closed: any one if the handler has none. -/
def firstClosings (u : Nat → Use) (n : Nat) : Set (List Token) :=
  {ts | ∃ slot owner target, (0 < n → slot = (u 0).slot ∧ owner = (u 0).owner) ∧
    closing slot owner target = ts}

/-- The other resources are closed in order. -/
def otherClosings (u : Nat → Use) (n : Nat) : Set (List Token) :=
  {ts | ∃ targets : Nat → LabelId,
    (List.range' 1 (n - 1)).flatMap (fun i => closing (u i).slot (u i).owner (targets i)) = ts}

/-- The code contains a statement with `n` resources whose handler starts at `s`, and `w` says
where: the handler, and the last block in front of it that closes the first resource, with the
blocks behind it that close the others. -/
structure Sighted (code : Code) (s n : Nat) (primary : Slot) (u : Nat → Use) (w : Sighting) :
    Prop where
  handler : Reads code s (handling primary u n) (w.handler.last + 1)
  handlerFirst : w.handler.first = s
  normalFirst : IsGreatest (code.blocksBefore (firstClosings u n) s) w.normal.first
  normal : ∃ xs ∈ firstClosings u n, ∃ ys ∈ otherClosings u n,
    Reads code w.normal.first (xs ++ ys) (w.normal.last + 1)

/-! ## The loop over the resources -/

variable {code : Code} {b b' : Bindings} {v : Valuation} {i n p q s : Nat} {r all : Reading}

/-- The loop over the resources, as one sequence of steps: it ends where no handler of a resource
is complete, with the reading that was there before that was tried. -/
theorem readHandlers_eq_iff :
    readHandlers code i r = (n, all) ↔
      i ≤ n ∧ Step.readAll code ((List.range' i (n - i)).flatMap handlerOf) r = .ok all ∧
        ∃ e, Step.readAll code (handlerOf n) all = .error e := by
  fun_induction readHandlers code i r with
  | case1 i r e he =>
    -- no handler is complete here, so `n` is `i`
    constructor
    · intro h
      cases h
      simp [he]
    · rintro ⟨hle, hread, -⟩
      rcases Nat.eq_or_lt_of_le hle with rfl | hlt
      · have : r = all := by simpa using hread
        rw [this]
      · rw [range'_of_lt hlt, List.flatMap_cons, Step.readAll_append, he] at hread
        cases hread
  | case2 i r r' hfirst ih =>
    rw [ih]
    constructor
    · rintro ⟨hle, hread, he⟩
      refine ⟨by omega, ?_, he⟩
      rw [range'_of_lt hle, List.flatMap_cons, Step.readAll_append, hfirst]
      exact hread
    · rintro ⟨hle, hread, e, he⟩
      rcases Nat.eq_or_lt_of_le hle with rfl | hlt
      · have : r = all := by simpa using hread
        rw [← this, hfirst] at he
        cases he
      · rw [range'_of_lt hlt, List.flatMap_cons, Step.readAll_append, hfirst] at hread
        exact ⟨hlt, hread, e, he⟩

/-- The steps that read the handler of a statement with `n` resources. -/
def handlerSteps (n : Nat) : List Step :=
  .slot .astore .primary :: ((List.range' 0 n).flatMap handlerOf ++ throwPrimary)

theorem map_token_handlerSteps (v : Valuation) (n : Nat) :
    (handlerSteps n).map (Step.token v) = handling (v (.slot .primary)) (uses v) n := by
  simp only [handlerSteps, handling, List.map_append, List.map_cons, List.map_flatMap]
  rfl

theorem grounded_handlerSteps (n : Nat) : Step.Grounded [] (handlerSteps n) := by
  have hresource (i : Nat) : Step.Grounded [] (handlerOf i) :=
    (grounded_closeAndThrow i).append (grounded_merge _)
  exact ⟨by simp, ((Step.Grounded.flatMap hresource _).append grounded_throwPrimary).mono (by simp)⟩

theorem mem_names_handlerOf_iff {j : Nat} :
    (.slot (.resource (.nth j)) ∈ (handlerOf i).flatMap Step.names ↔ j = i) ∧
      (.owner (.nth j) ∈ (handlerOf i).flatMap Step.names ↔ j = i) ∧
      .label (.skipped j) ∉ (handlerOf i).flatMap Step.names := by
  simp [handlerOf, closeAndThrow, merge, loadResource, loadPrimary, List.flatMap_cons, Step.names,
    -List.mem_flatMap]

/-- The names that the handler meets: its resources are among them, but not the labels behind
closing them where the statement ends normally. -/
theorem mem_names_handlerSteps_iff :
    (.slot (.resource (.nth i)) ∈ (handlerSteps n).flatMap Step.names ↔ i < n) ∧
      (.owner (.nth i) ∈ (handlerSteps n).flatMap Step.names ↔ i < n) ∧
      .label (.skipped i) ∉ (handlerSteps n).flatMap Step.names := by
  have hmem (m : Name) : m ∈ (handlerSteps n).flatMap Step.names ↔
      m = .slot .primary ∨ ∃ j < n, m ∈ (handlerOf j).flatMap Step.names := by
    have hlast : m ∈ throwPrimary.flatMap Step.names ↔ m = .slot .primary := by
      simp [throwPrimary, loadPrimary, Step.names]
    rw [handlerSteps, List.flatMap_cons, List.flatMap_append, List.flatMap_assoc, List.mem_append,
      List.mem_append, List.mem_flatMap, hlast]
    simp only [Step.names, List.mem_singleton, List.mem_range'_1]
    constructor
    · rintro (hm | ⟨j, hj, hm⟩ | hm)
      · exact .inl hm
      · exact .inr ⟨j, by omega, hm⟩
      · exact .inl hm
    · rintro (hm | ⟨j, hj, hm⟩)
      · exact .inl hm
      · exact .inr (.inl ⟨j, by omega, hm⟩)
  simp only [hmem, mem_names_handlerOf_iff]
  simp

/-- Where the exception is thrown, no resource is closed. -/
theorem not_reads_throwing_of_handlingOf {primary primary' : Slot} {u : Use} {xs : List Token}
    (h : Reads code p (handlingOf primary u ++ xs) q) : ¬ Reads code p (throwing primary') s := by
  intro h'
  -- both load a variable first; only then do they part
  obtain ⟨m, -, -, -, hrest, hrest'⟩ := Reads.head h h' trivial trivial
  exact absurd hrest' (hrest.not_reads trivial trivial (by simp [Token.opcodes]))

/-- The number of resources is for the code to say. -/
theorem eq_of_reads_handling {primary primary' : Slot} {u u' : Nat → Use} {n' : Nat}
    (h : Reads code s (handling primary u n) p) (h' : Reads code s (handling primary' u' n') q) :
    n = n' := by
  obtain ⟨m, i, -, -, hrest, hrest'⟩ := Reads.head h h' trivial trivial
  have hsame (i : Nat) : List.Forall₂ (fun x y : Token => x.IsInsn ↔ y.IsInsn)
      (handlingOf primary (u i)) (handlingOf primary' (u' i)) := by
    simp [handlingOf, merging, closingAndThrowing, Token.IsInsn]
  exact eq_of_reads_flatMap hsame (fun _ _ _ _ _ => not_reads_throwing_of_handlingOf)
    (fun _ _ _ _ _ => not_reads_throwing_of_handlingOf) hrest hrest'

/-- Reading the handler finds its number of resources. -/
theorem readHandler_iff {atEnd : Reading} :
    (∃ first, Step.readAll code [.slot .astore .primary] r = .ok first ∧
      ∃ all, readHandlers code 0 first = (n, all) ∧
        Step.readAll code throwPrimary all = .ok atEnd) ↔
      Step.readAll code (handlerSteps n) r = .ok atEnd := by
  have hsteps : handlerSteps n = [.slot .astore .primary] ++
      ((List.range' 0 n).flatMap handlerOf ++ throwPrimary) := rfl
  rw [hsteps, readAll_append_eq_ok_iff]
  constructor
  · rintro ⟨first, hfirst, all, hall, hend⟩
    obtain ⟨-, hread, -⟩ := readHandlers_eq_iff.1 hall
    exact ⟨first, hfirst, readAll_append_eq_ok_iff.2 ⟨all, hread, hend⟩⟩
  · rintro ⟨first, hfirst, hrest⟩
    obtain ⟨all, hread, hend⟩ := readAll_append_eq_ok_iff.1 hrest
    -- the loop stops here, since the exception is thrown where a resource would be loaded
    have hstop : ∃ e, Step.readAll code (handlerOf n) all = .error e := by
      refine exists_error_of_readAll (handlerOf_ne_nil n) (fun v v' p q q' hthrow hhandler => ?_)
        hend
      rw [map_token_throwPrimary] at hthrow
      rw [handlerOf, List.map_append, map_token_closeAndThrow, map_token_merge,
        ← List.append_nil (_ ++ _)] at hhandler
      exact not_reads_throwing_of_handlingOf (u := uses v' n) hhandler hthrow
    exact ⟨first, hfirst, all, readHandlers_eq_iff.2 ⟨by omega, hread, hstop⟩, hend⟩

/-! ## The normal path -/

theorem instances_close_zero
    (hlearns : ({} : Bindings).Learns ((handlerSteps n).flatMap Step.names) b)
    (hv : b.Agrees v) : b.instances (close 0) = firstClosings (uses v) n := by
  obtain ⟨hslot, howner, hskipped⟩ := mem_names_handlerSteps_iff (n := n) (i := 0)
  ext ts
  rw [mem_instances_close_iff hv (mt hlearns.knows_iff_of_empty.1 hskipped),
    hlearns.knows_iff_of_empty, hlearns.knows_iff_of_empty, hslot, howner]
  simp only [firstClosings, Set.mem_ofPred_eq, ← forall_and, ← and_assoc]

/-- The names that closing the first resource meets do not include the labels behind closing the
others. -/
theorem skipped_mem_names_close_iff {j : Nat} :
    .label (.skipped j) ∈ (close i).flatMap Step.names ↔ j = i := by
  simp [close, loadResource, Step.names, List.flatMap_cons, -List.mem_flatMap]

theorem grounded_closeOthers (n : Nat) : Step.Grounded [] (closeOthers n) :=
  .flatMap grounded_close _

theorem map_token_closeOthers (v : Valuation) (n : Nat) :
    (closeOthers n).map (Step.token v) = (List.range' 1 (n - 1)).flatMap fun i =>
      closing (uses v i).slot (uses v i).owner (uses v i).skipped := by
  rw [closeOthers, List.map_flatMap]
  rfl

/-- The valuation with other labels behind closing the resources from number `1` on. -/
def skippingTo (targets : Nat → LabelId) (v : Valuation) : Valuation
  | .label (.skipped (i + 1)) => targets (i + 1)
  | m => v m

theorem skippingTo_of_ne {targets : Nat → LabelId} {m : Name}
    (hm : ∀ j, m ≠ .label (.skipped (j + 1))) : skippingTo targets v m = v m := by
  unfold skippingTo
  split
  · exact absurd rfl (hm _)
  · rfl

/-- Behind the block that closes the first resource, the others are closed where the variables and
types of the handler are used. -/
theorem instances_closeOthers
    (hlearns : ({} : Bindings).Learns ((handlerSteps n).flatMap Step.names) b)
    (hv : b.Agrees v) (hlearns' : b.Learns ((close 0).flatMap Step.names) b') :
    b'.instances (closeOthers n) = otherClosings (uses v) n := by
  have same {v' : Valuation} {j : Nat} (hv' : b'.Agrees v') (hj : j < n) :
      (uses v' j).slot = (uses v j).slot ∧ (uses v' j).owner = (uses v j).owner := by
    obtain ⟨hslot, howner, -⟩ := mem_names_handlerSteps_iff (n := n) (i := j)
    have hb := hlearns'.agrees hv'
    exact ⟨hb.eq_of_knows hv (hlearns.knows_iff_of_empty.2 (hslot.2 hj)),
      hb.eq_of_knows hv (hlearns.knows_iff_of_empty.2 (howner.2 hj))⟩
  ext ts
  constructor
  · rintro ⟨v', hv', rfl⟩
    refine ⟨fun j => (uses v' j).skipped, ?_⟩
    rw [map_token_closeOthers]
    refine List.flatMap_congr fun j hj => ?_
    have hj' := List.mem_range'_1.1 hj
    obtain ⟨hslot, howner⟩ := same (j := j) hv' (by omega)
    rw [hslot, howner]
  · rintro ⟨targets, rfl⟩
    -- the labels behind closing the other resources have not been met yet
    have hv' : b'.Agrees (skippingTo targets b'.complete) := by
      refine b'.agrees_complete.congr fun m hm => skippingTo_of_ne ?_
      rintro j rfl
      rw [hlearns'.knows, hlearns.knows_iff_of_empty, skipped_mem_names_close_iff] at hm
      exact hm.elim mem_names_handlerSteps_iff.2.2 (by omega)
    refine ⟨_, hv', ?_⟩
    rw [map_token_closeOthers]
    refine List.flatMap_congr fun j hj => ?_
    have hj' := List.mem_range'_1.1 hj
    obtain ⟨hslot, howner⟩ := same (j := j) hv' (by omega)
    obtain ⟨k, rfl⟩ : ∃ k, j = k + 1 := ⟨j - 1, by omega⟩
    rw [hslot, howner]
    rfl

/-! ## Attempts -/

theorem layout (n : Nat) :
    Layout (handlerSteps n) (close 0) fun v => firstClosings (uses v) n where
  handler_ne_nil := by simp [handlerSteps]
  handler_grounded := grounded_handlerSteps n
  block_head := close_eq_cons 0
  block_grounded := grounded_close 0
  instances := instances_close_zero
  disjoint := by
    intro code v s p q ts hhandler hts
    rw [map_token_handlerSteps] at hhandler
    obtain ⟨slot, owner, target, -, rfl⟩ := hts
    exact not_reads_closing_of_astore hhandler ⟨target, rfl⟩

/-- The template succeeds exactly on code that contains a statement with some number of resources,
none included. -/
theorem exists_sight_eq_ok_iff {k : Matcher} {w : Sighting} :
    (∃ r, sightNoFlowOut code (k.restart s) = .ok (w, r)) ↔
      ∃ n primary u, Sighted code s n primary u w := by
  constructor
  · -- the bindings at the end of the normal path, completed, give the statement
    rintro ⟨r, h⟩
    obtain ⟨first, hfirst, h⟩ := bind_eq_ok_iff.1 h
    rcases hall : readHandlers code 0 first with ⟨n, all⟩
    rw [hall] at h
    obtain ⟨atEnd, hend, h⟩ := bind_eq_ok_iff.1 h
    obtain ⟨⟨before, closed⟩, hsearch, h⟩ := bind_eq_ok_iff.1 h
    obtain ⟨others, hothers, h⟩ := bind_eq_ok_iff.1 h
    obtain ⟨hfirst', hlast, hfirst'', hlast', rfl⟩ := Verdict.between_eq_ok_iff.1 h
    have hread := readHandler_iff.1 ⟨first, hfirst, all, hall, hend⟩
    obtain ⟨e, b, q, b', rfl, rfl, hlearns, hlearns', hcode⟩ :=
      (layout n).of_search_eq_ok hread hsearch
    obtain ⟨l, b'', rfl, hlearns'', -⟩ := reads_of_readAll hothers
    have hv := hlearns''.agrees b''.agrees_complete
    obtain ⟨hhandler, hgreatest, xs, hxs, hblock⟩ := hcode _ hv
    obtain ⟨ys, hys, hrest⟩ :=
      (readAll_eq_ok_iff (grounded_closeOthers n) (by simp)).1 ⟨b'', hothers⟩
    rw [instances_closeOthers hlearns (hlearns'.agrees hv) hlearns'] at hys
    rw [map_token_handlerSteps] at hhandler
    have he : w.handler.last = e := (Option.some.inj hlast').symm
    have hl : w.normal.last = l := (Option.some.inj hlast).symm
    have hp : w.normal.first = before + 1 := (Code.next?_eq_some_iff.1 hfirst').1
    exact ⟨n, _, uses b''.complete, he ▸ hhandler, (Option.some.inj hfirst'').symm,
      hp ▸ hgreatest, xs, hxs, ys, hys,
      hp ▸ hl ▸ reads_append_iff.2 ⟨_, hblock, hrest⟩⟩
  · rintro ⟨n, primary, u, hhandler, hfirst', hgreatest, xs, hxs, ys, hys, hnormal⟩
    obtain ⟨q, hblock, hrest⟩ := reads_append_iff.1 hnormal
    have hreads : Reads code s
        ((handlerSteps n).map (Step.token (valuation primary u (u 0).merging)))
        (w.handler.last + 1) := by
      rw [map_token_handlerSteps]
      exact hhandler
    obtain ⟨c, l, b, b', hafter, rfl, hread, hsearch, hlearns, hv, hlearns'⟩ :=
      (layout n).exists_search_eq_ok k hreads hgreatest hxs hblock
    obtain ⟨first, hfirst, all, hall, hend⟩ := readHandler_iff.2 hread
    -- what the handler has met is all that the other blocks depend on
    have hothers := instances_closeOthers hlearns hv hlearns'
    obtain ⟨b'', hrest'⟩ := (readAll_eq_ok_iff (grounded_closeOthers n) (by simp)).2
      ⟨ys, hothers ▸ hys, hrest⟩
    refine ⟨⟨some w.normal.last, b''⟩, bind_eq_ok_iff.2 ⟨first, hfirst, ?_⟩⟩
    rw [hall]
    exact bind_eq_ok_iff.2 ⟨_, hend, bind_eq_ok_iff.2 ⟨_, hsearch, bind_eq_ok_iff.2 ⟨_, hrest',
      Verdict.between_eq_ok_iff.2 ⟨hafter, rfl, by rw [hfirst']; rfl, rfl, rfl⟩⟩⟩⟩

theorem attempt_eq_some_iff {k : Matcher} {w : Sighting} :
    ((k.restart s).attempt code .ecjNoFlowOut).1 = some w ↔
      ∃ n primary u, Sighted code s n primary u w :=
  Matcher.attempt_eq_some_iff.trans exists_sight_eq_ok_iff

/-- **The shape of statements that never end normally.** Started at any handler, the template
succeeds exactly if the code from the handler on closes some number of resources, maybe none, and
the last block in front of it that closes the first of them is followed by blocks that close the
others. It then reports these blocks, and the handler. The handler fits one number of resources
only. -/
theorem attempt_iff_noFlowOut (code : Code) (k : Matcher) (s : Nat) :
    (∀ w, ((k.restart s).attempt code .ecjNoFlowOut).1 = some w ↔
      ∃ n primary u, Sighted code s n primary u w) ∧
    {n | ∃ primary u e, Reads code s (handling primary u n) e}.Subsingleton := by
  refine ⟨fun w => Matcher.attempt_eq_some_iff.trans exists_sight_eq_ok_iff, ?_⟩
  rintro n ⟨primary, u, e, h⟩ n' ⟨primary', u', e', h'⟩
  exact eq_of_reads_handling h h'

end TryResources.Ecj.NoFlowOut
