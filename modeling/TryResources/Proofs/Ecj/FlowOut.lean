import TryResources.Proofs.Ecj

/-!
# The shape of statements compiled by ecj whose bodies may end normally

The handler closes the resources one by one, each but the first behind the merge of what closing
the one before threw. How many there are is for the code to say: the template goes on for as long
as another resource is closed, and no other number of resources fits the same code.

* `handling`: the pattern of the handler.
* `readResources_eq_ok_iff`: the loop over the resources, as one sequence of steps.
* `Sighted`: code that contains a statement, and where.
* `exists_sight_eq_ok_iff`: the template succeeds exactly on such code.
* `attempt_iff_flowOut`: the same of an attempt, with the number of resources unique.
-/

namespace TryResources.Ecj.FlowOut

open Matching

/-! ## Patterns -/

/-- A resource behind the first one is closed, and what that throws is merged and thrown. -/
def closingNext (primary : Slot) (u : Use) : List Token :=
  closing u.slot u.owner u.skipped ++ .jump .goto u.skipped :: merging primary u.merging ++
    closingAndThrowing primary u

/-- The handler of a statement with `n` resources. -/
def handling (primary : Slot) (u : Nat → Use) (last : Merging) (n : Nat) : List Token :=
  .slot .astore primary :: closingAndThrowing primary (u 0) ++
    ((List.range' 1 (n - 1)).flatMap (fun i => closingNext primary (u i)) ++
      (merging primary last ++ throwing primary))

/-- The code contains a statement with `n` resources whose handler starts at `s`, and `w` says
where: the handler, and the last block in front of it that closes the first resource, with the
jump behind that block. -/
structure Sighted (code : Code) (s n : Nat) (primary : Slot) (u : Nat → Use) (last : Merging)
    (w : Sighting) : Prop where
  count : 1 ≤ n
  handler : Reads code s (handling primary u last n) (w.handler.last + 1)
  handlerFirst : w.handler.first = s + 1
  normalFirst : IsGreatest (code.blocksBefore (closings (u 0).slot (u 0).owner) s) w.normal.first
  normalLast : ∃ ts ∈ closings (u 0).slot (u 0).owner, ∃ q i, Reads code w.normal.first ts q ∧
    code.FirstInsn q w.normal.last i ∧ i.opcode.isUnconditionalJump = true

/-! ## The loop over the resources -/

variable {code : Code} {b : Bindings} {v : Valuation} {i n p q s : Nat} {r all : Reading}

/-- The steps that read resource number `i` behind the first one. -/
def resourceSteps (i : Nat) : List Step :=
  close i ++ afterClose i

/-- The loop over the resources, as one sequence of steps: it ends where no resource is closed. -/
theorem readResources_eq_ok_iff :
    readResources code i r = .ok (n, all) ↔
      i ≤ n ∧ Step.readAll code ((List.range' i (n - i)).flatMap resourceSteps) r = .ok all ∧
        ∃ e, Step.readAll code (close n) all = .error e := by
  fun_induction readResources code i r with
  | case1 i r e he =>
    -- no resource is closed here, so `n` is `i`
    constructor
    · intro h
      cases h
      simp [he]
    · rintro ⟨hle, hread, e', he'⟩
      rcases Nat.eq_or_lt_of_le hle with rfl | hlt
      · simpa using hread
      · rw [range'_of_lt hlt, List.flatMap_cons,
          resourceSteps, List.append_assoc, Step.readAll_append, he] at hread
        cases hread
  | case2 i r closed hc e ha =>
    -- a resource is closed, but its handler breaks off: no number will do
    constructor
    · intro h
      cases h
    · rintro ⟨hle, hread, e', he'⟩
      rcases Nat.eq_or_lt_of_le hle with rfl | hlt
      · have : r = all := by simpa using hread
        rw [← this, hc] at he'
        cases he'
      · rw [range'_of_lt hlt, List.flatMap_cons,
          resourceSteps, List.append_assoc, Step.readAll_append, hc, Except.bind,
          Step.readAll_append, ha] at hread
        cases hread
  | case3 i r closed hc r' ha _ ih =>
    have hfirst : Step.readAll code (resourceSteps i) r = .ok r' := by
      rw [resourceSteps, Step.readAll_append, hc]
      exact ha
    rw [ih]
    constructor
    · rintro ⟨hle, hread, he⟩
      refine ⟨by omega, ?_, he⟩
      rw [range'_of_lt hle, List.flatMap_cons,
        Step.readAll_append, hfirst]
      exact hread
    · rintro ⟨hle, hread, e, he⟩
      rcases Nat.eq_or_lt_of_le hle with rfl | hlt
      · have : r = all := by simpa using hread
        rw [← this, hc] at he
        cases he
      · rw [range'_of_lt hlt, List.flatMap_cons,
          Step.readAll_append, hfirst] at hread
        exact ⟨hlt, hread, e, he⟩

/-- The steps that read the handler of a statement with `n` resources. -/
def handlerSteps (n : Nat) : List Step :=
  .slot .astore .primary :: closeAndThrow 0 ++
    ((List.range' 1 (n - 1)).flatMap resourceSteps ++ (merge .last ++ throwPrimary))

theorem map_token_handlerSteps (v : Valuation) (n : Nat) :
    (handlerSteps n).map (Step.token v) =
      handling (v (.slot .primary)) (uses v) (mergingOf v .last) n := by
  simp only [handlerSteps, handling, List.map_append, List.map_cons, List.map_flatMap]
  rfl

theorem grounded_handlerSteps (n : Nat) : Step.Grounded [] (handlerSteps n) := by
  have hone (s : Step) (hs : ∀ m, s ≠ .label m) : Step.Grounded [] [s] := ⟨by simp [hs], trivial⟩
  have hresource (i : Nat) : Step.Grounded [] (resourceSteps i) :=
    (grounded_close i).append ((hone _ (by simp)).append (grounded_merge _) |>.append
      (grounded_closeAndThrow i))
  exact ((hone _ (by simp)).append (grounded_closeAndThrow 0)).append
    ((Step.Grounded.flatMap hresource _).append
      ((grounded_merge .last).append grounded_throwPrimary))

/-- The label behind closing a resource is numbered like the resource. -/
theorem skipped_mem_names_resourceSteps {j : Nat} :
    .label (.skipped j) ∈ (resourceSteps i).flatMap Step.names ↔ j = i := by
  simp [resourceSteps, close, afterClose, merge, closeAndThrow, loadResource, loadPrimary,
    List.flatMap_cons, Step.names, -List.mem_flatMap]

/-- The names that the handler meets: the first resource is among them, but not the label behind
closing it where the statement ends normally. -/
theorem names_handlerSteps (n : Nat) :
    let names := (handlerSteps n).flatMap Step.names
    .slot (.resource (.nth 0)) ∈ names ∧ .owner (.nth 0) ∈ names ∧ .label (.skipped 0) ∉ names := by
  refine ⟨?_, ?_, ?_⟩
  · simp [handlerSteps, closeAndThrow, loadResource, Step.names]
  · simp [handlerSteps, closeAndThrow, loadResource, Step.names]
  · intro h
    rw [handlerSteps, List.flatMap_append, List.flatMap_append, List.flatMap_assoc] at h
    rcases List.mem_append.1 h with hfirst | h
    · simp [closeAndThrow, loadResource, loadPrimary, Step.names] at hfirst
    rcases List.mem_append.1 h with hnext | hlast
    · obtain ⟨i, hi, hmem⟩ := List.mem_flatMap.1 hnext
      rw [skipped_mem_names_resourceSteps] at hmem
      have := (List.mem_range'_1.1 hi).1
      omega
    · simp [merge, throwPrimary, loadPrimary, Step.names] at hlast

/-- Where a caught exception is merged, no resource is closed. -/
theorem not_reads_merging_of_closing {slot primary : Slot} {owner : String} {target : LabelId}
    {m : Merging} {xs ys : List Token} (h : Reads code p (closing slot owner target ++ xs) q) :
    ¬ Reads code p (merging primary m ++ ys) s :=
  Reads.not_reads h trivial trivial (by simp [Token.opcodes])

/-- The number of resources is for the code to say. -/
theorem eq_of_reads_handling {primary primary' : Slot} {u u' : Nat → Use} {last last' : Merging}
    {n' : Nat} (hn : 1 ≤ n) (hn' : 1 ≤ n') (h : Reads code s (handling primary u last n) p)
    (h' : Reads code s (handling primary' u' last' n') q) : n = n' := by
  obtain ⟨m, hm, hrest⟩ := reads_append_iff.1 h
  obtain ⟨m', hm', hrest'⟩ := reads_append_iff.1 h'
  obtain rfl : m = m' := hm.end_unique hm' (by simp [closingAndThrowing, Token.IsInsn])
  have hsame (i : Nat) : List.Forall₂ (fun x y : Token => x.IsInsn ↔ y.IsInsn)
      (closingNext primary (u i)) (closingNext primary' (u' i)) := by
    simp [closingNext, closing, merging, closingAndThrowing, Token.IsInsn]
  -- another resource is loaded where the last merge would store
  have := eq_of_reads_flatMap hsame
    (fun i p q q' rest hpiece => by
      rw [closingNext, List.append_assoc, List.append_assoc] at hpiece
      exact not_reads_merging_of_closing hpiece)
    (fun i p q q' rest hpiece => by
      rw [closingNext, List.append_assoc, List.append_assoc] at hpiece
      exact not_reads_merging_of_closing hpiece)
    hrest hrest'
  omega

/-- Where a merge is read, no resource is closed. -/
theorem exists_error_of_readAll_merge {site : Merge} {rest : List Step} {r' : Reading}
    (h : Step.readAll code (merge site ++ rest) r = .ok r') (i : Nat) :
    ∃ e, Step.readAll code (close i) r = .error e := by
  refine exists_error_of_readAll (close_ne_nil i) (fun v v' p q q' hmerge hclose => ?_) h
  rw [List.map_append, map_token_merge] at hmerge
  rw [map_token_close, ← List.append_nil (closing _ _ _)] at hclose
  exact not_reads_merging_of_closing hclose hmerge

/-- Reading the handler finds its number of resources. -/
theorem readHandler_iff {atEnd : Reading} :
    (∃ first, Step.readAll code (.slot .astore .primary :: closeAndThrow 0) r = .ok first ∧
      ∃ all, readResources code 1 first = .ok (n, all) ∧
        Step.readAll code (merge .last ++ throwPrimary) all = .ok atEnd) ↔
      1 ≤ n ∧ Step.readAll code (handlerSteps n) r = .ok atEnd := by
  rw [handlerSteps, readAll_append_eq_ok_iff]
  constructor
  · rintro ⟨first, hfirst, all, hall, hend⟩
    obtain ⟨hn, hread, -⟩ := readResources_eq_ok_iff.1 hall
    exact ⟨hn, first, hfirst, readAll_append_eq_ok_iff.2 ⟨all, hread, hend⟩⟩
  · rintro ⟨hn, first, hfirst, hrest⟩
    obtain ⟨all, hread, hend⟩ := readAll_append_eq_ok_iff.1 hrest
    exact ⟨first, hfirst, all,
      readResources_eq_ok_iff.2 ⟨hn, hread, exists_error_of_readAll_merge hend n⟩, hend⟩

/-! ## Attempts -/

/-- The handler of `n` resources, and the block that closes the first one in front of it. -/
theorem layout (n : Nat) :
    Layout (handlerSteps n) (close 0) fun v => closings (uses v 0).slot (uses v 0).owner where
  handler_ne_nil := by simp [handlerSteps]
  handler_grounded := grounded_handlerSteps n
  block_head := close_eq_cons 0
  block_grounded := grounded_close 0
  instances := by
    intro b v hlearns hv
    obtain ⟨hslot, howner, hskipped⟩ := names_handlerSteps n
    exact instances_close hv (hlearns.knows_iff_of_empty.2 hslot)
      (hlearns.knows_iff_of_empty.2 howner) (mt hlearns.knows_iff_of_empty.1 hskipped)
  disjoint := by
    intro code v s p q ts hhandler hts
    rw [map_token_handlerSteps] at hhandler
    exact not_reads_closing_of_astore hhandler hts

/-- The template succeeds exactly on code that contains a statement with some number of resources,
and a jump in front of its handler. -/
theorem exists_sight_eq_ok_iff {k : Matcher} {w : Sighting} :
    (∃ r, sight code (k.restart s) = .ok (w, r)) ↔
      ∃ n primary u last, Sighted code s n primary u last w := by
  constructor
  · -- the bindings at the end, completed, give the statement
    rintro ⟨r, h⟩
    obtain ⟨first, hfirst, h⟩ := bind_eq_ok_iff.1 h
    obtain ⟨⟨n, all⟩, hall, h⟩ := bind_eq_ok_iff.1 h
    obtain ⟨atEnd, hend, h⟩ := bind_eq_ok_iff.1 h
    obtain ⟨⟨before, closed⟩, hsearch, h⟩ := bind_eq_ok_iff.1 h
    obtain ⟨hn, hread⟩ := readHandler_iff.1 ⟨first, hfirst, all, hall, hend⟩
    obtain ⟨e, b, q, b', rfl, rfl, -, -, hcode⟩ := (layout n).of_search_eq_ok hread hsearch
    obtain ⟨hhandler, hgreatest, ts, hts, hblock⟩ := hcode _ b'.agrees_complete
    rw [map_token_handlerSteps] at hhandler
    dsimp only at h
    split at h
    · rename_i hjump
      obtain ⟨hfirst, hlast, hfirst', hlast', -⟩ := Verdict.between_eq_ok_iff.1 h
      obtain ⟨l, i, hl, hi⟩ := onUnconditionalJump_advance_iff.1 hjump
      obtain ⟨i', hi'⟩ := advance_cursor_eq_some_iff.1 hlast
      obtain ⟨rfl, rfl⟩ := hl.unique hi'
      have he : w.handler.last = e := (Option.some.inj hlast').symm
      have hp : w.normal.first = before + 1 := (Code.next?_eq_some_iff.1 hfirst).1
      exact ⟨n, _, uses b'.complete, _, hn, he ▸ hhandler, (Code.next?_eq_some_iff.1 hfirst').1,
        hp ▸ hgreatest, ts, hts, q + 1, i, hp ▸ hblock, hl, hi⟩
    · cases h
  · -- the valuation that gives all resources what they use reads the statement
    rintro ⟨n, primary, u, last, hn, hhandler, hfirst', hgreatest, ts, hts, q, i, hblock, hl, hi⟩
    have hreads : Reads code s ((handlerSteps n).map (Step.token (valuation primary u last)))
        (w.handler.last + 1) := by
      rw [map_token_handlerSteps]
      exact hhandler
    obtain ⟨c, l, b, b', hafter, rfl, hread, hsearch, -⟩ :=
      (layout n).exists_search_eq_ok k hreads hgreatest hts hblock
    obtain ⟨first, hfirst, all, hall, hend⟩ := readHandler_iff.2 ⟨hn, hread⟩
    have hafter' : code.next? s = some w.handler.first :=
      hfirst' ▸ hhandler.next?_eq_some (by simp [handling, closingAndThrowing])
    refine ⟨Reading.advance code ⟨some l, b'⟩, bind_eq_ok_iff.2 ⟨_, hfirst,
      bind_eq_ok_iff.2 ⟨_, hall, bind_eq_ok_iff.2 ⟨_, hend, bind_eq_ok_iff.2 ⟨_, hsearch, ?_⟩⟩⟩⟩⟩
    dsimp only
    rw [if_pos (onUnconditionalJump_advance_iff.2 ⟨_, i, hl, hi⟩)]
    exact Verdict.between_eq_ok_iff.2
      ⟨hafter, advance_cursor_eq_some_iff.2 ⟨i, hl⟩, hafter', rfl, rfl⟩

theorem attempt_eq_some_iff {k : Matcher} {w : Sighting} :
    ((k.restart s).attempt code .ecj).1 = some w ↔
      ∃ n primary u last, Sighted code s n primary u last w :=
  Matcher.attempt_eq_some_iff.trans exists_sight_eq_ok_iff

/-- **The shape of statements that may end normally.** Started at any handler, the template
succeeds exactly if the code from the handler on closes some number of resources, one at least,
and the last block in front of it that closes the first of them is followed by a jump that never
falls through. It then reports that block with its jump, and the handler. The handler fits one
number of resources only. -/
theorem attempt_iff_flowOut (code : Code) (k : Matcher) (s : Nat) :
    (∀ w, ((k.restart s).attempt code .ecj).1 = some w ↔
      ∃ n primary u last, Sighted code s n primary u last w) ∧
    {n | 1 ≤ n ∧ ∃ primary u last e, Reads code s (handling primary u last n) e}.Subsingleton := by
  refine ⟨fun w => Matcher.attempt_eq_some_iff.trans exists_sight_eq_ok_iff, ?_⟩
  rintro n ⟨hn, primary, u, last, e, h⟩ n' ⟨hn', primary', u', last', e', h'⟩
  exact eq_of_reads_handling hn hn' h h'

end TryResources.Ecj.FlowOut
