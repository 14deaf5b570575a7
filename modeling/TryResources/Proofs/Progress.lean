import TryResources.Proofs.Persistence
import TryResources.Proofs.Recognition
import TryResources.Proofs.Simulation

/-!
# Loops over resources make progress

A handler of ecj is read by a loop without a limit of its own: it goes round as long as there is
another resource. What ends it is the body of the method: each round moves the cursor forward by at
least as many nodes as it has steps, and never past the end.

* `Iterates`: how often a loop goes round, and what it leaves.
* `exists_iterates`, `Iterates.count_le`: every loop ends, after so many rounds at most.
* `Ecj.readResources_of_iterates`, `Ecj.readHandlers_of_iterates`: what the two loops come to.
* `Ecj.Numbered`: a round uses the names of one resource, those with its number.
* `loops_progress`: all of this in one statement.
-/

namespace TryResources

namespace Matching

/-- From `r` on, a loop whose rounds are numbered from `i` on goes round `count` times, up to the
reading `r'`, where the next round breaks off. -/
structure Iterates (code : Code) (round : Nat → List Step) (i : Nat) (r : Reading) (count : Nat)
    (r' : Reading) : Prop where
  read : Step.readAll code ((List.range' i count).flatMap round) r = .ok r'
  stops : ∃ e, Step.readAll code (round (i + count)) r' = .error e

variable {code : Code} {round : Nat → List Step} {i count len : Nat} {r r₁ r' : Reading}

/-- A loop whose first round breaks off does not go round at all. -/
theorem Iterates.zero {e : Reading} (h : Step.readAll code (round i) r = .error e) :
    Iterates code round i r 0 r :=
  ⟨rfl, e, h⟩

/-- A loop whose first round succeeds goes on from there. -/
theorem Iterates.succ (hround : Step.readAll code (round i) r = .ok r₁)
    (h : Iterates code round (i + 1) r₁ count r') : Iterates code round i r (count + 1) r' := by
  have hnext : i + 1 + count = i + (count + 1) := by omega
  refine ⟨?_, hnext ▸ h.stops⟩
  rw [List.range'_succ, List.flatMap_cons]
  exact readAll_append_eq_ok_iff.2 ⟨r₁, hround, h.read⟩

/-- A loop whose rounds are not empty ends: each round leaves fewer nodes to read. -/
theorem exists_iterates (code : Code) (hround : ∀ i, round i ≠ []) (i : Nat) (r : Reading) :
    ∃ count r', Iterates code round i r count r' := by
  induction hn : r.remaining code using Nat.strong_induction_on generalizing i r with
  | _ n ih =>
    cases hr : Step.readAll code (round i) r with
    | error e => exact ⟨0, r, .zero hr⟩
    | ok r₁ =>
      have hlt : r₁.remaining code < n := hn ▸ Reading.remaining_lt_of_readAll (hround i) hr
      obtain ⟨count, r', h⟩ := ih _ hlt (i + 1) r₁ rfl
      exact ⟨count + 1, r', .succ hr h⟩

/-- The rounds of a loop are read from disjoint parts of the body. -/
theorem Iterates.mul_le (hlen : ∀ i, (round i).length = len)
    (h : Iterates code round i r count r') : count * len ≤ code.size := by
  have hsteps : ((List.range' i count).flatMap round).length = count * len := by
    simp [List.length_flatMap, hlen]
  by_cases hne : (List.range' i count).flatMap round = []
  · rw [hne] at hsteps
    rw [← hsteps]
    exact Nat.zero_le code.size
  · obtain ⟨p, q, -, -, hpq, hq⟩ := Step.advances_of_readAll hne h.read
    rw [hsteps] at hpq
    omega

theorem Iterates.count_le (hlen : ∀ i, (round i).length = len) (hpos : 0 < len)
    (h : Iterates code round i r count r') : count ≤ code.size / len :=
  (Nat.le_div_iff_mul_le hpos).2 (h.mul_le hlen)

end Matching

open Matching

namespace Ecj

variable {code : Code} {i j n count : Nat} {r all : Reading}

/-! ## What the loops come to -/

theorem length_resourceSteps (i : Nat) : (FlowOut.resourceSteps i).length = 26 := rfl

theorem resourceSteps_ne_nil (i : Nat) : FlowOut.resourceSteps i ≠ [] :=
  List.ne_nil_of_length_eq_add_one (length_resourceSteps i)

theorem length_handlerOf (i : Nat) : (handlerOf i).length = 21 := rfl

/-- How the loop over the resources ends at resource number `n`: this one is not closed, or it is
closed and the rest of its handler breaks off. -/
inductive EndsAt (code : Code) (n : Nat) (all : Reading) : Except Reading (Nat × Reading) → Prop
  | done {e} : Step.readAll code (close n) all = .error e → EndsAt code n all (.ok (n, all))
  | brokenOff {closed e} : Step.readAll code (close n) all = .ok closed →
      Step.readAll code (afterClose n) closed = .error e → EndsAt code n all (.error e)

/-- The loop over the resources may be entered behind any number of rounds. -/
theorem readResources_eq_of_readAll
    (h : Step.readAll code ((List.range' i count).flatMap FlowOut.resourceSteps) r = .ok all) :
    readResources code i r = readResources code (i + count) all := by
  induction count generalizing i r with
  | zero =>
    have hall : r = all := Except.ok.inj h
    rw [hall, Nat.add_zero]
  | succ count ih =>
    rw [List.range'_succ, List.flatMap_cons] at h
    obtain ⟨r₁, hround, hrest⟩ := readAll_append_eq_ok_iff.1 h
    obtain ⟨closed, hclose, hafter⟩ := readAll_append_eq_ok_iff.1 hround
    have hnext : i + (count + 1) = i + 1 + count := by omega
    rw [readResources_eq, hclose, hnext, ← ih hrest]
    show (Step.readAll code (afterClose i) closed >>= readResources code (i + 1)) = _
    rw [hafter]
    rfl

theorem readResources_of_iterates (h : Iterates code FlowOut.resourceSteps i r count all) :
    EndsAt code (i + count) all (readResources code i r) := by
  obtain ⟨e, hstops⟩ := h.stops
  rw [readResources_eq_of_readAll h.read, readResources_eq]
  cases hclose : Step.readAll code (close (i + count)) all with
  | error e' => exact .done hclose
  | ok closed =>
    have hafter : Step.readAll code (afterClose (i + count)) closed = .error e := by
      rw [FlowOut.resourceSteps, Step.readAll_append, hclose] at hstops
      exact hstops
    show EndsAt code (i + count) all
      (Step.readAll code (afterClose (i + count)) closed >>= readResources code (i + count + 1))
    rw [hafter]
    exact .brokenOff hclose hafter

theorem readHandlers_of_iterates (h : Iterates code handlerOf i r count all) :
    readHandlers code i r = (i + count, all) := by
  have hcount : i + count - i = count := by omega
  refine NoFlowOut.readHandlers_eq_iff.2 ⟨Nat.le_add_right i count, ?_, h.stops⟩
  rw [hcount]
  exact h.read

/-! ## Numbers of resources -/

/-- The number of the resource that a name belongs to. -/
def number? : Name → Option Nat
  | .slot (.resource (.nth i)) => some i
  | .slot (.merged (.before i)) => some i
  | .label (.skipped i) => some i
  | .label (.closed i) => some i
  | .label (.present (.before i)) => some i
  | .label (.merged (.before i)) => some i
  | .owner (.nth i) => some i
  | _ => none

/-- Of all names but that of the primary exception, the steps use those of resource number `i`. -/
def Numbered (i : Nat) (steps : List Step) : Prop :=
  ∀ s ∈ steps, ∀ m, s.name? = some m → m = .slot .primary ∨ number? m = some i

theorem Numbered.append {xs ys : List Step} (hx : Numbered i xs) (hy : Numbered i ys) :
    Numbered i (xs ++ ys) := by
  intro s hs
  rcases List.mem_append.1 hs with hs | hs
  · exact hx s hs
  · exact hy s hs

theorem numbered_close (i : Nat) : Numbered i (close i) := by
  simp [Numbered, close, loadResource, Step.name?, number?]

theorem numbered_closeAndThrow (i : Nat) : Numbered i (closeAndThrow i) := by
  simp [Numbered, closeAndThrow, loadResource, loadPrimary, Step.name?, number?]

theorem numbered_merge (i : Nat) : Numbered i (merge (.before i)) := by
  simp [Numbered, merge, loadPrimary, Step.name?, number?]

theorem numbered_resourceSteps (i : Nat) : Numbered i (FlowOut.resourceSteps i) := by
  have hjump : Numbered i [.jump .goto (.skipped i)] := by
    simp [Numbered, Step.name?, number?]
  exact (numbered_close i).append
    ((hjump.append (numbered_merge i)).append (numbered_closeAndThrow i))

theorem numbered_handlerOf (i : Nat) : Numbered i (handlerOf i) :=
  (numbered_closeAndThrow i).append (numbered_merge i)

/-- The code of resource number `i`, first or in a round of either loop, uses a name. -/
def Uses (i : Nat) (m : Name) : Prop :=
  ∃ s ∈ closeAndThrow i ++ FlowOut.resourceSteps i ++ handlerOf i, s.name? = some m

/-- Different resources share no name but that of the primary exception. -/
theorem Uses.eq_primary {m : Name} (hij : i ≠ j) (hi : Uses i m) (hj : Uses j m) :
    m = .slot .primary := by
  have numbered (k : Nat) :
      Numbered k (closeAndThrow k ++ FlowOut.resourceSteps k ++ handlerOf k) :=
    ((numbered_closeAndThrow k).append (numbered_resourceSteps k)).append (numbered_handlerOf k)
  obtain ⟨s, hs, hsm⟩ := hi
  obtain ⟨s', hs', hsm'⟩ := hj
  rcases numbered i s hs m hsm with h | h
  · exact h
  rcases numbered j s' hs' m hsm' with h' | h'
  · exact h'
  rw [h] at h'
  exact absurd (Option.some.inj h') hij

end Ecj

/-- **Loops over resources make progress.** In any body, from any state:

1. a step that succeeds, and a sequence of steps that does, has started at a position, ends at
   a position inside the body, and has moved forward by at least one node for each step: by 26 nodes
   in a round of the first loop, by 21 in a round of the second;
2. both loops end, after as many rounds at most as the body has room for, with consecutive
   numbers: what they come to is what the first round says that breaks off;
3. resources of different numbers share no name but that of the primary exception. -/
theorem loops_progress (code : Code) :
    ((∀ (s : Step) (r r' : Reading), s.read code r = .ok r' → Step.Advances code r 1 r') ∧
      (∀ (steps : List Step) (r r' : Reading), steps ≠ [] →
        Step.readAll code steps r = .ok r' → Step.Advances code r steps.length r') ∧
      ∀ (i : Nat) (r r' : Reading),
        (Step.readAll code (Ecj.FlowOut.resourceSteps i) r = .ok r' → Step.Advances code r 26 r') ∧
          (Step.readAll code (Ecj.handlerOf i) r = .ok r' → Step.Advances code r 21 r')) ∧
    (∀ (i : Nat) (r : Reading),
      (∃ count all, Iterates code Ecj.FlowOut.resourceSteps i r count all ∧
        count ≤ code.size / 26 ∧ Ecj.EndsAt code (i + count) all (Ecj.readResources code i r)) ∧
      ∃ count all, Iterates code Ecj.handlerOf i r count all ∧
        count ≤ code.size / 21 ∧ Ecj.readHandlers code i r = (i + count, all)) ∧
    ∀ (i j : Nat) (m : Name), i ≠ j → Ecj.Uses i m → Ecj.Uses j m → m = .slot .primary := by
  refine ⟨⟨?_, ?_, ?_⟩, ?_, ?_⟩
  · intro s r r' h
    exact Step.advances_of_read h
  · intro steps r r' hne h
    exact Step.advances_of_readAll hne h
  · intro i r r'
    refine ⟨fun h => ?_, fun h => ?_⟩
    · have hadvances := Step.advances_of_readAll (Ecj.resourceSteps_ne_nil i) h
      rwa [Ecj.length_resourceSteps] at hadvances
    · have hadvances := Step.advances_of_readAll (Ecj.handlerOf_ne_nil i) h
      rwa [Ecj.length_handlerOf] at hadvances
  · intro i r
    constructor
    · obtain ⟨count, all, h⟩ := exists_iterates code Ecj.resourceSteps_ne_nil i r
      exact ⟨count, all, h, h.count_le Ecj.length_resourceSteps (by omega),
        Ecj.readResources_of_iterates h⟩
    · obtain ⟨count, all, h⟩ := exists_iterates code Ecj.handlerOf_ne_nil i r
      exact ⟨count, all, h, h.count_le Ecj.length_handlerOf (by omega),
        Ecj.readHandlers_of_iterates h⟩
  · intro i j m hij hi hj
    exact hi.eq_primary hij hj

/-- A round of either loop, in the second and in the third of `fourStatements`. -/
theorem loops_progress_fourStatements :
    let c := (Compiled.methodOf Compiled.numbering "run" "()V" Compiled.fourStatements).code
    let r : Reading := ⟨some 98, {}⟩
    let r₂ : Reading := ⟨some 181, {}⟩
    (∃ r', (Ecj.loadResource 1).read c r = .ok r' ∧ Step.Advances c r 1 r') ∧
    (Ecj.close 1 ≠ [] ∧ ∃ r', Step.readAll c (Ecj.close 1) r = .ok r' ∧
      Step.Advances c r (Ecj.close 1).length r') ∧
    (∃ r', Step.readAll c (Ecj.FlowOut.resourceSteps 1) r = .ok r' ∧ Step.Advances c r 26 r') ∧
    (∃ r', Step.readAll c (Ecj.handlerOf 0) r₂ = .ok r' ∧ Step.Advances c r₂ 21 r') ∧
    (0 ≠ 1 ∧ Ecj.Uses 0 (.slot .primary) ∧ Ecj.Uses 1 (.slot .primary) ∧
      Name.slot .primary = .slot .primary) := by
  intro c r r₂
  obtain ⟨⟨hstep, hsteps, hrounds⟩, -, hnames⟩ := loops_progress c
  have hload : ∃ r', (Ecj.loadResource 1).read c r = .ok r' :=
    exists_eq_ok_of_isOk (by decide +kernel)
  have hclose : ∃ r', Step.readAll c (Ecj.close 1) r = .ok r' :=
    exists_eq_ok_of_isOk (by decide +kernel)
  have hresource : ∃ r', Step.readAll c (Ecj.FlowOut.resourceSteps 1) r = .ok r' :=
    exists_eq_ok_of_isOk (by decide +kernel)
  have hhandler : ∃ r', Step.readAll c (Ecj.handlerOf 0) r₂ = .ok r' :=
    exists_eq_ok_of_isOk (by decide +kernel)
  have huses (i : Nat) : Ecj.Uses i (.slot .primary) :=
    ⟨Ecj.loadPrimary, by simp [Ecj.closeAndThrow], rfl⟩
  refine ⟨?_, ⟨Ecj.close_ne_nil 1, ?_⟩, ?_, ?_, ?_⟩
  · exact hload.imp fun r' h => ⟨h, hstep _ _ _ h⟩
  · exact hclose.imp fun r' h => ⟨h, hsteps _ _ _ (Ecj.close_ne_nil 1) h⟩
  · exact hresource.imp fun r' h => ⟨h, (hrounds 1 r r').1 h⟩
  · exact hhandler.imp fun r' h => ⟨h, (hrounds 0 r₂ r').2 h⟩
  · exact ⟨Nat.zero_ne_one, huses 0, huses 1, hnames 0 1 _ Nat.zero_ne_one (huses 0) (huses 1)⟩

end TryResources
