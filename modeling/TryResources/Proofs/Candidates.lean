import TryResources.Proofs.Search

/-!
# What a search tries

A backward search tries its reader behind each node in front of a handler, from the last node on,
until it is accepted. Each try starts with the bindings of the outset: what a reader has met before
it fails is forgotten before the next try. To count the tries, the search is run with a reader that
has a state of its own, which no failure undoes, and writes down the readings that it is tried on.

* `findBackwardWith`, `findBackwardWith_fst`: the search with such a reader finds the same.
* `findBackward_eq_ok_iff_isGreatest`, `findBackward_eq_error_iff`: what a search finds, and what
  a search in vain leaves.
* `tries_eq`: the readings that are tried, in order.
* `findBackward_nearest`: what is found, what is left, and how many tries it takes.
-/

namespace TryResources.Matching

/-! ## Readers with a state of their own -/

/-- Something that reads code and has a state of its own. -/
abbrev StatefulReader (σ : Type) := Reading → σ → Except Reading Reading × σ

/-- The search, with a reader that has a state: it is handed on from try to try. -/
def findBackwardWith {σ : Type} (reader : StatefulReader σ) :
    Nat → Reading → σ → Except Reading (Nat × Reading) × σ
  | 0, r, x => (.error r, x)
  | p + 1, r, x =>
    match reader { r with cursor := some p } x with
    | (.ok r', x') => (.ok (p, r'), x')
    | (.error _, x') => findBackwardWith reader p { r with cursor := some p } x'

/-- The reader, which writes down what it is tried on. -/
def recorded (reader : Reader) : StatefulReader (List Reading) :=
  fun r tried => (reader r, tried ++ [r])

/-- The readings that a search tries its reader on, in order. -/
def tries (reader : Reader) (start : Nat) (r : Reading) : List Reading :=
  (findBackwardWith (recorded reader) start r []).2

variable {reader : Reader} {start p : Nat} {r r' : Reading}

/-- A state that readings do not depend on makes no difference to what is found. -/
theorem findBackwardWith_fst {σ : Type} {stateful : StatefulReader σ}
    (h : ∀ r x, (stateful r x).1 = reader r) (start : Nat) (r : Reading) (x : σ) :
    (findBackwardWith stateful start r x).1 = findBackward reader start r := by
  induction start generalizing r x with
  | zero => rfl
  | succ p ih =>
    unfold findBackwardWith findBackward
    rw [← h { r with cursor := some p } x]
    cases stateful { r with cursor := some p } x with
    | mk result x' =>
      cases result with
      | ok r' => rfl
      | error e => exact ih { r with cursor := some p } x'

/-! ## What is found -/

/-- The positions in front of a handler from which a reader accepts what it reads. -/
def accepted (reader : Reader) (b : Bindings) (start : Nat) : Set Nat :=
  {p | p < start ∧ ∃ r, reader ⟨some p, b⟩ = .ok r}

/-- The position found is the last one that is accepted. -/
theorem findBackward_eq_ok_iff_isGreatest :
    findBackward reader start r = .ok (p, r') ↔
      IsGreatest (accepted reader r.bindings start) p ∧
        reader ⟨some p, r.bindings⟩ = .ok r' := by
  rw [findBackward_eq_ok_iff]
  constructor
  · rintro ⟨hp, hr, hlater⟩
    refine ⟨⟨⟨hp, r', hr⟩, ?_⟩, hr⟩
    rintro q ⟨hq, r'', hr''⟩
    by_contra hpq
    exact hlater q (by omega) hq r'' hr''
  · rintro ⟨⟨⟨hp, -⟩, hgreatest⟩, hr⟩
    refine ⟨hp, hr, ?_⟩
    intro q hpq hq r'' hr''
    have hle : q ≤ p := hgreatest ⟨hq, r'', hr''⟩
    omega

theorem accepted_eq_empty_iff {b : Bindings} :
    accepted reader b start = ∅ ↔ ∀ q < start, ∃ e, reader ⟨some q, b⟩ = .error e := by
  constructor
  · intro h q hq
    cases hr : reader ⟨some q, b⟩ with
    | error e => exact ⟨e, rfl⟩
    | ok r' =>
      have hmem : q ∈ accepted reader b start := ⟨hq, r', hr⟩
      rw [h] at hmem
      exact absurd hmem (Set.notMem_empty q)
  · intro h
    refine Set.eq_empty_of_forall_notMem ?_
    rintro q ⟨hq, r', hr'⟩
    obtain ⟨e, he⟩ := h q hq
    rw [he] at hr'
    cases hr'

theorem findBackward_of_accepted_eq_empty (h : accepted reader r.bindings start = ∅) :
    findBackward reader start r =
      .error ⟨if start = 0 then r.cursor else some 0, r.bindings⟩ := by
  have hall := accepted_eq_empty_iff.1 h
  clear h
  induction start generalizing r with
  | zero => rfl
  | succ n ih =>
    obtain ⟨e, he⟩ := hall n (Nat.lt_succ_self n)
    have hbefore : ∀ q < n, ∃ e, reader ⟨some q, r.bindings⟩ = .error e := by
      intro q hq
      exact hall q (by omega)
    have hrest := ih (r := ⟨some n, r.bindings⟩) hbefore
    unfold findBackward
    rw [he]
    show findBackward reader n ⟨some n, r.bindings⟩ = _
    rw [hrest]
    cases n with
    | zero => rfl
    | succ m => rfl

/-- A search in vain has gone back to the very first position, and has bound nothing. -/
theorem findBackward_eq_error_iff :
    findBackward reader start r = .error r' ↔
      accepted reader r.bindings start = ∅ ∧
        r' = ⟨if start = 0 then r.cursor else some 0, r.bindings⟩ := by
  constructor
  · intro h
    have hempty : accepted reader r.bindings start = ∅ :=
      accepted_eq_empty_iff.2 (findBackward_eq_error h).2
    refine ⟨hempty, ?_⟩
    rw [findBackward_of_accepted_eq_empty hempty] at h
    exact (Except.error.inj h).symm
  · rintro ⟨hempty, rfl⟩
    exact findBackward_of_accepted_eq_empty hempty

/-! ## The tries -/

/-- The readings behind the positions from the last one before `start` down to `p`. -/
def candidates (b : Bindings) (start p : Nat) : List Reading :=
  (List.range' p (start - p)).reverse.map fun q => ⟨some q, b⟩

theorem candidates_succ (b : Bindings) (hp : p ≤ start) :
    candidates b (start + 1) p = ⟨some start, b⟩ :: candidates b start p := by
  have hcount : start + 1 - p = start - p + 1 := by omega
  have hlast : p + (start - p) = start := by omega
  rw [candidates, hcount, List.range'_1_concat, hlast, List.reverse_append, List.map_append]
  rfl

theorem length_candidates_le (b : Bindings) (start p : Nat) :
    (candidates b start p).length ≤ start := by
  simp only [candidates, List.length_map, List.length_reverse, List.length_range']
  omega

/-- Where a search ends: in front of what it has found, or at the very first position. -/
def lastTried : Except Reading (Nat × Reading) → Nat
  | .ok (p, _) => p
  | .error _ => 0

theorem lastTried_le (reader : Reader) (start : Nat) (r : Reading) :
    lastTried (findBackward reader start r) ≤ start := by
  cases h : findBackward reader start r with
  | ok found => exact (findBackward_eq_ok h).1.le
  | error e => exact Nat.zero_le start

theorem findBackwardWith_recorded (reader : Reader) (start : Nat) (r : Reading)
    (tried : List Reading) :
    (findBackwardWith (recorded reader) start r tried).2 =
      tried ++ candidates r.bindings start (lastTried (findBackward reader start r)) := by
  induction start generalizing r tried with
  | zero => exact (List.append_nil tried).symm
  | succ p ih =>
    unfold findBackwardWith findBackward recorded
    cases hp : reader { r with cursor := some p } with
    | ok r' =>
      show tried ++ [_] = tried ++ candidates r.bindings (p + 1) p
      rw [candidates_succ _ (le_refl p), candidates, Nat.sub_self]
      rfl
    | error e =>
      -- what is left to try starts from the same bindings
      have hrest := ih { r with cursor := some p } (tried ++ [{ r with cursor := some p }])
      have hle := lastTried_le reader p { r with cursor := some p }
      show (findBackwardWith (recorded reader) p _ _).2 = _
      rw [hrest, candidates_succ _ hle, List.append_assoc]
      rfl

/-- The search tries the positions before `start` from the last one down to where it ends, each
time with the bindings of the outset. -/
theorem tries_eq (reader : Reader) (start : Nat) (r : Reading) :
    tries reader start r =
      candidates r.bindings start (lastTried (findBackward reader start r)) :=
  findBackwardWith_recorded reader start r []

/-- **A search finds the nearest block and leaves no trace of others.** Whatever the reader and the
state of the matcher:

1. what is found is the last position before the start from which the reader accepts what it reads
   with the bindings of the outset, and what is left is what that one reading leaves;
2. nothing is found exactly if there is no such position, and then nothing has been bound;
3. the reader is run once for each position from the last one down to where the search ends, each
   time with the bindings of the outset, and so not more often than there are positions. -/
theorem findBackward_nearest (k : Matcher) (reader : Reader) :
    let b := k.reading.bindings
    let found := findBackward reader k.start k.reading
    (∀ p r, found = .ok (p, r) ↔
      IsGreatest (accepted reader b k.start) p ∧ reader ⟨some p, b⟩ = .ok r) ∧
    (∀ r, found = .error r ↔
      accepted reader b k.start = ∅ ∧
        r = ⟨if k.start = 0 then k.reading.cursor else some 0, b⟩) ∧
    (findBackwardWith (recorded reader) k.start k.reading []).1 = found ∧
      tries reader k.start k.reading = candidates b k.start (lastTried found) ∧
      (tries reader k.start k.reading).length ≤ k.start := by
  intro b found
  have htries : tries reader k.start k.reading = candidates b k.start (lastTried found) :=
    tries_eq reader k.start k.reading
  refine ⟨?_, ?_, ?_, htries, ?_⟩
  · intro p r
    exact findBackward_eq_ok_iff_isGreatest
  · intro r
    exact findBackward_eq_error_iff
  · have hrecorded : ∀ r x, (recorded reader r x).1 = reader r := fun r x => rfl
    exact findBackwardWith_fst hrecorded k.start k.reading []
  · rw [htries]
    exact length_candidates_le b k.start _

-- The variable that is met behind position 2, before the reader fails there, is forgotten.
example :
    let code : Code := .ofList [
      .insn ⟨.nop, .none⟩, .insn ⟨.aload, .slot 1⟩, .insn ⟨.pop, .none⟩,
      .insn ⟨.aload, .slot 2⟩, .insn ⟨.athrow, .none⟩]
    let reader := Step.readAll code [.slot .aload (.resource .only), .op .pop]
    (findBackward reader 4 {}).toOption.map
        (fun (p, r) => (p, r.cursor, r.bindings.slots.entries)) =
      some (0, some 2, [(.resource .only, 1)]) := by
  decide +kernel

end TryResources.Matching
