import TryResources.Proofs.Numbering

/-!
# Faults by rank

A method that is described can be at fault in three ways: a label is placed again, a name that is used
has no place, or an operand does not fit its opcode. However many faults there are, one is reported,
and which one is told by rank and then by position.

* `FirstMisfit`, `exists_firstMisfit_iff`: the first operand that does not fit its opcode.
* `Code.misfit?_eq_some_iff`: it is found in a body.
* `rank`, `Verdict`: which fault is reported, as a function and as a property of results.
* `verdict_rank`: the one has the other.
* `Verdict.of_same`: it does not matter how names are told apart.
-/

namespace TryResources

/-! ## The first of some positions -/

/-- What is found along positions is found at the least of them. -/
theorem findSome?_range_eq_some_iff {β : Type} {f : Nat → Option β} {n : Nat} {y : β} :
    (List.range n).findSome? f = some y ↔ ∃ p < n, f p = some y ∧ ∀ q < p, f q = none := by
  induction n with
  | zero => simp
  | succ n ih =>
    rw [List.range_succ, List.findSome?_append, Option.or_eq_some_iff, ih]
    constructor
    · rintro (⟨p, hp, hfound, hbefore⟩ | ⟨hnone, hfound⟩)
      · exact ⟨p, Nat.lt_succ_of_lt hp, hfound, hbefore⟩
      · refine ⟨n, Nat.lt_succ_self n, by simpa using hfound, fun q hq => ?_⟩
        exact List.findSome?_eq_none_iff.1 hnone q (List.mem_range.2 hq)
    · rintro ⟨p, hp, hfound, hbefore⟩
      rcases Nat.lt_succ_iff_lt_or_eq.1 hp with hlt | rfl
      · exact .inl ⟨p, hlt, hfound, hbefore⟩
      · refine .inr ⟨List.findSome?_eq_none_iff.2 fun q hq => ?_, by simpa using hfound⟩
        exact hbefore q (List.mem_range.1 hq)

/-- Behind an opcode stands an operand that does not fit it, and all operands in front fit. -/
structure FirstMisfit (nodes : List (Node String)) (p : Nat) (op : Opcode) : Prop where
  exists_operand : ∃ o, nodes[p]? = some (.insn ⟨op, o⟩) ∧ o.kind ≠ op.operandKind
  before : ∀ q < p, ∀ i, nodes[q]? = some (.insn i) → i.fits = true

theorem Instruction.fits_eq_false_iff {ℓ : Type} {i : Instruction ℓ} :
    i.fits = false ↔ i.operand.kind ≠ i.opcode.operandKind := by
  rw [fits, beq_eq_false_iff_ne, ne_comm]

/-- If some operand does not fit, there is a first one. -/
theorem exists_firstMisfit_iff {nodes : List (Node String)} :
    (∃ p op, FirstMisfit nodes p op) ↔ ∃ i, .insn i ∈ nodes ∧ i.fits = false := by
  constructor
  · rintro ⟨p, op, ⟨o, hp, hkind⟩, -⟩
    exact ⟨⟨op, o⟩, List.mem_of_getElem? hp, Instruction.fits_eq_false_iff.2 hkind⟩
  · rintro ⟨i, hi, hfits⟩
    obtain ⟨p, hp⟩ := List.getElem?_of_mem hi
    -- descent to the least position: if one in front does not fit either, go there
    induction p using Nat.strong_induction_on generalizing i with
    | _ p ih =>
      by_cases hbefore : ∀ q < p, ∀ j, nodes[q]? = some (.insn j) → j.fits = true
      · exact ⟨p, i.opcode, ⟨i.operand, hp, Instruction.fits_eq_false_iff.1 hfits⟩, hbefore⟩
      · push Not at hbefore
        obtain ⟨q, hq, j, hj, hmisfit⟩ := hbefore
        exact ih q hq j (List.mem_of_getElem? hj) (by simpa using hmisfit) hj

/-- If the first operand that does not fit is known, it is known whether all fit. -/
theorem eq_none_iff_of_firstMisfit {nodes : List (Node String)} {misfit : Option (Nat × Opcode)}
    (h : ∀ p op, misfit = some (p, op) ↔ FirstMisfit nodes p op) :
    misfit = none ↔ ∀ i, .insn i ∈ nodes → i.fits = true := by
  have hexists : (∃ p op, misfit = some (p, op)) ↔ ∃ i, .insn i ∈ nodes ∧ i.fits = false := by
    simp only [h]
    exact exists_firstMisfit_iff
  rw [Option.eq_none_iff_forall_ne_some, Prod.forall]
  simpa using not_congr hexists

namespace Code

variable {c : Code} {ns : List (Node String)} {f : String → LabelId} {p : Nat} {op : Opcode}

theorem insn?_eq_some_iff_of_map (h : c.nodes.toList = ns.map (Node.map f)) {q : Nat}
    {i : Instruction LabelId} : c.insn? q = some i ↔ ∃ j, ns[q]? = some (.insn j) ∧ i = j.map f := by
  rw [insn?, get?, ← Array.getElem?_toList, h, List.getElem?_map]
  cases ns[q]? with
  | none => simp
  | some n => cases n <;> simp [Node.map, Node.insn?, eq_comm]

/-- The instruction at a position, if its operand does not fit. -/
def misfitAt? (c : Code) (p : Nat) : Option (Nat × Opcode) :=
  (c.insn? p).bind fun i => if i.fits then none else some (p, i.opcode)

theorem misfit?_eq_findSome? (c : Code) :
    c.misfit? = (List.range c.size).findSome? c.misfitAt? := by
  unfold misfit?
  congr 1
  funext p
  unfold misfitAt?
  cases c.insn? p <;> rfl

theorem misfitAt?_eq_some_iff (h : c.nodes.toList = ns.map (Node.map f)) {q : Nat} :
    c.misfitAt? q = some (p, op) ↔ q = p ∧
      ∃ o, ns[p]? = some (.insn ⟨op, o⟩) ∧ o.kind ≠ op.operandKind := by
  rw [misfitAt?, Option.bind_eq_some_iff]
  constructor
  · rintro ⟨i, hi, hmisfit⟩
    obtain ⟨j, hj, rfl⟩ := (insn?_eq_some_iff_of_map h).1 hi
    rw [Instruction.fits_map] at hmisfit
    by_cases hfits : j.fits = true
    · simp [hfits] at hmisfit
    · rw [if_neg hfits, Option.some.injEq, Prod.mk.injEq] at hmisfit
      obtain ⟨rfl, rfl⟩ := hmisfit
      exact ⟨rfl, j.operand, hj, Instruction.fits_eq_false_iff.1 (by simpa using hfits)⟩
  · rintro ⟨rfl, o, ho, hkind⟩
    refine ⟨_, (insn?_eq_some_iff_of_map h).2 ⟨_, ho, rfl⟩, ?_⟩
    rw [Instruction.fits_map, Instruction.fits_eq_false_iff.2 hkind]
    rfl

theorem misfitAt?_eq_none_iff (h : c.nodes.toList = ns.map (Node.map f)) :
    c.misfitAt? p = none ↔ ∀ i, ns[p]? = some (.insn i) → i.fits = true := by
  constructor
  · intro hnone i hi
    by_contra hfits
    have hmisfit := (misfitAt?_eq_some_iff h).2 ⟨rfl, i.operand, hi,
      Instruction.fits_eq_false_iff.1 (by simpa using hfits)⟩
    rw [hnone] at hmisfit
    cases hmisfit
  · intro hfits
    rw [Option.eq_none_iff_forall_not_mem]
    rintro ⟨q, op⟩ hmisfit
    obtain ⟨rfl, o, ho, hkind⟩ := (misfitAt?_eq_some_iff h).1 hmisfit
    rw [← Instruction.fits_eq_false_iff (i := ⟨op, o⟩), hfits _ ho] at hkind
    cases hkind

/-- In a body of which the nodes are given, the first operand that does not fit is found. -/
theorem misfit?_eq_some_iff (h : c.nodes.toList = ns.map (Node.map f)) :
    c.misfit? = some (p, op) ↔ FirstMisfit ns p op := by
  rw [misfit?_eq_findSome?, findSome?_range_eq_some_iff]
  simp only [misfitAt?_eq_some_iff h, misfitAt?_eq_none_iff h]
  constructor
  · rintro ⟨q, -, ⟨rfl, hmisfit⟩, hbefore⟩
    exact ⟨hmisfit, hbefore⟩
  · rintro ⟨⟨o, ho, hkind⟩, hbefore⟩
    refine ⟨p, ?_, ⟨rfl, o, ho, hkind⟩, hbefore⟩
    rw [Code.size, ← Array.length_toList, h, List.length_map]
    exact (List.getElem?_eq_some_iff.1 ho).1

theorem misfit?_eq_none_iff (h : c.nodes.toList = ns.map (Node.map f)) :
    c.misfit? = none ↔ ∀ i, .insn i ∈ ns → i.fits = true :=
  eq_none_iff_of_firstMisfit fun _ _ => misfit?_eq_some_iff h

end Code

/-! ## Errors by rank -/

/-- What is reported if a label may have been placed again, a name may have no place, and an operand
may not fit its opcode; or else what has been made. -/
def rank {α : Type} (repeated undefined : Option String) (misfit : Option (Nat × Opcode)) (m : α) :
    Except MethodError α :=
  match repeated, undefined, misfit with
  | some name, _, _ => .error (.duplicateLabel name)
  | none, some name, _ => .error (.undefinedLabel name)
  | none, none, some (position, opcode) => .error (.operandMismatch position opcode)
  | none, none, none => .ok m

/-- A result is right for some nodes and the names that are used and placed there, if names with the
same key are taken as one: a label that is placed again is reported before a name without a place, and
this before an operand that does not fit. -/
structure Verdict {κ α : Type} (key : String → κ) (uses placed : List String)
    (nodes : List (Node String)) (result : Except MethodError α) : Prop where
  exists_duplicate_iff :
    (∃ x, result = .error (.duplicateLabel x)) ↔ ¬ (placed.map key).Nodup
  duplicate_iff : ∀ x, result = .error (.duplicateLabel x) ↔ FirstRepeat key placed (some x)
  exists_undefined_iff : (∃ x, result = .error (.undefinedLabel x)) ↔
    (placed.map key).Nodup ∧ ∃ x ∈ uses, key x ∉ placed.map key
  of_undefined : ∀ x, result = .error (.undefinedLabel x) → x ∈ uses ∧ key x ∉ placed.map key
  exists_mismatch_iff : (∃ p op, result = .error (.operandMismatch p op)) ↔
    (placed.map key).Nodup ∧ (∀ x ∈ uses, key x ∈ placed.map key) ∧
      ∃ i, .insn i ∈ nodes ∧ i.fits = false
  of_mismatch : ∀ p op, result = .error (.operandMismatch p op) → FirstMisfit nodes p op
  exists_ok_iff : (∃ m, result = .ok m) ↔
    (placed.map key).Nodup ∧ (∀ x ∈ uses, key x ∈ placed.map key) ∧
      ∀ i, .insn i ∈ nodes → i.fits = true

section

variable {α κ κ' : Type} {key : String → κ} {key' : String → κ'} {uses placed : List String}
  {nodes : List (Node String)} {repeated undefined : Option String}
  {misfit : Option (Nat × Opcode)} {m m' : α} {x : String} {p : Nat} {op : Opcode}

theorem rank_eq_duplicate_iff :
    rank repeated undefined misfit m = .error (.duplicateLabel x) ↔ repeated = some x := by
  unfold rank
  cases repeated <;> cases undefined <;> cases misfit <;> simp

theorem rank_eq_undefined_iff : rank repeated undefined misfit m = .error (.undefinedLabel x) ↔
    repeated = none ∧ undefined = some x := by
  unfold rank
  cases repeated <;> cases undefined <;> cases misfit <;> simp

theorem rank_eq_mismatch_iff : rank repeated undefined misfit m = .error (.operandMismatch p op) ↔
    repeated = none ∧ undefined = none ∧ misfit = some (p, op) := by
  unfold rank
  cases repeated <;> cases undefined <;> cases misfit <;> simp [Prod.ext_iff]

theorem rank_eq_ok_iff : rank repeated undefined misfit m = .ok m' ↔
    repeated = none ∧ undefined = none ∧ misfit = none ∧ m' = m := by
  unfold rank
  cases repeated <;> cases undefined <;> cases misfit <;> simp [eq_comm]

/-- The result is right if the first label that is placed again, some name without a place and the
first operand that does not fit are known. -/
theorem verdict_rank (hrepeated : FirstRepeat key placed repeated)
    (hsome : ∀ x, undefined = some x → x ∈ uses ∧ key x ∉ placed.map key)
    (hnone : undefined = none → ∀ x ∈ uses, key x ∈ placed.map key)
    (hmisfit : ∀ p op, misfit = some (p, op) ↔ FirstMisfit nodes p op) (m : α) :
    Verdict key uses placed nodes (rank repeated undefined misfit m) := by
  have hfirst {r : Option String} : repeated = r ↔ FirstRepeat key placed r :=
    ⟨fun h => h ▸ hrepeated, hrepeated.unique⟩
  have hnodup : repeated = none ↔ (placed.map key).Nodup := hfirst
  have hdefined : undefined = none ↔ ∀ x ∈ uses, key x ∈ placed.map key := by
    refine ⟨hnone, fun hall => Option.eq_none_iff_forall_ne_some.2 fun x hx => ?_⟩
    exact (hsome x hx).2 (hall x (hsome x hx).1)
  have hundefined : (∃ x, undefined = some x) ↔ ∃ x ∈ uses, key x ∉ placed.map key := by
    rw [← Option.ne_none_iff_exists', Ne, hdefined]
    push Not
    rfl
  have hfits := eq_none_iff_of_firstMisfit hmisfit
  constructor
  · rw [← hnodup, Option.eq_none_iff_forall_ne_some, not_forall_not]
    exact exists_congr fun x => rank_eq_duplicate_iff
  · intro x
    rw [rank_eq_duplicate_iff, hfirst]
  · simp only [rank_eq_undefined_iff, exists_and_left, hnodup, hundefined]
  · intro x hx
    exact hsome x (rank_eq_undefined_iff.1 hx).2
  · simp only [rank_eq_mismatch_iff, exists_and_left, hnodup, hdefined, hmisfit,
      exists_firstMisfit_iff]
  · intro p op hp
    exact (hmisfit p op).1 (rank_eq_mismatch_iff.1 hp).2.2
  · simp only [rank_eq_ok_iff, exists_and_left, exists_eq, and_true, hnodup, hdefined, hfits]

/-- Keys that tell the same names apart make no difference. -/
theorem Verdict.of_same {result : Except MethodError α} (h : Verdict key uses placed nodes result)
    (hplaced : ∀ x ∈ placed, x ∈ uses)
    (hsame : ∀ x ∈ uses, ∀ y ∈ uses, key x = key y ↔ key' x = key' y) :
    Verdict key' uses placed nodes result := by
  have hsame' : ∀ x ∈ placed, ∀ y ∈ placed, key x = key y ↔ key' x = key' y :=
    fun x hx y hy => hsame x (hplaced x hx) y (hplaced y hy)
  have hnodup : (placed.map key).Nodup ↔ (placed.map key').Nodup := nodup_map_iff_of_same hsame'
  have hmem : ∀ x ∈ uses, key x ∈ placed.map key ↔ key' x ∈ placed.map key' := fun x hx =>
    mem_map_iff_of_same fun y hy => hsame x hx y (hplaced y hy)
  have hall : (∀ x ∈ uses, key x ∈ placed.map key) ↔ ∀ x ∈ uses, key' x ∈ placed.map key' :=
    forall₂_congr hmem
  constructor
  · rw [h.exists_duplicate_iff, hnodup]
  · intro x
    rw [h.duplicate_iff]
    constructor
    · intro hx
      exact hx.of_same hsame'
    · intro hx
      exact hx.of_same fun y hy z hz => (hsame' y hy z hz).symm
  · rw [h.exists_undefined_iff, hnodup]
    refine and_congr_right fun _ => exists_congr fun x => and_congr_right fun hx => ?_
    rw [hmem x hx]
  · intro x hx
    obtain ⟨huse, hplace⟩ := h.of_undefined x hx
    exact ⟨huse, mt (hmem x huse).2 hplace⟩
  · rw [h.exists_mismatch_iff, hnodup, hall]
  · exact h.of_mismatch
  · rw [h.exists_ok_iff, hnodup, hall]

end

end TryResources
