import Mathlib.Data.Nat.SuccPred
import TryResources.Matching.Step

/-!
# Code patterns

What a piece of code consists of, said without names, tables or a cursor. A `Token` asks for one
node; `Reads c p ts q` says that the code `c`, read from position `p` on, consists of the tokens
`ts`, and that `q` is the position behind the last of them. Markers are passed over on the way to
an instruction, but not on the way to a label.

* `FirstInsn.unique`, `Reads.unique`: a position determines where a pattern ends.
* `reads_append_iff`: a pattern may be cut anywhere.
* `Reads.cut`: a pattern that runs past a position reads the same from that position on.
* `Reads.le_of_notMem_opcodes`: so it does not run past an instruction that it cannot read.
* `eq_of_reads_flatMap`: how often a pattern is repeated is for the code to say.
-/

namespace TryResources

/-! ## The first instruction from a position on -/

/-- From position `p` on, the first instruction is `i`, at position `q`. -/
structure Code.FirstInsn (c : Code) (p q : Nat) (i : Instruction LabelId) : Prop where
  le : p ≤ q
  get : c.get? q = some (.insn i)
  markers : ∀ r, p ≤ r → r < q → ∃ n, c.get? r = some n ∧ n.isMarker = true

namespace Code

variable {c : Code} {p p' q q' : Nat} {i i' : Instruction LabelId}

theorem insn?_eq_some_iff : c.insn? p = some i ↔ c.get? p = some (.insn i) := by
  unfold insn?
  cases c.get? p with
  | none => simp
  | some n => cases n <;> simp [Node.insn?]

theorem FirstInsn.insn? (h : c.FirstInsn p q i) : c.insn? q = some i :=
  insn?_eq_some_iff.2 h.get

theorem FirstInsn.lt_size (h : c.FirstInsn p q i) : q < c.size := by
  by_contra hlt
  have hnone := (c.get?_eq_none_iff q).2 (by omega)
  rw [h.get] at hnone
  cases hnone

theorem next?_eq_some_iff : c.next? p = some q ↔ q = p + 1 ∧ p + 1 < c.size := by
  unfold next?
  split
  · rename_i hlt
    simp [hlt, eq_comm]
  · rename_i hge
    simp [hge]

theorem FirstInsn.self (h : c.insn? p = some i) : c.FirstInsn p p i :=
  ⟨le_refl p, insn?_eq_some_iff.1 h, fun r hpr hrp => by omega⟩

/-- Nothing but markers is skipped, so the start may be moved up to the instruction. -/
theorem FirstInsn.of_le (h : c.FirstInsn p q i) (hpp : p ≤ p') (hpq : p' ≤ q) :
    c.FirstInsn p' q i :=
  ⟨hpq, h.get, fun r hr hrq => h.markers r (by omega) hrq⟩

theorem FirstInsn.unique (h : c.FirstInsn p q i) (h' : c.FirstInsn p q' i') :
    q = q' ∧ i = i' := by
  have not_lt {q q' : Nat} {i i' : Instruction LabelId} (h : c.FirstInsn p q i)
      (h' : c.FirstInsn p q' i') : ¬ q < q' := by
    intro hlt
    obtain ⟨n, hn, hmarker⟩ := h'.markers q h.le hlt
    rw [h.get] at hn
    obtain rfl := Option.some.inj hn
    simp [Node.isMarker] at hmarker
  have hq : q = q' := by
    have := not_lt h h'
    have := not_lt h' h
    omega
  subst hq
  have hget := h.get.symm.trans h'.get
  simp only [Option.some.injEq, Node.insn.injEq] at hget
  exact ⟨rfl, hget⟩

/-- The walk from instruction to instruction stops at the first instruction behind its start. -/
theorem nextInsn?_eq_some_iff : c.nextInsn? p = some q ↔ ∃ i, c.FirstInsn (p + 1) q i := by
  constructor
  · intro h
    obtain ⟨hpq, hq, hinsn, hmarkers⟩ := nextInsn?_eq_some h
    cases hn : c.get? q with
    | none =>
      have := (c.get?_eq_none_iff q).1 hn
      omega
    | some n =>
      have hnot := hinsn n hn
      cases n with
      | insn i => exact ⟨i, hpq, hn, fun r hr hrq => hmarkers r hr hrq⟩
      | _ => simp [Node.isMarker] at hnot
  · rintro ⟨i, h⟩
    -- the walk either stops at `q` or has a marker in front of it and goes on
    fun_induction nextInsn? c p with
    | case1 p hlt hmarker ih =>
      apply ih
      have hne : p + 1 ≠ q := by
        rintro rfl
        have hget := h.get
        simp only [get?, Array.getElem?_eq_getElem hlt, Option.some.injEq] at hget
        simp [hget, Node.isMarker] at hmarker
      have := h.le
      exact h.of_le (by omega) (by omega)
    | case2 p hlt hinsn =>
      by_contra hne
      have hle := h.le
      obtain ⟨n, hn, hmarker⟩ := h.markers (p + 1) (le_refl _) (by
        have : p + 1 ≠ q := fun e => hne (by rw [e])
        omega)
      simp only [get?, Array.getElem?_eq_getElem hlt, Option.some.injEq] at hn
      exact hinsn (hn ▸ hmarker)
    | case3 p hge =>
      have hlt := h.lt_size
      have hle := h.le
      simp only [size] at hlt
      omega

end Code

/-! ## Tokens -/

/-- One node that a code pattern asks for. -/
inductive Token
  /-- An instruction with this opcode, whatever follows it. -/
  | op (op : Opcode)
  /-- An access to this local variable. -/
  | slot (op : Opcode) (s : Slot)
  /-- A jump to this label. -/
  | jump (op : Opcode) (l : LabelId)
  /-- The definition of this label. -/
  | label (l : LabelId)
  /-- A call of the method `close` that this type declares. -/
  | close (owner : String)
  /-- A call of the helper method that closes a resource, whoever declares it. -/
  | closeHelper
  /-- A call that records a suppressed exception. -/
  | addSuppressed
  deriving Repr, DecidableEq

namespace Token

/-- A label asks for no instruction. -/
def IsInsn : Token → Prop
  | label _ => False
  | _ => True

/-- An instruction is one that a token asks for. -/
def Fits : Token → Instruction LabelId → Prop
  | op o, i => i.opcode = o
  | slot o s, i => i = ⟨o, .slot s⟩
  | jump o l, i => i = ⟨o, .target l⟩
  | label _, _ => False
  | close owner, i =>
    (i.opcode = .invokevirtual ∨ i.opcode = .invokeinterface) ∧
      i.operand = .member ⟨owner, "close", "()V"⟩
  | closeHelper, i =>
    i.opcode = .invokestatic ∧ ∃ owner, i.operand =
      .member ⟨owner, "$closeResource", "(Ljava/lang/Throwable;Ljava/lang/AutoCloseable;)V"⟩
  | addSuppressed, i =>
    i = ⟨.invokevirtual,
      .member ⟨"java/lang/Throwable", "addSuppressed", "(Ljava/lang/Throwable;)V"⟩⟩

/-- The opcodes that an instruction may have where a token asks for one. -/
def opcodes : Token → List Opcode
  | op o => [o]
  | slot o _ => [o]
  | jump o _ => [o]
  | label _ => []
  | close _ => [.invokevirtual, .invokeinterface]
  | closeHelper => [.invokestatic]
  | addSuppressed => [.invokevirtual]

/-- From position `p` on, the node that a token asks for comes next, at position `q`: at `p`
itself if it is a label, behind any markers otherwise. -/
def StandsAt (c : Code) (p : Nat) (t : Token) (q : Nat) : Prop :=
  match t with
  | label l => q = p ∧ c.get? p = some (.label l)
  | t => ∃ i, c.FirstInsn p q i ∧ t.Fits i

variable {c : Code} {p p' q q' : Nat} {t : Token}

theorem Fits.mem_opcodes {i : Instruction LabelId} (h : t.Fits i) : i.opcode ∈ t.opcodes := by
  cases t with
  | op o => exact List.mem_singleton.2 h
  | label l => exact h.elim
  | close owner => simpa [opcodes] using h.1
  | closeHelper => exact List.mem_singleton.2 h.1
  | _ =>
    obtain rfl : i = _ := h
    simp [opcodes]

theorem standsAt_iff (ht : t.IsInsn) : t.StandsAt c p q ↔ ∃ i, c.FirstInsn p q i ∧ t.Fits i := by
  cases t with
  | label l => exact ht.elim
  | _ => rfl

theorem StandsAt.of_le (h : t.StandsAt c p q) (ht : t.IsInsn) (hpp : p ≤ p') (hpq : p' ≤ q) :
    t.StandsAt c p' q := by
  obtain ⟨i, hi, hfits⟩ := (standsAt_iff ht).1 h
  exact (standsAt_iff ht).2 ⟨i, hi.of_le hpp hpq, hfits⟩

theorem StandsAt.le (h : t.StandsAt c p q) : p ≤ q := by
  cases t with
  | label l => exact h.1.ge
  | _ =>
    obtain ⟨i, hi, -⟩ := h
    exact hi.le

theorem StandsAt.lt_size (h : t.StandsAt c p q) : q < c.size := by
  cases t with
  | label l =>
    obtain ⟨rfl, hget⟩ := h
    by_contra hlt
    rw [(c.get?_eq_none_iff q).2 (by omega)] at hget
    cases hget
  | _ =>
    obtain ⟨i, hi, -⟩ := h
    exact hi.lt_size

theorem StandsAt.unique (h : t.StandsAt c p q) (h' : t.StandsAt c p q') : q = q' := by
  cases t with
  | label l => exact h.1.trans h'.1.symm
  | _ =>
    obtain ⟨i, hi, -⟩ := h
    obtain ⟨i', hi', -⟩ := h'
    exact (hi.unique hi').1

end Token

/-! ## Patterns -/

/-- From position `p` on, the code consists of the tokens; `q` is the position behind them. -/
inductive Reads (c : Code) : Nat → List Token → Nat → Prop
  | nil {p} : Reads c p [] p
  | cons {p q r t ts} : t.StandsAt c p q → Reads c (q + 1) ts r → Reads c p (t :: ts) r

/-- The instructions in front of position `s` at which one of the patterns starts. The very first
node of a body is not among them, since a search looks behind a node. -/
def Code.blocksBefore (c : Code) (patterns : Set (List Token)) (s : Nat) : Set Nat :=
  {f | 1 ≤ f ∧ f < s ∧ (∃ i, c.insn? f = some i) ∧ ∃ ts ∈ patterns, ∃ q, Reads c f ts q}

section

variable {c : Code} {p q q' r s : Nat} {t t' : Token} {xs ys ts : List Token}

@[simp] theorem reads_nil_iff : Reads c p [] q ↔ p = q := by
  constructor
  · intro h
    cases h
    rfl
  · rintro rfl
    exact .nil

theorem reads_cons_iff : Reads c p (t :: ts) r ↔ ∃ q, t.StandsAt c p q ∧ Reads c (q + 1) ts r := by
  constructor
  · intro h
    cases h with
    | cons hq hrest => exact ⟨_, hq, hrest⟩
  · rintro ⟨q, hq, hrest⟩
    exact .cons hq hrest

theorem reads_append_iff : Reads c p (xs ++ ys) r ↔ ∃ q, Reads c p xs q ∧ Reads c q ys r := by
  induction xs generalizing p with
  | nil => simp
  | cons x xs ih =>
    simp only [List.cons_append, reads_cons_iff, ih]
    constructor
    · rintro ⟨q, hq, m, hm, hrest⟩
      exact ⟨m, ⟨q, hq, hm⟩, hrest⟩
    · rintro ⟨m, ⟨q, hq, hm⟩, hrest⟩
      exact ⟨q, hq, m, hm, hrest⟩

/-- Where a pattern starts determines where it ends. -/
theorem Reads.unique (h : Reads c p ts q) (h' : Reads c p ts q') : q = q' := by
  induction h with
  | nil => exact reads_nil_iff.1 h'
  | cons hq _ ih =>
    obtain ⟨q', hq', hrest⟩ := reads_cons_iff.1 h'
    obtain rfl := hq.unique hq'
    exact ih hrest

theorem Reads.length_le (h : Reads c p ts q) : p + ts.length ≤ q := by
  induction h with
  | nil => simp
  | cons hq _ ih =>
    have := hq.le
    simp only [List.length_cons]
    omega

theorem Reads.le_size (h : Reads c p ts q) (hne : ts ≠ []) : q ≤ c.size := by
  induction h with
  | nil => exact absurd rfl hne
  | @cons p q r t ts hq hrest ih =>
    cases ts with
    | nil =>
      obtain rfl := reads_nil_iff.1 hrest
      exact hq.lt_size
    | cons t' ts => exact ih (by simp)

/-- There is a node behind the start of a pattern of two tokens or more. -/
theorem Reads.next?_eq_some (h : Reads c p ts q) (hlen : 2 ≤ ts.length) :
    c.next? p = some (p + 1) := by
  have hle := h.length_le
  have hsize := h.le_size (by
    rintro rfl
    simp at hlen)
  exact Code.next?_eq_some_iff.2 ⟨rfl, by omega⟩

/-- Two patterns read from one position start with the same instruction. -/
theorem Reads.head (h : Reads c p (t :: xs) q) (h' : Reads c p (t' :: ys) q')
    (ht : t.IsInsn) (ht' : t'.IsInsn) :
    ∃ m i, t.Fits i ∧ t'.Fits i ∧ Reads c (m + 1) xs q ∧ Reads c (m + 1) ys q' := by
  obtain ⟨m, hm, hrest⟩ := reads_cons_iff.1 h
  obtain ⟨m', hm', hrest'⟩ := reads_cons_iff.1 h'
  obtain ⟨i, hi, hfits⟩ := (Token.standsAt_iff ht).1 hm
  obtain ⟨i', hi', hfits'⟩ := (Token.standsAt_iff ht').1 hm'
  obtain ⟨rfl, rfl⟩ := hi.unique hi'
  exact ⟨m, i, hfits, hfits', hrest, hrest'⟩

/-- Patterns that start with different instructions are not read from one position. -/
theorem Reads.not_reads (h : Reads c p (t :: xs) q) (ht : t.IsInsn) (ht' : t'.IsInsn)
    (hdisjoint : ∀ o ∈ t.opcodes, o ∉ t'.opcodes) : ¬ Reads c p (t' :: ys) q' := by
  intro h'
  obtain ⟨m, i, hfits, hfits', -⟩ := h.head h' ht ht'
  exact hdisjoint _ hfits.mem_opcodes hfits'.mem_opcodes

/-- The last instruction of a pattern is the one right in front of the position behind it. -/
theorem Reads.last (h : Reads c p (ts ++ [t]) q) (ht : t.IsInsn) :
    ∃ i, c.insn? (q - 1) = some i ∧ t.Fits i := by
  obtain ⟨m, -, hlast⟩ := reads_append_iff.1 h
  obtain ⟨r, hr, hend⟩ := reads_cons_iff.1 hlast
  obtain rfl := reads_nil_iff.1 hend
  obtain ⟨i, hi, hfits⟩ := (Token.standsAt_iff ht).1 hr
  exact ⟨i, hi.insn?, hfits⟩

theorem next?_of_mem_blocksBefore {patterns : Set (List Token)}
    (h : p + 1 ∈ c.blocksBefore patterns s) : c.next? p = some (p + 1) := by
  obtain ⟨-, -, ⟨i, hi⟩, -⟩ := h
  exact Code.next?_eq_some_iff.2 ⟨rfl, (Code.FirstInsn.self hi).lt_size⟩

theorem exists_isGreatest_blocksBefore {patterns : Set (List Token)}
    (h : (c.blocksBefore patterns s).Nonempty) : ∃ f, IsGreatest (c.blocksBefore patterns s) f :=
  BddAbove.exists_isGreatest_of_nonempty ⟨s, fun _ hf => hf.2.1.le⟩ h

/-- A pattern of instructions that runs past position `s` has a first token behind `s`, and from
there on it is read from `s` as well: only markers lie between. -/
theorem Reads.cut (h : Reads c p ts q) (hinsn : ∀ t ∈ ts, t.IsInsn) (hps : p ≤ s) (hsq : s < q) :
    ∃ xs t ys, ts = xs ++ t :: ys ∧ Reads c s (t :: ys) q := by
  induction h with
  | nil => omega
  | @cons p m r t ts hm hrest ih =>
    rcases Nat.lt_or_ge m s with hlt | hge
    · obtain ⟨xs, t', ys, rfl, hcut⟩ := ih (fun t ht => hinsn t (List.mem_cons_of_mem _ ht)) hlt hsq
      exact ⟨t :: xs, t', ys, rfl, hcut⟩
    · have ht := hinsn t List.mem_cons_self
      exact ⟨[], t, ts, rfl, reads_cons_iff.2 ⟨m, hm.of_le ht hps hge, hrest⟩⟩

/-- A pattern that asks for no instruction like the first one from `s` on ends in front of it. -/
theorem Reads.le_of_notMem_opcodes {i : Instruction LabelId} {m : Nat} (h : Reads c p ts q)
    (hps : p ≤ s) (hi : c.FirstInsn s m i) (hts : ∀ t ∈ ts, t.IsInsn ∧ i.opcode ∉ t.opcodes) :
    q ≤ s := by
  by_contra hsq
  obtain ⟨xs, t, ys, rfl, hcut⟩ := h.cut (fun t ht => (hts t ht).1) hps (by omega)
  obtain ⟨hinsn, hnot⟩ := hts t (by simp)
  obtain ⟨m', hm', -⟩ := reads_cons_iff.1 hcut
  obtain ⟨i', hi', hfits⟩ := (Token.standsAt_iff hinsn).1 hm'
  obtain ⟨-, rfl⟩ := hi.unique hi'
  exact hnot hfits.mem_opcodes

/-! ## Repeated patterns -/

/-- Two patterns that ask for labels at the same places end at the same place. -/
theorem Reads.end_unique (h : Reads c p xs q)
    (h' : Reads c p ys q') (hsame : List.Forall₂ (fun x y => x.IsInsn ↔ y.IsInsn) xs ys) :
    q = q' := by
  induction hsame generalizing p with
  | nil => rw [← reads_nil_iff.1 h, ← reads_nil_iff.1 h']
  | @cons x y xs ys hxy _ ih =>
    obtain ⟨m, hm, hrest⟩ := reads_cons_iff.1 h
    obtain ⟨m', hm', hrest'⟩ := reads_cons_iff.1 h'
    have : m = m' := by
      cases x with
      | label l =>
        cases y with
        | label l' => exact hm.1.trans hm'.1.symm
        | _ => exact (hxy.2 trivial).elim
      | _ =>
        obtain ⟨j, hj, -⟩ := hm
        obtain ⟨j', hj', -⟩ := (Token.standsAt_iff (hxy.1 trivial)).1 hm'
        exact (hj.unique hj').1
    subst this
    exact ih hrest hrest'

/-- How often a piece of code is repeated is for the code to say, if what follows cannot be read as
the piece. -/
theorem eq_of_reads_flatMap {f g : Nat → List Token} {tail tail' : List Token} {i k k' : Nat}
    (hsame : ∀ i, List.Forall₂ (fun x y => x.IsInsn ↔ y.IsInsn) (f i) (g i))
    (hf : ∀ i p q q' rest, Reads c p (f i ++ rest) q → ¬ Reads c p tail' q')
    (hg : ∀ i p q q' rest, Reads c p (g i ++ rest) q → ¬ Reads c p tail q')
    (h : Reads c p ((List.range' i k).flatMap f ++ tail) q)
    (h' : Reads c p ((List.range' i k').flatMap g ++ tail') q') : k = k' := by
  induction k generalizing i p k' with
  | zero =>
    cases k' with
    | zero => rfl
    | succ k' =>
      rw [List.range'_succ, List.flatMap_cons, List.append_assoc] at h'
      exact absurd h (hg _ _ _ _ _ h')
  | succ k ih =>
    rw [List.range'_succ, List.flatMap_cons, List.append_assoc] at h
    cases k' with
    | zero => exact absurd h' (hf _ _ _ _ _ h)
    | succ k' =>
      rw [List.range'_succ, List.flatMap_cons, List.append_assoc] at h'
      obtain ⟨m, hm, hrest⟩ := reads_append_iff.1 h
      obtain ⟨m', hm', hrest'⟩ := reads_append_iff.1 h'
      obtain rfl := Reads.end_unique hm hm' (hsame i)
      rw [ih hrest hrest']

end

end TryResources
