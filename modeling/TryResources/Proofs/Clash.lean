import TryResources.Proofs.Reads

/-!
# Patterns that part

Two patterns that ask for different instructions at some place cannot both be read from one
position. `clash` finds such a place, token by token; it does not ask for the values of variables
and labels unless it has to, so it mostly computes on patterns whose variables are unknown.

* `Reads.not_reads_of_clash`: patterns that clash are not read from one position.
* `Reads.not_reads_of_absent`: where some tokens are read, no pattern starts that clashes with all
  that is left of them there.
* `isGreatest_blocksBefore`: so a block is the last before a position if it is absent from what
  follows up to there.
-/

namespace TryResources

/-! ## Tokens -/

/-- No instruction is one that both tokens ask for. -/
def Token.apart : Token → Token → Bool
  | slot o x, slot o' x' => o != o' || x != x'
  | t, u => t.opcodes.all fun o => !u.opcodes.contains o

theorem Token.isInsn_of_ne {t : Token} (h : ∀ l, t ≠ label l) : t.IsInsn := by
  cases t with
  | label l => exact absurd rfl (h l)
  | _ => trivial

theorem Token.not_fits_of_apart {t u : Token} {i : Instruction LabelId} (h : t.apart u = true)
    (ht : t.Fits i) : ¬ u.Fits i := by
  intro hu
  have hopcodes (h : (t.opcodes.all fun o => !u.opcodes.contains o) = true) : False := by
    have := List.all_eq_true.1 h i.opcode ht.mem_opcodes
    simp [hu.mem_opcodes] at this
  cases t with
  | slot o x =>
    cases u with
    | slot o' x' =>
      obtain rfl : i = ⟨o, .slot x⟩ := ht
      have hsame : o = o' ∧ x = x' := by simpa [Fits] using hu
      simp [apart, hsame] at h
    | _ => exact hopcodes h
  | _ => exact hopcodes h

/-! ## Patterns -/

/-- The patterns part at some token. They are compared for as long as both ask for instructions, or
both for labels: a label is looked for right where the pattern stands, an instruction behind any
markers. -/
def clash : List Token → List Token → Bool
  | .label _ :: xs, .label _ :: ys => clash xs ys
  | .label _ :: _, _ => false
  | _, .label _ :: _ => false
  | x :: xs, y :: ys => x.apart y || clash xs ys
  | _, _ => false

/-- The pattern clashes with every rest of the tokens: it starts at none of them. -/
def absent (pattern : List Token) : List Token → Bool
  | [] => true
  | t :: ts => clash (t :: ts) pattern && absent pattern ts

variable {c : Code} {p q q' f r s : Nat} {t : Token} {xs ys ts pattern : List Token}

/-- Patterns that clash are not read from one position. -/
theorem Reads.not_reads_of_clash (hclash : clash xs ys = true) (h : Reads c p xs q) :
    ¬ Reads c p ys q' := by
  intro h'
  fun_induction clash xs ys generalizing p with
  | case1 l xs l' ys ih =>
    obtain ⟨m, ⟨rfl, -⟩, hrest⟩ := reads_cons_iff.1 h
    obtain ⟨m', ⟨rfl, -⟩, hrest'⟩ := reads_cons_iff.1 h'
    exact ih hclash hrest hrest'
  | case4 x xs y ys _ hx hy ih =>
    obtain ⟨m, i, hfits, hfits', hrest, hrest'⟩ :=
      h.head h' (Token.isInsn_of_ne hx) (Token.isInsn_of_ne hy)
    rcases Bool.or_eq_true_iff.1 hclash with hapart | hclash
    · exact Token.not_fits_of_apart hapart hfits hfits'
    · exact ih hclash hrest hrest'
  | _ => cases hclash

theorem clash_of_absent (h : absent pattern (xs ++ t :: ts) = true) :
    clash (t :: ts) pattern = true := by
  induction xs with
  | nil => exact (Bool.and_eq_true_iff.1 h).1
  | cons x xs ih => exact ih (Bool.and_eq_true_iff.1 h).2

/-- A pattern starts nowhere among tokens that it is absent from. -/
theorem Reads.not_reads_of_absent (habsent : absent pattern ts = true) (h : Reads c p ts q)
    (hinsn : ∀ t ∈ ts, t.IsInsn) (hpf : p ≤ f) (hfq : f < q) : ¬ Reads c f pattern r := by
  obtain ⟨xs, t, ys, rfl, hcut⟩ := h.cut hinsn hpf hfq
  exact hcut.not_reads_of_clash (clash_of_absent habsent)

/-- A block is the last in front of a position if, from its second token on, none starts up to
there. -/
theorem isGreatest_blocksBefore {patterns : Set (List Token)} (h : Reads c f (t :: ts) s)
    (hinsn : ∀ t' ∈ t :: ts, t'.IsInsn) (habsent : ∀ ys ∈ patterns, absent ys ts = true)
    (hpos : 1 ≤ f) (hf : ∃ i, c.insn? f = some i) (hblock : ∃ ys ∈ patterns, ∃ q, Reads c f ys q) :
    IsGreatest (c.blocksBefore patterns s) f := by
  have hlen := h.length_le
  simp only [List.length_cons] at hlen
  refine ⟨⟨hpos, by omega, hf, hblock⟩, ?_⟩
  rintro g ⟨-, hgs, -, ys, hys, q, hreads⟩
  by_contra hfg
  -- the first token is at `f` itself, and all others behind it
  obtain ⟨i, hi⟩ := hf
  obtain ⟨m, hm, hrest⟩ := reads_cons_iff.1 h
  obtain ⟨i', hi', -⟩ := (Token.standsAt_iff (hinsn t List.mem_cons_self)).1 hm
  obtain ⟨rfl, -⟩ := (Code.FirstInsn.self hi).unique hi'
  exact hrest.not_reads_of_absent (habsent ys hys)
    (fun t' ht' => hinsn t' (List.mem_cons_of_mem _ ht')) (by omega) hgs hreads

end TryResources
