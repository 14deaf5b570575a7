import TryResources.Proofs.Results
import TryResources.Proofs.Valuation

/-!
# Reading a template is reading a pattern

Under a valuation the steps of a template are the tokens of a code pattern. `reads_of_readAll` and
`readAll_of_reads` say that a template is read exactly where some valuation makes its pattern
stand. A step that looks for a label does not name it, so a template has to be `Grounded`: each
label is named before it is looked for.
-/

namespace TryResources.Matching

open Bindings

namespace Step

/-- The names that a step meets. -/
def names : Step → List Name
  | slot _ n => [.slot n]
  | jump _ n => [.label n]
  | close r => [.owner r]
  | _ => []

/-- The token that a step asks for when its names have values. -/
def token (v : Valuation) : Step → Token
  | op o => .op o
  | slot o n => .slot o (v (.slot n))
  | jump o n => .jump o (v (.label n))
  | label n => .label (v (.label n))
  | close r => .close (v (.owner r))
  | closeHelper => .closeHelper
  | addSuppressed => .addSuppressed

theorem isInsn_token {s : Step} {v : Valuation} (hs : ∀ n, s ≠ label n) : (s.token v).IsInsn := by
  cases s with
  | label n => exact absurd rfl (hs n)
  | _ => trivial

/-- Each label is among the `known` names, or named by a step, before it is looked for. -/
def Grounded (known : List Name) : List Step → Prop
  | [] => True
  | s :: steps => (∀ n, s = label n → .label n ∈ known) ∧ Grounded (known ++ s.names) steps

theorem Grounded.mono {known known' : List Name} {steps : List Step} (h : Grounded known steps)
    (hsub : known ⊆ known') : Grounded known' steps := by
  induction steps generalizing known known' with
  | nil => trivial
  | cons s steps ih =>
    obtain ⟨hlabel, hrest⟩ := h
    exact ⟨fun n hn => hsub (hlabel n hn), ih hrest (List.append_subset.2
      ⟨List.subset_append_of_subset_left _ hsub, List.subset_append_right _ _⟩)⟩

theorem Grounded.append {known : List Name} {xs ys : List Step} (hx : Grounded known xs)
    (hy : Grounded known ys) : Grounded known (xs ++ ys) := by
  induction xs generalizing known with
  | nil => exact hy
  | cons x xs ih =>
    exact ⟨hx.1, ih hx.2 (hy.mono (List.subset_append_left _ _))⟩

theorem Grounded.flatMap {α : Type} {known : List Name} {f : α → List Step}
    (h : ∀ a, Grounded known (f a)) (as : List α) : Grounded known (as.flatMap f) := by
  induction as with
  | nil => trivial
  | cons a as ih =>
    rw [List.flatMap_cons]
    exact (h a).append ih

/-! ## One step -/

variable {code : Code} {i : Instruction LabelId} {n : Node LabelId} {b b' : Bindings}
  {v : Valuation} {s : Step} {p q : Nat} {r : Reading}

theorem acceptsInsn_slot_iff {o : Opcode} {name : SlotName} :
    (slot o name).acceptsInsn i b = some b' ↔
      ∃ x : Slot, i = ⟨o, .slot x⟩ ∧ b.meet (.slot name) x = some b' := by
  obtain ⟨op, operand⟩ := i
  cases operand <;> by_cases ho : op = o <;>
    simp [acceptsInsn, Operand.slot?, meet, ho, Option.map_eq_some_iff, Option.bind_eq_some_iff]

theorem acceptsInsn_jump_iff {o : Opcode} {name : LabelName} :
    (jump o name).acceptsInsn i b = some b' ↔
      ∃ x : LabelId, i = ⟨o, .target x⟩ ∧ b.meet (.label name) x = some b' := by
  obtain ⟨op, operand⟩ := i
  cases operand <;> by_cases ho : op = o <;>
    simp [acceptsInsn, Operand.target?, meet, ho, Option.map_eq_some_iff, Option.bind_eq_some_iff]

theorem acceptsInsn_close_iff {resource : Resource} :
    (close resource).acceptsInsn i b = some b' ↔
      ∃ x : String, (Token.close x).Fits i ∧ b.meet (.owner resource) x = some b' := by
  obtain ⟨op, operand⟩ := i
  simp only [acceptsInsn, Token.Fits]
  by_cases hop : op = .invokevirtual ∨ op = .invokeinterface
  · rw [if_pos hop]
    cases operand with
    | member m =>
      obtain ⟨owner, name, desc⟩ := m
      by_cases hm : name = "close" ∧ desc = "()V" <;>
        simp [Operand.member?, Member.isClose, meet, hop, hm, Option.map_eq_some_iff,
          Option.bind_eq_some_iff]
    | _ => simp [Operand.member?]
  · simp [hop]

theorem acceptsInsn_op_iff {o : Opcode} :
    (op o).acceptsInsn i b = some b' ↔ (Token.op o).Fits i ∧ b = b' := by
  by_cases ho : i.opcode = o <;> simp [acceptsInsn, Token.Fits, ho]

theorem acceptsInsn_closeHelper_iff :
    closeHelper.acceptsInsn i b = some b' ↔ Token.closeHelper.Fits i ∧ b = b' := by
  obtain ⟨op, operand⟩ := i
  by_cases hop : op = .invokestatic
  · cases operand with
    | member m =>
      obtain ⟨owner, name, desc⟩ := m
      simp [acceptsInsn, Token.Fits, Operand.member?, Member.isCloseHelper, hop, and_assoc]
    | _ => simp [acceptsInsn, Token.Fits, Operand.member?]
  · simp [acceptsInsn, Token.Fits, hop]

theorem acceptsInsn_addSuppressed_iff :
    addSuppressed.acceptsInsn i b = some b' ↔ Token.addSuppressed.Fits i ∧ b = b' := by
  obtain ⟨op, operand⟩ := i
  by_cases hop : op = .invokevirtual
  · cases operand <;>
      simp [acceptsInsn, Token.Fits, Operand.member?, Member.isAddSuppressed, throwable, hop]
  · simp [acceptsInsn, Token.Fits, hop]

/-- An instruction that a step accepts fits its token, once the names that it meets stand for what
has been found. -/
theorem acceptsInsn_sound (h : s.acceptsInsn i b = some b') :
    b.Learns s.names b' ∧ ∀ v, b'.Agrees v → (s.token v).Fits i := by
  cases s with
  | slot o name =>
    obtain ⟨x, rfl, hx⟩ := acceptsInsn_slot_iff.1 h
    refine ⟨learns_of_meet hx, fun v hv => ?_⟩
    rw [token, hv _ x (meet_spec hx).1]
    rfl
  | jump o name =>
    obtain ⟨x, rfl, hx⟩ := acceptsInsn_jump_iff.1 h
    refine ⟨learns_of_meet hx, fun v hv => ?_⟩
    rw [token, hv _ x (meet_spec hx).1]
    rfl
  | close resource =>
    obtain ⟨x, hfits, hx⟩ := acceptsInsn_close_iff.1 h
    refine ⟨learns_of_meet hx, fun v hv => ?_⟩
    rw [token, hv _ x (meet_spec hx).1]
    exact hfits
  | op o =>
    obtain ⟨hfits, rfl⟩ := acceptsInsn_op_iff.1 h
    exact ⟨.refl b, fun v _ => hfits⟩
  | closeHelper =>
    obtain ⟨hfits, rfl⟩ := acceptsInsn_closeHelper_iff.1 h
    exact ⟨.refl b, fun v _ => hfits⟩
  | addSuppressed =>
    obtain ⟨hfits, rfl⟩ := acceptsInsn_addSuppressed_iff.1 h
    exact ⟨.refl b, fun v _ => hfits⟩
  | label name => simp [acceptsInsn] at h

theorem acceptsInsn_complete (hv : b.Agrees v) (h : (s.token v).Fits i) :
    ∃ b', s.acceptsInsn i b = some b' ∧ b'.Agrees v := by
  cases s with
  | slot o name =>
    obtain ⟨b', hb'⟩ := exists_meet (n := .slot name) fun y hy => (hv _ y hy).symm
    exact ⟨b', acceptsInsn_slot_iff.2 ⟨_, h, hb'⟩, agrees_of_meet hv hb' rfl⟩
  | jump o name =>
    obtain ⟨b', hb'⟩ := exists_meet (n := .label name) fun y hy => (hv _ y hy).symm
    exact ⟨b', acceptsInsn_jump_iff.2 ⟨_, h, hb'⟩, agrees_of_meet hv hb' rfl⟩
  | close resource =>
    obtain ⟨b', hb'⟩ := exists_meet (n := .owner resource) fun y hy => (hv _ y hy).symm
    exact ⟨b', acceptsInsn_close_iff.2 ⟨_, h, hb'⟩, agrees_of_meet hv hb' rfl⟩
  | op o => exact ⟨b, acceptsInsn_op_iff.2 ⟨h, rfl⟩, hv⟩
  | closeHelper => exact ⟨b, acceptsInsn_closeHelper_iff.2 ⟨h, rfl⟩, hv⟩
  | addSuppressed => exact ⟨b, acceptsInsn_addSuppressed_iff.2 ⟨h, rfl⟩, hv⟩
  | label name => exact h.elim

theorem read_eq_ok_iff :
    s.read code ⟨some p, b⟩ = .ok r ↔ ∃ q n b', s.target? code p = some q ∧
      code.get? q = some n ∧ s.accepts n b = some b' ∧ r = ⟨some q, b'⟩ := by
  unfold read
  cases hq : s.target? code p with
  | none => simp [hq]
  | some q =>
    cases hn : code.get? q with
    | none => simp [hq, hn]
    | some n =>
      cases hb : s.accepts n b with
      | none => simp [hq, hn, hb]
      | some b' => simp [hq, hn, hb, eq_comm]

/-- Where a step is carried out, its token stands, once the names that it meets stand for what has
been found. -/
theorem read_sound (h : s.read code ⟨some p, b⟩ = .ok r) :
    ∃ q b', r = ⟨some q, b'⟩ ∧ b.Learns s.names b' ∧
      ∀ v, b'.Agrees v → (s.token v).StandsAt code (p + 1) q := by
  obtain ⟨q, n, b', htarget, hget, haccepts, rfl⟩ := read_eq_ok_iff.1 h
  refine ⟨q, b', rfl, ?_⟩
  -- all steps but those for labels go to the next instruction
  have insn (s : Step) (htarget : code.nextInsn? p = some q) (haccepts : s.accepts n b = some b')
      (hs : ∀ name, s ≠ label name) : b.Learns s.names b' ∧
        ∀ v, b'.Agrees v → ∃ i, code.FirstInsn (p + 1) q i ∧ (s.token v).Fits i := by
    obtain ⟨i, hi⟩ := Code.nextInsn?_eq_some_iff.1 htarget
    rw [hi.get] at hget
    obtain rfl := Option.some.inj hget
    have hi' : s.acceptsInsn i b = some b' := by
      cases s with
      | label name => exact absurd rfl (hs name)
      | _ => exact haccepts
    obtain ⟨hlearns, hfits⟩ := acceptsInsn_sound hi'
    exact ⟨hlearns, fun v hv => ⟨i, hi, hfits v hv⟩⟩
  cases s with
  | label name =>
    have hq : q = p + 1 := by
      simp only [target?, Code.next?] at htarget
      split at htarget
      · exact (Option.some.inj htarget).symm
      · cases htarget
    cases n with
    | label l =>
      simp only [accepts] at haccepts
      split at haccepts
      · rename_i hl
        obtain rfl := Option.some.inj haccepts
        refine ⟨.refl b, fun v hv => ⟨hq, ?_⟩⟩
        rw [hv (.label name) l hl, ← hq, hget]
      · cases haccepts
    | insn i => simp [accepts, acceptsInsn] at haccepts
    | _ => simp [accepts] at haccepts
  | _ => exact insn _ htarget haccepts (by simp)

theorem read_complete (hv : b.Agrees v) (hlabel : ∀ n, s = label n → b.Knows (.label n))
    (h : (s.token v).StandsAt code (p + 1) q) :
    ∃ b', s.read code ⟨some p, b⟩ = .ok ⟨some q, b'⟩ ∧ b'.Agrees v := by
  cases s with
  | label name =>
    obtain ⟨rfl, hget⟩ := h
    obtain ⟨l, hl⟩ := hlabel name rfl
    have hlt : p + 1 < code.size := by
      by_contra hge
      rw [(code.get?_eq_none_iff _).2 (by omega)] at hget
      cases hget
    refine ⟨b, read_eq_ok_iff.2 ⟨p + 1, _, b, ?_, hget, ?_, rfl⟩, hv⟩
    · simp [target?, Code.next?, hlt]
    · rw [hv (.label name) l hl]
      exact if_pos hl
  | _ =>
    obtain ⟨i, hi, hfits⟩ := h
    obtain ⟨b', hb', hv'⟩ := acceptsInsn_complete hv hfits
    exact ⟨b', read_eq_ok_iff.2 ⟨q, _, b', Code.nextInsn?_eq_some_iff.2 ⟨i, hi⟩, hi.get, hb', rfl⟩,
      hv'⟩

end Step

/-! ## Templates -/

variable {code : Code} {b : Bindings} {v : Valuation} {steps xs ys : List Step} {p q : Nat}
  {r r' : Reading}

theorem readAll_append_eq_ok_iff : Step.readAll code (xs ++ ys) r = .ok r' ↔
    ∃ m, Step.readAll code xs r = .ok m ∧ Step.readAll code ys m = .ok r' := by
  rw [Step.readAll_append]
  exact bind_eq_ok_iff

/-- What is read is the pattern that the bindings at the end give. -/
theorem reads_of_readAll (h : Step.readAll code steps ⟨some p, b⟩ = .ok r) :
    ∃ q b', r = ⟨some q, b'⟩ ∧ b.Learns (steps.flatMap Step.names) b' ∧
      ∀ v, b'.Agrees v → Reads code (p + 1) (steps.map (Step.token v)) (q + 1) := by
  induction steps generalizing p b with
  | nil =>
    obtain rfl := Except.ok.inj h
    exact ⟨p, b, rfl, .refl b, fun v _ => .nil⟩
  | cons s steps ih =>
    rw [Step.readAll_cons] at h
    cases hs : s.read code ⟨some p, b⟩ with
    | error e =>
      rw [hs] at h
      cases h
    | ok r₁ =>
      rw [hs] at h
      obtain ⟨m, b₁, rfl, hlearns, hstands⟩ := Step.read_sound hs
      obtain ⟨q, b', rfl, hlearns', hreads⟩ := ih h
      refine ⟨q, b', rfl, hlearns.trans hlearns', ?_⟩
      intro v hv
      -- what the first step has met is still known at the end
      exact .cons (hstands v (hlearns'.agrees hv)) (hreads v hv)

/-- A pattern that stands in the code is read, if the bindings allow for its valuation. -/
theorem readAll_of_reads {known : List Name} (hg : Step.Grounded known steps)
    (hknown : ∀ n ∈ known, b.Knows n) (hv : b.Agrees v)
    (h : Reads code (p + 1) (steps.map (Step.token v)) (q + 1)) :
    ∃ b', Step.readAll code steps ⟨some p, b⟩ = .ok ⟨some q, b'⟩ ∧ b'.Agrees v := by
  induction steps generalizing p b known with
  | nil =>
    obtain rfl : p = q := by simpa using h
    exact ⟨b, rfl, hv⟩
  | cons s steps ih =>
    obtain ⟨m, hm, hrest⟩ := reads_cons_iff.1 h
    obtain ⟨b₁, hs, hv₁⟩ := Step.read_complete hv (fun n hn => hknown _ (hg.1 n hn)) hm
    -- the rest is grounded in what is known by now
    obtain ⟨m', b₁', hr, hlearns, -⟩ := Step.read_sound hs
    obtain ⟨rfl, rfl⟩ : m' = m ∧ b₁' = b₁ := by simpa [eq_comm] using hr
    have hknown₁ : ∀ n ∈ known ++ s.names, b₁'.Knows n := by
      intro n hn
      rw [hlearns.knows]
      exact (List.mem_append.1 hn).imp (hknown n) id
    obtain ⟨b', hb', hv'⟩ := ih hg.2 hknown₁ hv₁ hrest
    refine ⟨b', ?_, hv'⟩
    rw [Step.readAll_cons, hs]
    exact hb'

/-- Where a template is read, none is that cannot start at the same place. -/
theorem exists_error_of_readAll (hne : ys ≠ [])
    (hdisjoint : ∀ v v' p q q', Reads code p (xs.map (Step.token v)) q →
      ¬ Reads code p (ys.map (Step.token v')) q')
    (h : Step.readAll code xs r = .ok r') : ∃ e, Step.readAll code ys r = .error e := by
  cases hys : Step.readAll code ys r with
  | error e => exact ⟨e, rfl⟩
  | ok r₁ =>
    obtain ⟨p, -, hp, -⟩ := Step.advances_of_readAll hne hys
    obtain ⟨cursor, b⟩ := r
    obtain rfl : cursor = some p := hp
    obtain ⟨q, b₁, -, -, hreads⟩ := reads_of_readAll h
    obtain ⟨q', b₂, -, -, hreads'⟩ := reads_of_readAll hys
    exact absurd (hreads' _ b₂.agrees_complete) (hdisjoint _ _ _ _ _ (hreads _ b₁.agrees_complete))

end TryResources.Matching
