import TryResources.Proofs.Clash

/-!
# Nodes in a body

Code is laid out as a list of nodes, and a body holds many such lists one behind the other. What a
list consists of does not depend on where it stands, and a label that is defined once is found
wherever it is looked for.

* `Consists`, `Consists.reads`: where a body holds nodes that consist of some tokens, these tokens
  are read.
* `Code.Holds`, `Code.holds_append_iff`: a body holds nodes from a position on.
* `labelsOf`, `Code.Unambiguous.labelPosition?_eq`: where a label is, if none is defined twice.
-/

namespace TryResources

/-! ## What nodes consist of -/

/-- The nodes are those that the tokens ask for, each with any markers in front of it; but labels
that are asked for stand right where they are asked for. -/
def Consists : List Token → List (Node LabelId) → Prop
  | ts, [] => ts = []
  | [], _ :: _ => False
  | .label l :: ts, n :: ns => n = .label l ∧ Consists ts ns
  | t :: ts, .insn i :: ns => t.Fits i ∧ Consists ts ns
  | t :: ts, _ :: ns => Consists (t :: ts) ns

theorem Consists.append {xs ys : List Token} {ms ns : List (Node LabelId)} (hx : Consists xs ms)
    (hy : Consists ys ns) : Consists (xs ++ ys) (ms ++ ns) := by
  fun_induction Consists xs ms with
  | case1 ts => exact hx ▸ hy
  | case2 => exact hx.elim
  | case3 l ts n ms ih => exact ⟨hx.1, ih hx.2⟩
  | case4 t ts i ms ht ih =>
    simp only [List.cons_append, Consists]
    exact ⟨hx.1, ih hx.2⟩
  | case5 t ts n ms ht hn ih =>
    simp only [List.cons_append, Consists]
    exact ih hx

theorem Consists.flatMap {α : Type} {f : α → List Token} {g : α → List (Node LabelId)}
    {as : List α} (h : ∀ a ∈ as, Consists (f a) (g a)) :
    Consists (as.flatMap f) (as.flatMap g) := by
  induction as with
  | nil => rfl
  | cons a as ih =>
    rw [List.flatMap_cons, List.flatMap_cons]
    exact (h a List.mem_cons_self).append (ih fun b hb => h b (List.mem_cons_of_mem _ hb))

theorem Consists.of_marker {t : Token} {ts : List Token} {n : Node LabelId}
    {ns : List (Node LabelId)} (h : Consists (t :: ts) ns) (ht : t.IsInsn)
    (hn : n.isMarker = true) : Consists (t :: ts) (n :: ns) := by
  cases t with
  | label l => exact ht.elim
  | _ => cases n <;> first | exact h | cases hn

/-- Pieces may be set apart by markers, if each starts with an instruction. -/
theorem Consists.flatMap_append_marker {α : Type} {f : α → List Token}
    {g : α → List (Node LabelId)} {t : Token} {ts : List Token} {n : Node LabelId}
    {ns : List (Node LabelId)} (hfg : ∀ a, Consists (f a) (g a))
    (hf : ∀ a, ∃ t rest, f a = t :: rest ∧ t.IsInsn) (h : Consists (t :: ts) ns) (ht : t.IsInsn)
    (hn : n.isMarker = true) (as : List α) :
    Consists (as.flatMap f ++ t :: ts) (as.flatMap (fun a => g a ++ [n]) ++ ns) := by
  induction as with
  | nil => exact h
  | cons a as ih =>
    -- whatever comes behind a piece starts with an instruction, so the marker may be passed over
    obtain ⟨t', rest, hcons, ht'⟩ :
        ∃ t' rest, as.flatMap f ++ t :: ts = t' :: rest ∧ t'.IsInsn := by
      cases as with
      | nil => exact ⟨t, ts, rfl, ht⟩
      | cons b as =>
        obtain ⟨t', rest, hb, ht'⟩ := hf b
        refine ⟨t', rest ++ (as.flatMap f ++ t :: ts), ?_, ht'⟩
        rw [List.flatMap_cons, hb, List.append_assoc]
        rfl
    rw [hcons] at ih
    simp only [List.flatMap_cons, List.append_assoc, hcons]
    exact (hfg a).append (ih.of_marker ht' hn)

/-! ## The labels that nodes define -/

/-- The labels that nodes define. -/
def labelsOf {ℓ : Type} (ns : List (Node ℓ)) : List ℓ :=
  ns.filterMap Node.label?

section

variable {ℓ ℓ' : Type} (ms ns : List (Node ℓ))

@[simp] theorem labelsOf_nil : labelsOf ([] : List (Node ℓ)) = [] := rfl

@[simp] theorem labelsOf_label (l : ℓ) : labelsOf (.label l :: ns) = l :: labelsOf ns := rfl

@[simp] theorem labelsOf_line (k : Nat) : labelsOf (.line k :: ns) = labelsOf ns := rfl

@[simp] theorem labelsOf_frame : labelsOf (.frame :: ns) = labelsOf ns := rfl

@[simp] theorem labelsOf_insn (i : Instruction ℓ) : labelsOf (.insn i :: ns) = labelsOf ns := rfl

@[simp] theorem labelsOf_append : labelsOf (ms ++ ns) = labelsOf ms ++ labelsOf ns :=
  List.filterMap_append

@[simp] theorem labelsOf_flatMap (f : Nat → List (Node ℓ)) (is : List Nat) :
    labelsOf (is.flatMap f) = is.flatMap fun i => labelsOf (f i) :=
  List.filterMap_flatMap

theorem labelsOf_map (f : ℓ → ℓ') : labelsOf (ns.map (Node.map f)) = (labelsOf ns).map f := by
  induction ns with
  | nil => rfl
  | cons n ns ih => cases n <;> simp [Node.map, ih]

end

namespace Code

/-! ## Where nodes are -/

/-- From position `p` on, the body holds the nodes. -/
def Holds (c : Code) : Nat → List (Node LabelId) → Prop
  | _, [] => True
  | p, n :: ns => c.get? p = some n ∧ Holds c (p + 1) ns

variable {c : Code} {p q : Nat} {l : LabelId} {n : Node LabelId} {ms ns : List (Node LabelId)}

theorem holds_append_iff : c.Holds p (ms ++ ns) ↔ c.Holds p ms ∧ c.Holds (p + ms.length) ns := by
  induction ms generalizing p with
  | nil => simp [Holds]
  | cons m ms ih =>
    have hnext : p + 1 + ms.length = p + (ms.length + 1) := by omega
    simp only [List.cons_append, Holds, ih, List.length_cons, hnext, and_assoc]

theorem holds_ofList (pre ns post : List (Node LabelId)) :
    (ofList (pre ++ ns ++ post)).Holds pre.length ns := by
  induction ns generalizing pre with
  | nil => trivial
  | cons n ns ih =>
    refine ⟨by simp, ?_⟩
    simpa using ih (pre ++ [n])

/-- What is laid out somewhere among the nodes is held somewhere. -/
theorem Holds.exists_part (h : c.Holds p ns) (hpart : ms <:+: ns) : ∃ q, c.Holds q ms := by
  obtain ⟨pre, post, rfl⟩ := hpart
  exact ⟨_, (holds_append_iff.1 (holds_append_iff.1 h).1).2⟩

theorem Holds.exists_of_flatMap {α : Type} {as : List α} {a : α} {f : α → List (Node LabelId)}
    (h : c.Holds p (as.flatMap f)) (ha : a ∈ as) : ∃ q, c.Holds q (f a) :=
  h.exists_part (List.flatMap_def ▸ List.infix_of_mem_flatten (List.mem_map_of_mem ha))

/-! ## Where labels are -/

/-- No label is defined twice. -/
def Unambiguous (c : Code) : Prop :=
  ∀ p q l, c.get? p = some (.label l) → c.get? q = some (.label l) → p = q

theorem unambiguous_ofList (h : (labelsOf ns).Nodup) : (ofList ns).Unambiguous := by
  have hpairwise := List.pairwise_iff_getElem.1 (List.pairwise_filterMap.1 h)
  have not_lt {p q : Nat} {l : LabelId} (hp : ns[p]? = some (.label l))
      (hq : ns[q]? = some (.label l)) : ¬ p < q := by
    intro hpq
    obtain ⟨hp', hp⟩ := List.getElem?_eq_some_iff.1 hp
    obtain ⟨hq', hq⟩ := List.getElem?_eq_some_iff.1 hq
    exact hpairwise p q hp' hq' hpq l (by rw [hp]; rfl) l (by rw [hq]; rfl) rfl
  intro p q l hp hq
  rw [get?_ofList] at hp hq
  have := not_lt hp hq
  have := not_lt hq hp
  omega

theorem Unambiguous.labelPosition?_eq (h : c.Unambiguous) (hp : c.get? p = some (.label l)) :
    c.labelPosition? l = some p := by
  cases hfound : c.labelPosition? l with
  | none =>
    -- a search that fails has been at `p`
    have hlt : p < c.size := by
      by_contra hge
      rw [(c.get?_eq_none_iff p).2 (by omega)] at hp
      cases hp
    have hnot := List.find?_eq_none.1 hfound p (by simpa using hlt)
    simp [hp] at hnot
  | some q => rw [h q p l (get?_of_labelPosition? hfound) hp]

end Code

variable {c : Code} {p q : Nat} {t : Token} {n : Node LabelId} {ts : List Token}
  {ns : List (Node LabelId)}

/-- Markers in front of an instruction do not matter. -/
theorem Token.StandsAt.of_marker (h : t.StandsAt c (p + 1) q) (ht : t.IsInsn)
    (hn : c.get? p = some n) (hmarker : n.isMarker = true) : t.StandsAt c p q := by
  obtain ⟨i, hi, hfits⟩ := (standsAt_iff ht).1 h
  have hle := hi.le
  refine (standsAt_iff ht).2 ⟨i, ⟨by omega, hi.get, fun r hpr hrq => ?_⟩, hfits⟩
  rcases Nat.eq_or_lt_of_le hpr with rfl | hlt
  · exact ⟨n, hn, hmarker⟩
  · exact hi.markers r hlt hrq

/-- Where a body holds nodes, what they consist of is read. -/
theorem Consists.reads (h : Consists ts ns) (hns : c.Holds p ns) :
    Reads c p ts (p + ns.length) := by
  fun_induction Consists ts ns generalizing p with
  | case1 ts =>
    rw [show ts = [] from h]
    exact .nil
  | case2 => exact h.elim
  | case3 l ts n ns ih =>
    obtain ⟨rfl, hrest⟩ := h
    have hread := ih hrest hns.2
    rw [Nat.add_right_comm] at hread
    exact .cons ⟨rfl, hns.1⟩ hread
  | case4 t ts i ns ht ih =>
    have hread := ih h.2 hns.2
    rw [Nat.add_right_comm] at hread
    exact .cons ((Token.standsAt_iff (Token.isInsn_of_ne ht)).2
      ⟨i, .self (Code.insn?_eq_some_iff.2 hns.1), h.1⟩) hread
  | case5 t ts n ns ht hn ih =>
    obtain ⟨m, hm, hrest⟩ := reads_cons_iff.1 (ih h hns.2)
    rw [Nat.add_right_comm] at hrest
    have hmarker : n.isMarker = true := by
      cases n with
      | insn i => exact absurd rfl (hn i)
      | _ => rfl
    exact .cons (hm.of_marker (Token.isInsn_of_ne ht) hns.1 hmarker) hrest

end TryResources
