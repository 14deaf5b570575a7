import Mathlib.Order.Bounds.Image
import TryResources.Method.Builder
import TryResources.Proofs.Reads

/-!
# Markers put between nodes

Compilers put line numbers, stack map frames and labels between the nodes of a body as they like.
A `Padding` says which of them come in front of each node; the nodes themselves stay, further apart
and in the same order. Instructions are found as before. A label is looked for right where the code
stands, so it may be missed behind a marker that is put in front of it.

* `getElem?_weave`, `strictMono_shift`: elements of a list keep their order and go to their places.
* `Leads`: walking on from a position leads to a node past nothing but padding.
* `Reads.pad`, `Reads.of_pad`: patterns are read as before, in both directions.
* `blocksBefore_pad`: so are the blocks in front of a position.
-/

namespace TryResources

/-! ## Lists -/

section

variable {α : Type}

/-- A list with others put in: `gap p` comes in front of the element at place `p`, or behind the
last one if `p` is their number. -/
def weave (gap : Nat → List α) : List α → List α
  | [] => gap 0
  | a :: as => gap 0 ++ a :: weave (fun p => gap (p + 1)) as

/-- Where the element at place `p` goes. -/
def shift (gap : Nat → List α) : Nat → Nat
  | 0 => (gap 0).length
  | p + 1 => (gap 0).length + 1 + shift (fun p => gap (p + 1)) p

variable {gap : Nat → List α} {as : List α} {a : α} {p q : Nat}

theorem shift_succ (gap : Nat → List α) (p : Nat) :
    shift gap (p + 1) = shift gap p + 1 + (gap (p + 1)).length := by
  induction p generalizing gap with
  | zero => simp [shift]
  | succ p ih =>
    rw [shift, ih]
    simp only [shift]
    omega

theorem strictMono_shift (gap : Nat → List α) : StrictMono (shift gap) := by
  apply strictMono_nat_of_lt_succ
  intro p
  rw [shift_succ]
  omega

/-- Elements go to their places. -/
theorem getElem?_weave (gap : Nat → List α) (as : List α) (p : Nat) :
    (weave gap as)[shift gap p]? = as[p]? := by
  induction as generalizing gap p with
  | nil =>
    -- the place behind the last element is behind all that is put in
    have hle : (gap 0).length ≤ shift gap p := (strictMono_shift gap).monotone (Nat.zero_le p)
    rw [weave, List.getElem?_eq_none hle, List.getElem?_nil]
  | cons a as ih =>
    cases p with
    | zero =>
      rw [weave, shift, List.getElem?_append_right (Nat.le_refl _), Nat.sub_self,
        List.getElem?_cons_zero, List.getElem?_cons_zero]
    | succ p =>
      have hindex : (gap 0).length + 1 + shift (fun p => gap (p + 1)) p - (gap 0).length =
          shift (fun p => gap (p + 1)) p + 1 := by omega
      rw [weave, shift, List.getElem?_append_right (by omega), hindex, List.getElem?_cons_succ, ih,
        List.getElem?_cons_succ]

/-- Each element of the longer list is an element of the shorter one at its place, or put in. -/
theorem exists_of_getElem?_weave (h : (weave gap as)[q]? = some a) :
    (∃ p, shift gap p = q ∧ as[p]? = some a) ∨ ∃ p, a ∈ gap p := by
  induction as generalizing gap q with
  | nil =>
    right
    exact ⟨0, List.mem_of_getElem? h⟩
  | cons b as ih =>
    rw [weave] at h
    rcases Nat.lt_or_ge q (gap 0).length with hlt | hge
    · right
      rw [List.getElem?_append_left hlt] at h
      exact ⟨0, List.mem_of_getElem? h⟩
    · rw [List.getElem?_append_right hge] at h
      cases hindex : q - (gap 0).length with
      | zero =>
        left
        rw [hindex, List.getElem?_cons_zero] at h
        refine ⟨0, ?_, h⟩
        rw [shift]
        omega
      | succ k =>
        rw [hindex, List.getElem?_cons_succ] at h
        rcases ih h with ⟨p, hp, ha⟩ | ⟨p, ha⟩
        · left
          refine ⟨p + 1, ?_, ha⟩
          rw [shift, hp]
          omega
        · right
          exact ⟨p + 1, ha⟩

end

/-! ## Bodies -/

/-- Markers to put between the nodes of a body: those of `gap p` in front of the node at position
`p`, or behind the last one. None comes in front of the first node. -/
structure Padding where
  gap : Nat → List (Node LabelId)
  isMarker : ∀ p, ∀ n ∈ gap p, n.isMarker = true
  zero : gap 0 = []

/-- Where the node at position `p` goes. -/
def Padding.place (g : Padding) (p : Nat) : Nat :=
  shift g.gap p

/-- A body with markers put between its nodes. -/
def Code.pad (g : Padding) (c : Code) : Code :=
  .ofList (weave g.gap c.nodes.toList)

namespace Padding

variable {g : Padding} {p : Nat}

theorem strictMono_place (g : Padding) : StrictMono g.place :=
  strictMono_shift g.gap

@[simp] theorem place_zero (g : Padding) : g.place 0 = 0 := by
  rw [place, shift, g.zero, List.length_nil]

theorem place_succ (g : Padding) (p : Nat) :
    g.place (p + 1) = g.place p + 1 + (g.gap (p + 1)).length :=
  shift_succ g.gap p

/-- Nothing is put in front of a label. -/
def KeepsLabels (g : Padding) (c : Code) : Prop :=
  ∀ p l, c.get? p = some (.label l) → g.gap p = []

/-- The labels that are put in are mentioned nowhere in the body. -/
def Fresh (g : Padding) (c : Code) : Prop :=
  ∀ p l, .label l ∈ g.gap p → ∀ q n, c.get? q = some n → l ∉ n.labels

end Padding

/-- Walking on from position `p'` leads to where the node at position `p` goes, past nothing but
padding. -/
structure Leads (g : Padding) (p p' : Nat) : Prop where
  le : p' ≤ g.place p
  gt : ∀ r < p, g.place r < p'

variable {c : Code} {g : Padding} {p p' q q' s : Nat} {n : Node LabelId}
  {i : Instruction LabelId} {t : Token} {ts : List Token}

namespace Code

theorem get?_pad (g : Padding) (c : Code) (p : Nat) : (c.pad g).get? (g.place p) = c.get? p := by
  rw [pad, get?_ofList, Padding.place, getElem?_weave, Array.getElem?_toList]
  rfl

/-- A node of the padded body has been there before, or is padding. -/
theorem exists_of_get?_pad (h : (c.pad g).get? q = some n) :
    (∃ p, g.place p = q ∧ c.get? p = some n) ∨ ∃ p, n ∈ g.gap p := by
  rw [pad, get?_ofList] at h
  rcases exists_of_getElem?_weave h with ⟨p, hp, hn⟩ | hn
  · left
    rw [Array.getElem?_toList] at hn
    exact ⟨p, hp, hn⟩
  · right
    exact hn

/-- No instruction is padding. -/
theorem exists_of_get?_pad_insn (h : (c.pad g).get? q = some (.insn i)) :
    ∃ p, g.place p = q ∧ c.get? p = some (.insn i) := by
  rcases exists_of_get?_pad h with hp | ⟨k, hk⟩
  · exact hp
  · have hmarker := g.isMarker k _ hk
    cases hmarker

end Code

theorem leads_place (g : Padding) (p : Nat) : Leads g p (g.place p) :=
  ⟨Nat.le_refl _, fun _ hr => g.strictMono_place hr⟩

/-- Right behind a node, walking on leads to the next one. -/
theorem leads_succ (g : Padding) (p : Nat) : Leads g (p + 1) (g.place p + 1) := by
  constructor
  · rw [g.place_succ]
    omega
  · intro r hr
    have := g.strictMono_place.monotone (Nat.le_of_lt_succ hr)
    omega

/-- Where there is no padding, there is no way to walk. -/
theorem Leads.eq_place (h : Leads g p p') (hnil : g.gap p = []) : p' = g.place p := by
  have hle := h.le
  cases p with
  | zero =>
    rw [g.place_zero] at hle ⊢
    omega
  | succ p =>
    have hgt := h.gt p (Nat.lt_succ_self p)
    rw [g.place_succ, hnil, List.length_nil] at hle ⊢
    omega

/-- From where walking leads to `p`, all nodes before `p` have been passed. -/
theorem Leads.le_of_le_place (h : Leads g p p') (hq : p' ≤ g.place q) : p ≤ q := by
  by_contra hlt
  have := h.gt q (by omega)
  omega

/-! ## Instructions and patterns -/

theorem Code.FirstInsn.pad (h : c.FirstInsn p q i) (hp : Leads g p p') :
    (c.pad g).FirstInsn p' (g.place q) i := by
  have hget : (c.pad g).get? (g.place q) = some (.insn i) := (get?_pad g c q).trans h.get
  have hlt := (FirstInsn.self (insn?_eq_some_iff.2 hget)).lt_size
  refine ⟨Nat.le_trans hp.le (g.strictMono_place.monotone h.le), hget, ?_⟩
  intro r hpr hrq
  cases hr : (c.pad g).get? r with
  | none =>
    have := ((c.pad g).get?_eq_none_iff r).1 hr
    omega
  | some n =>
    refine ⟨n, rfl, ?_⟩
    rcases exists_of_get?_pad hr with ⟨k, rfl, hn⟩ | ⟨k, hn⟩
    · -- a node that was there before lies between `p` and `q`
      have hpk := hp.le_of_le_place hpr
      have hkq := g.strictMono_place.lt_iff_lt.1 hrq
      obtain ⟨n', hn', hmarker⟩ := h.markers k hpk hkq
      rw [hn] at hn'
      obtain rfl := Option.some.inj hn'
      exact hmarker
    · exact g.isMarker k n hn

theorem Code.FirstInsn.of_pad (h : (c.pad g).FirstInsn p' q' i) (hp : Leads g p p') :
    ∃ q, q' = g.place q ∧ c.FirstInsn p q i := by
  obtain ⟨q, rfl, hi⟩ := exists_of_get?_pad_insn h.get
  refine ⟨q, rfl, hp.le_of_le_place h.le, hi, ?_⟩
  intro r hpr hrq
  have hle := g.strictMono_place.monotone hpr
  have hmarker := h.markers (g.place r) (Nat.le_trans hp.le hle) (g.strictMono_place hrq)
  rw [get?_pad] at hmarker
  exact hmarker

theorem Token.StandsAt.pad (h : t.StandsAt c p q) (hp : Leads g p p')
    (ht : t.IsInsn ∨ g.KeepsLabels c) : t.StandsAt (c.pad g) p' (g.place q) := by
  cases t with
  | label l =>
    obtain ⟨rfl, hget⟩ := h
    have hnil : g.gap q = [] := ht.elim (fun h => h.elim) fun hkeeps => hkeeps q l hget
    rw [hp.eq_place hnil]
    exact ⟨rfl, (Code.get?_pad g c q).trans hget⟩
  | _ =>
    obtain ⟨i, hi, hfits⟩ := h
    exact ⟨i, hi.pad hp, hfits⟩

theorem Token.StandsAt.of_pad (h : t.StandsAt (c.pad g) p' q') (hp : Leads g p p')
    (ht : ∀ l, t = .label l → ∀ k, .label l ∉ g.gap k) :
    ∃ q, q' = g.place q ∧ t.StandsAt c p q := by
  cases t with
  | label l =>
    obtain ⟨rfl, hget⟩ := h
    rcases Code.exists_of_get?_pad hget with ⟨k, rfl, hk⟩ | ⟨k, hk⟩
    · -- the label was there before, and it is the next node that was
      have hpk := hp.le_of_le_place (Nat.le_refl _)
      have hkp := g.strictMono_place.le_iff_le.1 hp.le
      obtain rfl : k = p := by omega
      exact ⟨k, rfl, rfl, hk⟩
    · exact absurd hk (ht l rfl k)
  | _ =>
    obtain ⟨i, hi, hfits⟩ := h
    obtain ⟨q, rfl, hbefore⟩ := hi.of_pad hp
    exact ⟨q, rfl, i, hbefore, hfits⟩

/-- A pattern is read in the padded body, if it asks for no label or nothing is put in front of
labels. -/
theorem Reads.pad (h : Reads c p ts q) (hp : Leads g p p')
    (hts : (∀ t ∈ ts, t.IsInsn) ∨ g.KeepsLabels c) (hne : ts ≠ []) :
    ∃ m, q = m + 1 ∧ Reads (c.pad g) p' ts (g.place m + 1) := by
  induction h generalizing p' with
  | nil => exact absurd rfl hne
  | @cons p m r t ts hm hrest ih =>
    have hfirst := hm.pad hp (hts.imp_left fun h => h t List.mem_cons_self)
    cases ts with
    | nil =>
      obtain rfl := reads_nil_iff.1 hrest
      exact ⟨m, rfl, .cons hfirst .nil⟩
    | cons t' ts =>
      obtain ⟨k, hk, hrest'⟩ := ih (leads_succ g m)
        (hts.imp_left fun h t ht => h t (List.mem_cons_of_mem _ ht)) (by simp)
      exact ⟨k, hk, .cons hfirst hrest'⟩

theorem Reads.pad_last {l : Nat} (h : Reads c p ts (l + 1)) (hp : Leads g p p')
    (hts : (∀ t ∈ ts, t.IsInsn) ∨ g.KeepsLabels c) (hne : ts ≠ []) :
    Reads (c.pad g) p' ts (g.place l + 1) := by
  obtain ⟨m, hm, hread⟩ := h.pad hp hts hne
  obtain rfl := Nat.succ.inj hm
  exact hread

/-- A pattern that is read in the padded body was read before, if none of the labels that it asks
for is padding. -/
theorem Reads.of_pad (h : Reads (c.pad g) p' ts q') (hp : Leads g p p')
    (hts : ∀ l, .label l ∈ ts → ∀ k, .label l ∉ g.gap k) (hne : ts ≠ []) :
    ∃ m, q' = g.place m + 1 ∧ Reads c p ts (m + 1) := by
  generalize hc : c.pad g = c' at h
  induction h generalizing p with
  | nil => exact absurd rfl hne
  | @cons p' m' r t ts hm hrest ih =>
    subst hc
    obtain ⟨m, rfl, hfirst⟩ := hm.of_pad hp (by
      intro l hl
      exact hts l (hl ▸ List.mem_cons_self))
    cases ts with
    | nil =>
      obtain rfl := reads_nil_iff.1 hrest
      exact ⟨m, rfl, .cons hfirst .nil⟩
    | cons t' ts =>
      obtain ⟨k, hk, hrest'⟩ := ih (leads_succ g m)
        (fun l hl => hts l (List.mem_cons_of_mem _ hl)) (by simp)
      exact ⟨k, hk, .cons hfirst hrest'⟩

/-- A pattern that asks for no label was read before. -/
theorem Reads.of_pad_insn (h : Reads (c.pad g) p' ts q') (hp : Leads g p p')
    (hts : ∀ t ∈ ts, t.IsInsn) (hne : ts ≠ []) :
    ∃ m, q' = g.place m + 1 ∧ Reads c p ts (m + 1) :=
  h.of_pad hp (fun _ hl => (hts _ hl).elim) hne

/-! ## Labels that jumps name -/

/-- Each label that a pattern asks for is the target of a jump that it asks for. -/
def Aimed (ts : List Token) : Prop :=
  ∀ l, .label l ∈ ts → ∃ o, .jump o l ∈ ts

theorem Aimed.append {xs ys : List Token} (hx : Aimed xs) (hy : Aimed ys) : Aimed (xs ++ ys) := by
  intro l hl
  rcases List.mem_append.1 hl with hl | hl
  · obtain ⟨o, ho⟩ := hx l hl
    exact ⟨o, List.mem_append_left _ ho⟩
  · obtain ⟨o, ho⟩ := hy l hl
    exact ⟨o, List.mem_append_right _ ho⟩

theorem Aimed.flatMap {f : Nat → List Token} (hf : ∀ i, Aimed (f i)) (is : List Nat) :
    Aimed (is.flatMap f) := by
  intro l hl
  obtain ⟨i, hi, hl⟩ := List.mem_flatMap.1 hl
  obtain ⟨o, ho⟩ := hf i l hl
  exact ⟨o, List.mem_flatMap.2 ⟨i, hi, ho⟩⟩

theorem aimed_of_isInsn (h : ∀ t ∈ ts, t.IsInsn) : Aimed ts :=
  fun _ hl => (h _ hl).elim

theorem Reads.exists_standsAt (h : Reads c p ts q) (ht : t ∈ ts) :
    ∃ p q, t.StandsAt c p q := by
  induction h with
  | nil => cases ht
  | cons hm _ ih =>
    rcases List.mem_cons.1 ht with rfl | ht
    · exact ⟨_, _, hm⟩
    · exact ih ht

/-- Jumps are no padding, so where a pattern is read, the labels that its jumps name are none. -/
theorem Reads.notMem_gap (h : Reads (c.pad g) p' ts q') (hts : Aimed ts) (hfresh : g.Fresh c) :
    ∀ l, .label l ∈ ts → ∀ k, .label l ∉ g.gap k := by
  intro l hl k hk
  obtain ⟨o, ho⟩ := hts l hl
  obtain ⟨_, m, i, hi, hfits⟩ := h.exists_standsAt ho
  obtain rfl : i = ⟨o, .target l⟩ := hfits
  obtain ⟨r, -, hr⟩ := Code.exists_of_get?_pad_insn hi.get
  exact hfresh k l hk r _ hr (by simp [Node.labels])

/-! ## Blocks in front of a position -/

/-- The blocks in front of a position go where their first instructions go. -/
theorem blocksBefore_pad {patterns : Set (List Token)}
    (hpatterns : ∀ ts ∈ patterns, ts ≠ [] ∧ ∀ t ∈ ts, t.IsInsn) (s : Nat) :
    (c.pad g).blocksBefore patterns (g.place s) = g.place '' c.blocksBefore patterns s := by
  have hpos (f : Nat) : 1 ≤ g.place f ↔ 1 ≤ f := by
    have := g.strictMono_place.lt_iff_lt (a := 0) (b := f)
    rw [g.place_zero] at this
    exact this
  ext f'
  constructor
  · intro h
    obtain ⟨hpos', hlt, ⟨i, hi⟩, ts, hts, q', hread⟩ := h
    obtain ⟨hne, hinsn⟩ := hpatterns ts hts
    obtain ⟨f, rfl, hf⟩ := Code.exists_of_get?_pad_insn (Code.insn?_eq_some_iff.1 hi)
    obtain ⟨m, -, hread⟩ := hread.of_pad_insn (leads_place g f) hinsn hne
    exact ⟨f, ⟨(hpos f).1 hpos', g.strictMono_place.lt_iff_lt.1 hlt,
      ⟨i, Code.insn?_eq_some_iff.2 hf⟩, ts, hts, _, hread⟩, rfl⟩
  · intro h
    obtain ⟨f, ⟨hpos', hlt, ⟨i, hi⟩, ts, hts, q, hread⟩, rfl⟩ := h
    obtain ⟨hne, hinsn⟩ := hpatterns ts hts
    obtain ⟨m, -, hread⟩ := hread.pad (leads_place g f) (.inl hinsn) hne
    refine ⟨(hpos f).2 hpos', g.strictMono_place hlt, ⟨i, ?_⟩, ts, hts, _, hread⟩
    rw [Code.insn?_eq_some_iff, Code.get?_pad]
    exact Code.insn?_eq_some_iff.1 hi

/-- So the last block goes where its first instruction goes. -/
theorem isGreatest_pad_iff {patterns : Set (List Token)}
    (hpatterns : ∀ ts ∈ patterns, ts ≠ [] ∧ ∀ t ∈ ts, t.IsInsn) {f' : Nat} :
    IsGreatest ((c.pad g).blocksBefore patterns (g.place s)) f' ↔
      ∃ f, f' = g.place f ∧ IsGreatest (c.blocksBefore patterns s) f := by
  rw [blocksBefore_pad hpatterns]
  constructor
  · intro h
    obtain ⟨f, -, rfl⟩ := h.1
    exact ⟨f, rfl, g.strictMono_place.map_isGreatest.1 h⟩
  · intro h
    obtain ⟨f, rfl, hf⟩ := h
    exact g.strictMono_place.map_isGreatest.2 hf

end TryResources
