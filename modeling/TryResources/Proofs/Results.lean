import Mathlib.Data.List.Forall2
import Mathlib.Data.List.Induction

/-!
# Results in order

What comes of a step that goes on with the result of another one, and of a step that is taken for
each element of a list. The first failure is the failure of the whole.

* `bind_eq_ok_iff`, `bind_eq_error_iff`: one step behind another.
* `mapError_eq_ok_iff`, `mapError_eq_error_iff`: a failure that is told in another way.
* `mapM_eq_ok_iff`, `mapM_eq_error_iff`: a step for each element.
-/

namespace TryResources

variable {ε α β γ δ : Type}

/-! ## One step behind another -/

section

variable {x : Except ε α} {g : α → Except ε β} {y : β} {e : ε}

theorem bind_eq_ok_iff : (x >>= g) = .ok y ↔ ∃ a, x = .ok a ∧ g a = .ok y := by
  cases x with
  | error e => simp [bind, Except.bind]
  | ok a => simp [bind, Except.bind]

theorem bind_eq_error_iff :
    (x >>= g) = .error e ↔ x = .error e ∨ ∃ a, x = .ok a ∧ g a = .error e := by
  cases x with
  | error e => simp [bind, Except.bind]
  | ok a => simp [bind, Except.bind]

theorem exists_eq_ok_of_isOk (h : x.isOk = true) : ∃ a, x = .ok a := by
  cases x with
  | error e => cases h
  | ok a => exact ⟨a, rfl⟩

/-- The cause of a failure told in another way. -/
theorem mapError_eq_ok_iff {ε' : Type} {f : ε → ε'} {a : α} : x.mapError f = .ok a ↔ x = .ok a := by
  cases x <;> simp [Except.mapError]

theorem mapError_eq_error_iff {ε' : Type} {f : ε → ε'} {e' : ε'} :
    x.mapError f = .error e' ↔ ∃ e, x = .error e ∧ f e = e' := by
  cases x <;> simp [Except.mapError]

end

/-! ## A step for each element -/

variable {f : α → Except ε β} {as : List α} {bs : List β} {a : α} {b : β} {e : ε}

/-- All results, if each element has one. -/
theorem mapM_eq_ok_iff : as.mapM f = .ok bs ↔ List.Forall₂ (fun a b => f a = .ok b) as bs := by
  induction as generalizing bs with
  | nil =>
    rw [List.mapM_nil, List.forall₂_nil_left_iff]
    exact ⟨fun h => (Except.ok.inj h).symm, fun h => h ▸ rfl⟩
  | cons a as ih =>
    simp only [List.mapM_cons, bind_eq_ok_iff, ih, List.forall₂_cons_left_iff]
    constructor
    · rintro ⟨b, hb, bs', hbs', h⟩
      exact ⟨b, bs', hb, hbs', (Except.ok.inj h).symm⟩
    · rintro ⟨b, bs', hb, hbs', rfl⟩
      exact ⟨b, hb, bs', hbs', rfl⟩

/-- The failure of the first element that fails. -/
theorem mapM_eq_error_iff : as.mapM f = .error e ↔ ∃ before a after, as = before ++ a :: after ∧
    (∀ b ∈ before, ∃ c, f b = .ok c) ∧ f a = .error e := by
  induction as with
  | nil =>
    constructor
    · intro h
      cases h
    · rintro ⟨before, a, after, h, -⟩
      simp at h
  | cons a as ih =>
    simp only [List.mapM_cons, bind_eq_error_iff, ih]
    constructor
    · rintro (ha | ⟨b, hb, ⟨before, a', after, rfl, hbefore, ha'⟩ | ⟨bs, -, h⟩⟩)
      · exact ⟨[], a, as, rfl, by simp, ha⟩
      · exact ⟨a :: before, a', after, rfl, List.forall_mem_cons.2 ⟨⟨b, hb⟩, hbefore⟩, ha'⟩
      · cases h
    · rintro ⟨before, a', after, h, hbefore, ha'⟩
      cases before with
      | nil =>
        obtain ⟨rfl, rfl⟩ := List.cons.inj h
        exact .inl ha'
      | cons a'' before =>
        obtain ⟨rfl, rfl⟩ := List.cons.inj h
        obtain ⟨⟨b, hb⟩, hbefore⟩ := List.forall_mem_cons.1 hbefore
        exact .inr ⟨b, hb, .inl ⟨before, a', after, rfl, hbefore, ha'⟩⟩

theorem mapM_map_eq_ok {g : γ → α} {h : γ → β} {cs : List γ} (hf : ∀ c ∈ cs, f (g c) = .ok (h c)) :
    (cs.map g).mapM f = .ok (cs.map h) := by
  rw [mapM_eq_ok_iff, List.forall₂_map_left_iff, List.forall₂_map_right_iff]
  exact List.forall₂_same.2 hf

/-- If the elements are changed so that each result changes in some way, all results do. -/
theorem mapM_map_eq_map {f' : γ → Except ε δ} {t : α → γ} {g : β → δ}
    (hf : ∀ a ∈ as, f' (t a) = (f a).map g) :
    (as.map t).mapM f' = (as.mapM f).map (List.map g) := by
  induction as with
  | nil => rfl
  | cons a as ih =>
    obtain ⟨ha, hf⟩ := List.forall_mem_cons.1 hf
    rw [List.map_cons, List.mapM_cons, List.mapM_cons, ha, ih hf]
    cases f a with
    | error e => rfl
    | ok b => cases as.mapM f <;> rfl

/-- The same if the elements are asked for by their places. -/
theorem mapM_range_eq_ok {f : Nat → Except ε β} {g : α → β}
    (hf : ∀ p a, as[p]? = some a → f p = .ok (g a)) :
    (List.range as.length).mapM f = .ok (as.map g) := by
  induction as using List.reverseRecOn with
  | nil => rfl
  | append_singleton as a ih =>
    have hbefore := ih fun p b hb => hf p b (by
      rw [List.getElem?_append_left (List.getElem?_eq_some_iff.1 hb).1, hb])
    have hlast : f as.length = .ok (g a) := hf as.length a (by simp)
    rw [List.length_append, List.length_singleton, List.range_succ, List.mapM_append, hbefore,
      List.mapM_cons, hlast, List.map_append]
    rfl

/-- Elements in front of others have their results in front. -/
theorem forall₂_append_left_iff {R : α → β → Prop} {as' : List α} :
    List.Forall₂ R (as ++ as') bs ↔
      ∃ front back, List.Forall₂ R as front ∧ List.Forall₂ R as' back ∧ bs = front ++ back := by
  induction as generalizing bs with
  | nil => simp
  | cons a as ih =>
    simp only [List.cons_append, List.forall₂_cons_left_iff, ih]
    constructor
    · rintro ⟨b, _, hb, ⟨front, back, hfront, hback, rfl⟩, rfl⟩
      exact ⟨b :: front, back, ⟨b, front, hb, hfront, rfl⟩, hback, rfl⟩
    · rintro ⟨_, back, ⟨b, front, hb, hfront, rfl⟩, hback, rfl⟩
      exact ⟨b, front ++ back, hb, ⟨front, back, hfront, hback, rfl⟩, rfl⟩

theorem exists_forall₂ {R : α → β → Prop} (h : ∀ a ∈ as, ∃ b, R a b) :
    ∃ bs, List.Forall₂ R as bs := by
  induction as with
  | nil => exact ⟨[], .nil⟩
  | cons a as ih =>
    obtain ⟨⟨b, hb⟩, h⟩ := List.forall_mem_cons.1 h
    obtain ⟨bs, hbs⟩ := ih h
    exact ⟨b :: bs, .cons hb hbs⟩

/-- Each result belongs to some element. -/
theorem exists_of_mem_forall₂ {R : α → β → Prop} (h : List.Forall₂ R as bs) (hb : b ∈ bs) :
    ∃ a ∈ as, R a b := by
  induction h with
  | nil => cases hb
  | cons hab _ ih =>
    rcases List.mem_cons.1 hb with rfl | hb
    · exact ⟨_, List.mem_cons_self, hab⟩
    · obtain ⟨a', ha', hab'⟩ := ih hb
      exact ⟨a', List.mem_cons_of_mem _ ha', hab'⟩

theorem exists_of_mem_mapM (h : as.mapM f = .ok bs) (hb : b ∈ bs) : ∃ a ∈ as, f a = .ok b :=
  exists_of_mem_forall₂ (R := fun a b => f a = .ok b) (mapM_eq_ok_iff.1 h) hb

theorem exists_mapM_eq_ok (h : ∀ a ∈ as, ∃ b, f a = .ok b) : ∃ bs, as.mapM f = .ok bs := by
  cases hresult : as.mapM f with
  | ok bs => exact ⟨bs, rfl⟩
  | error e =>
    obtain ⟨before, a, after, rfl, -, ha⟩ := mapM_eq_error_iff.1 hresult
    obtain ⟨b, hb⟩ := h a (by simp)
    cases ha.symm.trans hb

/-- If each element yields a list that keeps to a property, so do all of them together. -/
theorem exists_mapM_flatten {g : α → Except ε (List β)} {P : β → Prop}
    (h : ∀ a ∈ as, ∃ bs, g a = .ok bs ∧ ∀ b ∈ bs, P b) :
    ∃ bss, as.mapM g = .ok bss ∧ ∀ b ∈ bss.flatten, P b := by
  obtain ⟨bss, hbss⟩ := exists_mapM_eq_ok fun a ha => (h a ha).imp fun _ hbs => hbs.1
  refine ⟨bss, hbss, fun b hb => ?_⟩
  obtain ⟨bs, hmem, hb⟩ := List.mem_flatten.1 hb
  obtain ⟨a, ha, hbs⟩ := exists_of_mem_mapM hbss hmem
  obtain ⟨bs', hbs', hP⟩ := h a ha
  obtain rfl := Except.ok.inj (hbs.symm.trans hbs')
  exact hP b hb

end TryResources
