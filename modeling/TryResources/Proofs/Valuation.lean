import TryResources.Proofs.Reads

/-!
# Names and what they stand for

A template names what it does not know, and meets the names one by one while it reads. Its outcome
is the same as if all names had a value from the start: a `Valuation` gives each name one and turns
every step into a token. The two readings agree, whatever is met first.

* `Bindings.Learns`: reading forgets nothing, and comes to know the names of its steps and no more.
* `reads_of_readAll`: what is read is the pattern that the bindings at the end give.
* `readAll_of_reads`: a pattern that some valuation gives is read, if the bindings at the outset
  agree with that valuation and each label is named by a jump before it is looked for.
-/

namespace TryResources.Matching

/-- A name of any kind. -/
inductive Name
  | slot (n : SlotName)
  | label (n : LabelName)
  | owner (r : Resource)
  deriving Repr, DecidableEq

/-- What a name of each kind stands for. -/
@[reducible] def Name.Value : Name → Type
  | slot _ => Slot
  | label _ => LabelId
  | owner _ => String

/-- A value for every name. -/
abbrev Valuation : Type := (n : Name) → n.Value

/-! ## Tables -/

namespace Table

variable {κ ν : Type} [DecidableEq κ] [DecidableEq ν] {t t' : Table κ ν} {name other : κ}
  {found : ν}

theorem get?_unify_of_ne (h : t.unify name found = some t') (hne : other ≠ name) :
    t'.get? other = t.get? other := by
  unfold unify at h
  split at h
  · obtain rfl := Option.some.inj h
    simp [get?, List.lookup_cons, beq_false_of_ne hne]
  · split at h
    · obtain rfl := Option.some.inj h
      rfl
    · cases h

/-- A name that stands for something is met at nothing else. -/
theorem eq_of_unify (h : t.unify name found = some t') {known : ν}
    (hknown : t.get? name = some known) : known = found := by
  have hkept := get?_of_unify h hknown
  rw [get?_unify h] at hkept
  exact (Option.some.inj hkept).symm

/-- A value is met with success unless the name stands for another one. -/
theorem exists_unify (h : ∀ known, t.get? name = some known → known = found) :
    ∃ t', t.unify name found = some t' := by
  unfold unify
  split
  · exact ⟨_, rfl⟩
  · rename_i known hknown
    rw [if_pos (h known hknown)]
    exact ⟨t, rfl⟩

end Table

/-! ## Bindings -/

namespace Bindings

/-- What a name stands for, if it has been met. -/
def lookup (b : Bindings) : (n : Name) → Option n.Value
  | .slot n => b.slots.get? n
  | .label n => b.labels.get? n
  | .owner r => b.owners.get? r

/-- Meets a name at a value. -/
def meet (b : Bindings) : (n : Name) → n.Value → Option Bindings
  | .slot n, x => (b.slots.unify n x).map fun slots => { b with slots }
  | .label n, x => (b.labels.unify n x).map fun labels => { b with labels }
  | .owner r, x => (b.owners.unify r x).map fun owners => { b with owners }

/-- The name has been met. -/
def Knows (b : Bindings) (n : Name) : Prop :=
  ∃ x, b.lookup n = some x

/-- Each name that has been met stands for its value. -/
def Agrees (b : Bindings) (v : Valuation) : Prop :=
  ∀ n x, b.lookup n = some x → v n = x

/-- From `b` to `b'` nothing is forgotten, and only the given names are met. -/
structure Learns (b : Bindings) (names : List Name) (b' : Bindings) : Prop where
  keeps : ∀ n x, b.lookup n = some x → b'.lookup n = some x
  knows : ∀ n, b'.Knows n ↔ b.Knows n ∨ n ∈ names

/-- The bindings, completed by values for the names that have not been met. -/
def complete (b : Bindings) : Valuation
  | .slot n => (b.slots.get? n).getD 0
  | .label n => (b.labels.get? n).getD ⟨0⟩
  | .owner r => (b.owners.get? r).getD ""

variable {b b' b'' : Bindings} {v v' : Valuation} {n m : Name} {names names' : List Name}

theorem not_knows_empty (n : Name) : ¬ ({} : Bindings).Knows n := by
  rintro ⟨x, hx⟩
  cases n <;> simp [lookup, Table.get?] at hx

theorem agrees_empty (v : Valuation) : ({} : Bindings).Agrees v :=
  fun n x hx => absurd ⟨x, hx⟩ (not_knows_empty n)

theorem agrees_complete (b : Bindings) : b.Agrees b.complete := by
  intro n x hx
  cases n <;> simp_all [lookup, complete]

/-- Two valuations that agree with the bindings give a known name one value. -/
theorem Agrees.eq_of_knows (hv : b.Agrees v) (hv' : b.Agrees v') (hn : b.Knows n) :
    v n = v' n := by
  obtain ⟨x, hx⟩ := hn
  rw [hv n x hx, hv' n x hx]

/-- Only the values of known names matter. -/
theorem Agrees.congr (hv : b.Agrees v) (h : ∀ n, b.Knows n → v' n = v n) : b.Agrees v' := by
  intro n x hx
  rw [h n ⟨x, hx⟩, hv n x hx]

/-- Meeting a name makes it stand for the value, which it may have stood for before, and leaves all
other names alone. -/
theorem meet_spec {x : n.Value} (h : b.meet n x = some b') :
    b'.lookup n = some x ∧ (∀ y, b.lookup n = some y → y = x) ∧
      ∀ m, m ≠ n → b'.lookup m = b.lookup m := by
  cases n with
  | slot n =>
    obtain ⟨t, ht, rfl⟩ := Option.map_eq_some_iff.1 h
    refine ⟨Table.get?_unify ht, fun y => Table.eq_of_unify ht, fun m hm => ?_⟩
    cases m with
    | slot m => exact Table.get?_unify_of_ne ht (fun e => hm (by rw [e]))
    | _ => rfl
  | label n =>
    obtain ⟨t, ht, rfl⟩ := Option.map_eq_some_iff.1 h
    refine ⟨Table.get?_unify ht, fun y => Table.eq_of_unify ht, fun m hm => ?_⟩
    cases m with
    | label m => exact Table.get?_unify_of_ne ht (fun e => hm (by rw [e]))
    | _ => rfl
  | owner r =>
    obtain ⟨t, ht, rfl⟩ := Option.map_eq_some_iff.1 h
    refine ⟨Table.get?_unify ht, fun y => Table.eq_of_unify ht, fun m hm => ?_⟩
    cases m with
    | owner m => exact Table.get?_unify_of_ne ht (fun e => hm (by rw [e]))
    | _ => rfl

/-- A name that stands for nothing else can be met at a value. -/
theorem exists_meet {x : n.Value} (h : ∀ y, b.lookup n = some y → y = x) :
    ∃ b', b.meet n x = some b' := by
  cases n with
  | slot n =>
    obtain ⟨t, ht⟩ := Table.exists_unify h
    exact ⟨_, Option.map_eq_some_iff.2 ⟨t, ht, rfl⟩⟩
  | label n =>
    obtain ⟨t, ht⟩ := Table.exists_unify h
    exact ⟨_, Option.map_eq_some_iff.2 ⟨t, ht, rfl⟩⟩
  | owner r =>
    obtain ⟨t, ht⟩ := Table.exists_unify h
    exact ⟨_, Option.map_eq_some_iff.2 ⟨t, ht, rfl⟩⟩

theorem agrees_of_meet {x : n.Value} (hv : b.Agrees v) (h : b.meet n x = some b')
    (hx : v n = x) : b'.Agrees v := by
  obtain ⟨hself, -, hother⟩ := meet_spec h
  intro m y hy
  by_cases hm : m = n
  · subst hm
    rw [hself] at hy
    rw [hx, Option.some.inj hy]
  · rw [hother m hm] at hy
    exact hv m y hy

theorem Learns.refl (b : Bindings) : b.Learns [] b :=
  ⟨fun _ _ h => h, fun n => by simp⟩

theorem Learns.trans (h : b.Learns names b') (h' : b'.Learns names' b'') :
    b.Learns (names ++ names') b'' :=
  ⟨fun n x hx => h'.keeps n x (h.keeps n x hx),
    fun n => by rw [h'.knows, h.knows, List.mem_append, or_assoc]⟩

/-- Who started without any name knows the names that were met. -/
theorem Learns.knows_iff_of_empty (h : ({} : Bindings).Learns names b) : b.Knows n ↔ n ∈ names := by
  rw [h.knows, or_iff_right (not_knows_empty n)]

theorem Learns.agrees (h : b.Learns names b') (hv : b'.Agrees v) : b.Agrees v :=
  fun n x hx => hv n x (h.keeps n x hx)

theorem learns_of_meet {x : n.Value} (h : b.meet n x = some b') : b.Learns [n] b' := by
  obtain ⟨hself, hknown, hother⟩ := meet_spec h
  constructor
  · intro m y hy
    by_cases hm : m = n
    · subst hm
      rw [hself, hknown y hy]
    · rw [hother m hm, hy]
  · intro m
    by_cases hm : m = n
    · subst hm
      simpa using ⟨x, hself⟩
    · simp [Knows, hother m hm, hm]

end Bindings

end TryResources.Matching
