import TryResources.Proofs.Layout

/-!
# The pieces of statements compiled by ecj

The pieces that the ecj templates are made of, as code patterns, and how the names of a template
give them. Resources are numbered; `Use` collects what the code of one resource uses.

* `closing`, `closingAndThrowing`, `merging`: the patterns.
* `uses`, `valuation`: what a valuation gives every resource, and a valuation that gives it.
* `instances_close`: which blocks close a resource that the bindings know.
-/

namespace TryResources.Ecj

open Matching

/-! ## Patterns -/

/-- Where a caught exception is merged into the primary one: the variable that holds it, the label
where there is a primary exception already, and the label behind it all. -/
structure Merging where
  slot : Slot
  present : LabelId
  merged : LabelId

/-- What the code of a resource uses: the variable that holds it, the type that declares its
`close` method, the labels behind its closing, where the code goes on (`skipped`) or throws
(`closed`), and a merge. -/
structure Use where
  slot : Slot
  owner : String
  skipped : LabelId
  closed : LabelId
  merging : Merging

/-- The resource is closed unless it is null. -/
def closing (slot : Slot) (owner : String) (target : LabelId) : List Token :=
  [.slot .aload slot, .jump .ifnull target, .slot .aload slot, .close owner]

/-- The resource is closed unless it is null, wherever the code then goes on. -/
def closings (slot : Slot) (owner : String) : Set (List Token) :=
  {ts | ∃ target, closing slot owner target = ts}

/-- The resource is closed unless it is null, and the primary exception is thrown. -/
def closingAndThrowing (primary : Slot) (u : Use) : List Token :=
  [.slot .aload u.slot, .jump .ifnull u.closed, .slot .aload u.slot, .close u.owner,
    .label u.closed, .slot .aload primary, .op .athrow]

/-- A caught exception is merged into the primary one. -/
def merging (primary : Slot) (m : Merging) : List Token :=
  [.slot .astore m.slot,
    .slot .aload primary, .jump .ifnonnull m.present,
    .slot .aload m.slot, .slot .astore primary, .jump .goto m.merged,
    .label m.present,
    .slot .aload primary, .slot .aload m.slot, .jump .ifAcmpeq m.merged,
    .slot .aload primary, .slot .aload m.slot, .addSuppressed,
    .label m.merged]

/-- The primary exception is thrown. -/
def throwing (primary : Slot) : List Token :=
  [.slot .aload primary, .op .athrow]

/-! ## Templates and patterns -/

def mergingOf (v : Valuation) (site : Merge) : Merging where
  slot := v (.slot (.merged site))
  present := v (.label (.present site))
  merged := v (.label (.merged site))

/-- What a valuation gives a resource. -/
def uses (v : Valuation) (i : Nat) : Use where
  slot := v (.slot (.resource (.nth i)))
  owner := v (.owner (.nth i))
  skipped := v (.label (.skipped i))
  closed := v (.label (.closed i))
  merging := mergingOf v (.before i)

/-- A valuation that gives every resource what it uses. -/
def valuation (primary : Slot) (u : Nat → Use) (last : Merging) : Valuation
  | .slot .primary => primary
  | .slot (.resource (.nth i)) => (u i).slot
  | .slot (.merged (.before i)) => (u i).merging.slot
  | .slot (.merged .last) => last.slot
  | .slot _ => 0
  | .label (.skipped i) => (u i).skipped
  | .label (.closed i) => (u i).closed
  | .label (.present (.before i)) => (u i).merging.present
  | .label (.present .last) => last.present
  | .label (.merged (.before i)) => (u i).merging.merged
  | .label (.merged .last) => last.merged
  | .owner (.nth i) => (u i).owner
  | .owner .only => ""

variable {code : Code} {b : Bindings} {v : Valuation} {i p q : Nat}

theorem map_token_close (v : Valuation) (i : Nat) :
    (close i).map (Step.token v) =
      closing (uses v i).slot (uses v i).owner (uses v i).skipped := rfl

theorem map_token_closeAndThrow (v : Valuation) (i : Nat) :
    (closeAndThrow i).map (Step.token v) =
      closingAndThrowing (v (.slot .primary)) (uses v i) := rfl

theorem map_token_merge (v : Valuation) (site : Merge) :
    (merge site).map (Step.token v) = merging (v (.slot .primary)) (mergingOf v site) := rfl

theorem map_token_throwPrimary (v : Valuation) :
    throwPrimary.map (Step.token v) = throwing (v (.slot .primary)) := rfl

theorem grounded_close (i : Nat) : Step.Grounded [] (close i) := by
  simp [Step.Grounded, close, loadResource]

theorem grounded_closeAndThrow (i : Nat) : Step.Grounded [] (closeAndThrow i) := by
  simp [Step.Grounded, Step.names, closeAndThrow, loadResource, loadPrimary]

theorem grounded_merge (site : Merge) : Step.Grounded [] (merge site) := by
  simp [Step.Grounded, Step.names, merge, loadPrimary]

theorem grounded_throwPrimary : Step.Grounded [] throwPrimary := by
  simp [Step.Grounded, throwPrimary, loadPrimary]

theorem close_eq_cons (i : Nat) : ∃ s rest, close i = s :: rest ∧ ∀ n, s ≠ .label n :=
  ⟨_, _, rfl, by simp [loadResource]⟩

/-- A resource is closed with any variable and type that the bindings allow for, wherever the code
then goes on. -/
theorem mem_instances_close_iff (hv : b.Agrees v) (hskipped : ¬ b.Knows (.label (.skipped i)))
    {ts : List Token} :
    ts ∈ b.instances (close i) ↔ ∃ slot owner target,
      (b.Knows (.slot (.resource (.nth i))) → slot = (uses v i).slot) ∧
      (b.Knows (.owner (.nth i)) → owner = (uses v i).owner) ∧ closing slot owner target = ts := by
  constructor
  · rintro ⟨v', hv', rfl⟩
    exact ⟨_, _, _, fun hslot => hv'.eq_of_knows hv hslot, fun howner => hv'.eq_of_knows hv howner,
      rfl⟩
  · -- names that are known keep their values, since the bindings know them by these
    rintro ⟨slot, owner, target, hslot, howner, rfl⟩
    refine ⟨Function.update (Function.update (Function.update v (.slot (.resource (.nth i))) slot)
      (.owner (.nth i)) owner) (.label (.skipped i)) target, hv.congr fun n hn => ?_, ?_⟩
    · rw [Function.update_of_ne (by rintro rfl; exact hskipped hn)]
      by_cases hn₁ : n = .owner (.nth i)
      · subst hn₁
        rw [Function.update_self, howner hn]
        rfl
      rw [Function.update_of_ne hn₁]
      by_cases hn₂ : n = .slot (.resource (.nth i))
      · subst hn₂
        rw [Function.update_self, hslot hn]
        rfl
      rw [Function.update_of_ne hn₂]
    · rw [map_token_close]
      simp [uses]

/-- A resource that the bindings know is closed where the known variable and type are used. -/
theorem instances_close (hv : b.Agrees v) (hslot : b.Knows (.slot (.resource (.nth i))))
    (howner : b.Knows (.owner (.nth i))) (hskipped : ¬ b.Knows (.label (.skipped i))) :
    b.instances (close i) = closings (uses v i).slot (uses v i).owner := by
  ext ts
  simp [mem_instances_close_iff hv hskipped, closings, hslot, howner]

theorem not_reads_closing_of_astore {s : Nat} {o : Slot} {slot : Slot} {owner : String}
    {rest ts : List Token} (hs : Reads code s (.slot .astore o :: rest) p)
    (hts : ts ∈ closings slot owner) : ¬ Reads code s ts q := by
  obtain ⟨target, rfl⟩ := hts
  exact hs.not_reads trivial trivial (by simp [Token.opcodes])

/-! ## Repeated pieces -/

theorem range'_of_lt {n : Nat} (h : i < n) :
    List.range' i (n - i) = i :: List.range' (i + 1) (n - (i + 1)) := by
  rw [show n - i = n - (i + 1) + 1 by omega, List.range'_succ]

end TryResources.Ecj
