import Mathlib.Data.List.Basic
import TryResources.Method.TableBuilder
import TryResources.Proofs.Resolution

/-!
# Builders with tables

A builder that keeps a table of names, a set of placed labels and an error does the same, step by
step, as one that keeps a list of names. Its numbers are what is left of the other's in 32 bits. So
it takes two names as one if their numbers leave the same, which cannot be as long as there are no
more than 2³² names.

* `numberOf`: the number of a name, told from the names that are used.
* `TableBuilder.Follows`: a builder with tables has got as far as one without.
* `Follows.labelOf_eq`, `Follows.apply`: the two number a name alike, up to 32 bits, and one keeps up
  with the other.
* `TableBuilder.Tracks`, `Tracks.apply`, `Tracks.run`: what a builder with tables knows of
  directives, and that it goes on to know this.
* `Tracks.labelOf_eq`, `numberOf_eq_iff`: its numbers, and when they tell names apart.
-/

namespace TryResources

/-- The number of a name: how many different names are used before its first use, or what is left of
that in 32 bits. -/
def numberOf (uses : List String) (x : String) : LabelId :=
  LabelId.wrap ⟨uses.eraseDups.idxOf x⟩

theorem LabelId.wrap_of_lt {l : LabelId} (h : l.index < limit) : l.wrap = l :=
  congrArg LabelId.mk (Nat.mod_eq_of_lt h)

/-- 32 bits are enough for the numbers of 2³² names. -/
theorem numberOf_of_few {uses : List String} {x : String}
    (hfew : uses.eraseDups.length ≤ LabelId.limit) (hx : x ∈ uses) :
    numberOf uses x = ⟨uses.eraseDups.idxOf x⟩ :=
  LabelId.wrap_of_lt
    (Nat.lt_of_lt_of_le (List.idxOf_lt_length_of_mem (List.mem_eraseDups.2 hx)) hfew)

/-- So different names have different numbers then. -/
theorem numberOf_eq_iff {uses : List String} {x y : String}
    (hfew : uses.eraseDups.length ≤ LabelId.limit) (hx : x ∈ uses) (hy : y ∈ uses) :
    numberOf uses x = numberOf uses y ↔ x = y := by
  rw [numberOf_of_few hfew hx, numberOf_of_few hfew hy, LabelId.mk.injEq,
    List.idxOf_inj (List.mem_eraseDups.2 hx)]

namespace TableBuilder

variable {t : TableBuilder} {b : Builder} {ds : List Directive} {n : Node String} {x y : String}

/-! ## Two builders side by side -/

/-- A builder with tables has got as far as one without: it has written the same under numbers of 32
bits, has the same names in its table, and knows which labels it has placed. -/
structure Follows (t : TableBuilder) (b : Builder) : Prop where
  name : t.name = b.name
  desc : t.desc = b.desc
  nodes : t.code.nodes.toList = b.code.nodes.toList.map (Node.map LabelId.wrap)
  blocks : t.blocks = b.blocks.map (Block.map LabelId.wrap)
  labels : t.labels = b.names.map fun x => (x, (b.labelOf x).wrap)
  placed : ∀ l, l ∈ t.placed ↔ l ∈ labelsOf t.code.nodes.toList

theorem Follows.map_fst_labels (h : t.Follows b) : t.labels.map Prod.fst = b.names := by
  rw [h.labels, List.map_map]
  exact List.map_id _

/-- The table holds the names that have been noted. -/
theorem Follows.isSome_lookup_iff (h : t.Follows b) :
    (t.labels.lookup x).isSome = true ↔ x ∈ b.names := by
  rw [h.labels, List.lookup_isSome_iff]
  simp

/-- Both number a name alike, up to 32 bits, whether it has been used or not. -/
theorem Follows.labelOf_eq (h : t.Follows b) (x : String) : t.labelOf x = (b.labelOf x).wrap := by
  rw [labelOf]
  by_cases hx : x ∈ b.names
  · rw [h.labels, List.lookup_graph _ hx]
    rfl
  · have hnone : t.labels.lookup x = none := by
      rw [← Option.not_isSome_iff_eq_none, h.isSome_lookup_iff]
      exact hx
    rw [hnone, h.labels, List.length_map, Builder.labelOf, List.idxOf_eq_length_iff.2 hx]
    rfl

theorem Follows.intern (h : t.Follows b) (x : String) : (t.intern x).Follows (b.intern x) := by
  by_cases hx : x ∈ b.names
  · have htable : t.intern x = t := if_pos (h.isSome_lookup_iff.2 hx)
    have hnames : b.intern x = b := if_pos hx
    rw [htable, hnames]
    exact h
  · have htable : t.intern x = { t with labels := t.labels ++ [(x, t.labelOf x)] } :=
      if_neg (mt h.isSome_lookup_iff.1 hx)
    have hnames : b.intern x = { b with names := b.names ++ [x] } := if_neg hx
    have hold : ∀ y ∈ b.names, (b.intern x).labelOf y = b.labelOf y := fun y hy =>
      Builder.labelOf_intern_of_mem hy x
    have hnew : (b.intern x).labelOf x = b.labelOf x := by
      rw [hnames, Builder.labelOf, Builder.labelOf, List.idxOf_append, if_neg hx,
        List.idxOf_eq_length_iff.2 hx, List.idxOf_cons_self, Nat.zero_add]
    have hlabels : t.labels ++ [(x, t.labelOf x)] =
        (b.names ++ [x]).map fun y => (y, ((b.intern x).labelOf y).wrap) := by
      rw [List.map_append, List.map_singleton, hnew, h.labelOf_eq, h.labels]
      congr 1
      exact List.map_congr_left fun y hy => by rw [hold y hy]
    rw [htable]
    rw [hnames] at hlabels ⊢
    exact ⟨h.name, h.desc, h.nodes, h.blocks, hlabels, h.placed⟩

theorem Follows.foldl_intern (h : t.Follows b) (xs : List String) :
    (xs.foldl TableBuilder.intern t).Follows (xs.foldl Builder.intern b) := by
  induction xs generalizing t b with
  | nil => exact h
  | cons x xs ih => exact ih (h.intern x)

theorem noteRepeat_eq (b : Builder) (n : Node String) :
    b.noteRepeat n = { b with repeated := (b.noteRepeat n).repeated } := by
  cases n with
  | label x =>
    rw [Builder.noteRepeat]
    split <;> rfl
  | _ => rfl

theorem notePlace_eq (t : TableBuilder) (n : Node String) :
    t.notePlace n = { t with placed := (t.notePlace n).placed, error := (t.notePlace n).error } := by
  cases n with
  | label x =>
    rw [notePlace]
    split <;> rfl
  | _ => rfl

theorem labelOf_notePlace (t : TableBuilder) (n : Node String) :
    (t.notePlace n).labelOf = t.labelOf := by
  rw [notePlace_eq]
  rfl

theorem mem_placed_notePlace (t : TableBuilder) (n : Node String) (l : LabelId) :
    l ∈ (t.notePlace n).placed ↔ l ∈ t.placed ∨ l ∈ labelsOf [n.map t.labelOf] := by
  cases n with
  | label x =>
    rw [notePlace, Node.map, labelsOf_label, labelsOf_nil, List.mem_singleton]
    split
    · rename_i hx
      exact ⟨.inl, fun hl => hl.elim id fun he => he ▸ hx⟩
    · rw [List.mem_cons]
      exact or_comm
  | _ => simp [notePlace, Node.map]

/-- A node is appended, and its label noted as placed. -/
theorem Follows.emit (h : t.Follows b) (n : Node String) :
    ((t.notePlace n).push n).Follows ((b.noteRepeat n).push n) := by
  have hnode : n.map t.labelOf = (n.map b.labelOf).map LabelId.wrap := by
    rw [Node.map_map]
    exact Node.map_congr fun x _ => h.labelOf_eq x
  have hplaced : ∀ l, l ∈ (t.notePlace n).placed ↔
      l ∈ labelsOf (t.code.push (n.map t.labelOf)).nodes.toList := by
    intro l
    rw [mem_placed_notePlace, h.placed, Code.push, Array.toList_push, labelsOf_append,
      List.mem_append]
  have hnodes : (t.code.push (n.map t.labelOf)).nodes.toList =
      (b.code.push (n.map b.labelOf)).nodes.toList.map (Node.map LabelId.wrap) := by
    rw [Code.push, Code.push, Array.toList_push, Array.toList_push, h.nodes, hnode,
      List.map_append]
    rfl
  rw [notePlace_eq, noteRepeat_eq]
  exact ⟨h.name, h.desc, hnodes, h.blocks, h.labels, hplaced⟩

/-- A builder with tables keeps up with one without. -/
theorem Follows.apply (h : t.Follows b) (d : Directive) : (t.apply d).Follows (b.apply d) := by
  have hnoted := h.foldl_intern d.labels
  cases d with
  | reserve x => exact hnoted
  | emit n => exact hnoted.emit n
  | protect e =>
    have hentry : e.map (e.labels.foldl TableBuilder.intern t).labelOf =
        (e.map (e.labels.foldl Builder.intern b).labelOf).map LabelId.wrap := by
      rw [Block.map_map]
      exact Block.map_congr fun x _ => hnoted.labelOf_eq x
    refine ⟨hnoted.name, hnoted.desc, hnoted.nodes, ?_, hnoted.labels, hnoted.placed⟩
    show _ ++ [_] = (_ ++ [_]).map _
    rw [List.map_append, List.map_singleton, ← hnoted.blocks]
    exact congrArg (_ ++ [·]) hentry

/-! ## What is known of labels -/

/-- A builder with tables has carried out the same directives as one without, and has recorded an
error if one of them placed a label that has the number of one placed before. -/
structure Tracks (t : TableBuilder) (b : Builder) (ds : List Directive) : Prop where
  follows : t.Follows b
  tracks : b.Tracks ds
  error : ∃ r, FirstRepeat t.labelOf (Directive.placed ds) r ∧ t.error = r.map .duplicateLabel

theorem tracks_new (name desc : String) : Tracks { name, desc } { name, desc } [] where
  follows := ⟨rfl, rfl, rfl, rfl, rfl, by simp [labelsOf]⟩
  tracks := Builder.tracks_new name desc
  error := ⟨none, List.nodup_nil, rfl⟩

/-- The labels that have been placed are the numbers of the names that directives place. -/
theorem Follows.labelsOf_nodes (h : t.Follows b) (hb : b.Describes ds) :
    labelsOf t.code.nodes.toList = (Directive.placed ds).map t.labelOf := by
  rw [h.nodes, labelsOf_map, hb.labelsOf_nodes, List.map_map]
  exact List.map_congr_left fun x _ => (h.labelOf_eq x).symm

theorem error_foldl_intern (t : TableBuilder) (xs : List String) :
    (xs.foldl intern t).error = t.error := by
  refine List.foldlRecOn (motive := fun t' => t'.error = t.error) xs intern rfl ?_
  intro t' h x _
  unfold intern
  split <;> exact h

/-- A label is placed again if its number is among those of the labels that have been placed. -/
theorem error_notePlace {r : Option String}
    (hplaced : ∀ l, l ∈ t.placed ↔ l ∈ (Directive.placed ds).map t.labelOf)
    (hfirst : FirstRepeat t.labelOf (Directive.placed ds) r)
    (herror : t.error = r.map .duplicateLabel) (n : Node String) :
    ∃ r', FirstRepeat t.labelOf (Directive.placed ds ++ labelsOf [n]) r' ∧
      (t.notePlace n).error = r'.map .duplicateLabel := by
  cases n with
  | label x =>
    refine ⟨_, hfirst.concat x, ?_⟩
    rw [notePlace]
    by_cases hx : t.labelOf x ∈ (Directive.placed ds).map t.labelOf
    · rw [if_pos ((hplaced _).2 hx), if_pos hx, fail, herror]
      cases r <;> rfl
    · rw [if_neg (mt (hplaced _).1 hx), if_neg hx, herror]
      cases r <;> rfl
  | _ =>
    refine ⟨r, ?_, herror⟩
    show FirstRepeat _ (Directive.placed ds ++ []) r
    rwa [List.append_nil]

/-- A builder with tables that tracks directives tracks one more by carrying it out. -/
theorem Tracks.apply (h : t.Tracks b ds) (d : Directive) :
    (t.apply d).Tracks (b.apply d) (ds ++ [d]) := by
  refine ⟨h.follows.apply d, h.tracks.apply d, ?_⟩
  obtain ⟨r, hfirst, herror⟩ := h.error
  obtain ⟨hextends, -⟩ := b.extends_foldl_intern d.labels
  have hnoted := h.follows.foldl_intern d.labels
  have hsame : ∀ x ∈ Directive.placed ds, (d.labels.foldl intern t).labelOf x = t.labelOf x := by
    intro x hx
    have hname := h.tracks.mem_names_iff.2 (Directive.mem_uses_of_placed hx)
    rw [hnoted.labelOf_eq, h.follows.labelOf_eq, hextends.labelOf x hname]
  have hfirst' : FirstRepeat (d.labels.foldl intern t).labelOf (Directive.placed ds) r :=
    hfirst.of_same fun x hx y hy => by rw [hsame x hx, hsame y hy]
  have herror' := (t.error_foldl_intern d.labels).trans herror
  rw [Directive.placed_concat]
  cases d with
  | emit n =>
    have hlabel : (t.apply (.emit n)).labelOf = (n.labels.foldl intern t).labelOf :=
      labelOf_notePlace _ n
    rw [hlabel]
    refine error_notePlace (fun l => ?_) hfirst' herror' n
    rw [hnoted.placed, hnoted.labelsOf_nodes (h.tracks.toDescribes.of_extends hextends)]
  | _ =>
    refine ⟨r, ?_, herror'⟩
    show FirstRepeat _ (Directive.placed ds ++ []) r
    rwa [List.append_nil]

/-- A builder with tables that tracks directives tracks those and all further ones once it has
carried these out. -/
theorem Tracks.run (h : t.Tracks b ds) (ds' : List Directive) :
    (t.run ds').Tracks (b.run ds') (ds ++ ds') := by
  induction ds' generalizing t b ds with
  | nil =>
    rw [List.append_nil]
    exact h
  | cons d ds' ih =>
    have hrest := ih (h.apply d)
    rw [List.append_assoc] at hrest
    exact hrest

theorem tracks_run (name desc : String) (ds : List Directive) :
    (run { name, desc } ds).Tracks (Builder.run { name, desc } ds) ds :=
  (tracks_new name desc).run ds

/-! ## Numbers -/

/-- The number of a name is told from the names that directives use. -/
theorem Tracks.labelOf_eq (h : t.Tracks b ds) (x : String) :
    t.labelOf x = numberOf (Directive.uses ds) x := by
  rw [h.follows.labelOf_eq, Builder.labelOf, h.tracks.names_eq]
  rfl

theorem Tracks.mem_placed_iff (h : t.Tracks b ds) {l : LabelId} :
    l ∈ t.placed ↔ l ∈ (Directive.placed ds).map (numberOf (Directive.uses ds)) := by
  rw [h.follows.placed, h.follows.labelsOf_nodes h.tracks.toDescribes, funext h.labelOf_eq]

theorem Tracks.code_eq (h : t.Tracks b ds) :
    t.code.nodes.toList = (Directive.nodes ds).map (Node.map (numberOf (Directive.uses ds))) := by
  rw [h.follows.nodes, h.tracks.nodes, List.map_map]
  refine List.map_congr_left fun n _ => ?_
  rw [Function.comp_apply, Node.map_map]
  exact Node.map_congr fun x _ => (h.follows.labelOf_eq x).symm.trans (h.labelOf_eq x)

theorem Tracks.blocks_eq (h : t.Tracks b ds) :
    t.blocks = (Directive.entries ds).map (Block.map (numberOf (Directive.uses ds))) := by
  rw [h.follows.blocks, h.tracks.blocks, List.map_map]
  refine List.map_congr_left fun e _ => ?_
  rw [Function.comp_apply, Block.map_map]
  exact Block.map_congr fun x _ => (h.follows.labelOf_eq x).symm.trans (h.labelOf_eq x)

theorem Tracks.labels_eq (h : t.Tracks b ds) :
    t.labels = (Directive.uses ds).eraseDups.map fun x => (x, numberOf (Directive.uses ds) x) := by
  rw [h.follows.labels, h.tracks.names_eq]
  refine List.map_congr_left fun x _ => ?_
  rw [← h.follows.labelOf_eq, h.labelOf_eq]

end TableBuilder

end TryResources
