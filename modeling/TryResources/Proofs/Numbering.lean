import Mathlib.Data.List.Nodup
import TryResources.Proofs.Building
import TryResources.Proofs.Nodes

/-!
# Numbered labels

A builder that has carried out directives has numbered all labels that they mention, in order of
first use, and knows whether one of them was placed again.

* `FirstRepeat`: the first name of a list that stands there a second time, if names with the same
  key are taken as one.
* `Builder.Tracks`: what a builder knows of directives.
* `Tracks.apply`, `Tracks.run`: a builder goes on to know this, for one more directive and for a
  sequence of them.
* `Tracks.index_labelOf`, `labelOf_inj`: a label has as its number how many names were used before.
-/

namespace TryResources

/-! ## What directives say -/

namespace Directive

/-- The labels that directives mention, in the order in which they mention them. -/
def uses (ds : List Directive) : List String :=
  ds.flatMap labels

/-- The nodes that directives append. -/
def nodes (ds : List Directive) : List (Node String) :=
  ds.filterMap node?

/-- The table entries that directives append. -/
def entries (ds : List Directive) : List (Block String) :=
  ds.filterMap block?

/-- The labels that directives place, in order. -/
def placed (ds : List Directive) : List String :=
  labelsOf (nodes ds)

end Directive

/-! ## Repeats -/

section

variable {κ κ' : Type}

/-- The first name in a list that has the same key as a name in front of it, if there is one. -/
def FirstRepeat (key : String → κ) (xs : List String) : Option String → Prop
  | none => (xs.map key).Nodup
  | some x => ∃ before after, xs = before ++ x :: after ∧ (before.map key).Nodup ∧
      key x ∈ before.map key

variable {key : String → κ} {key' : String → κ'} {xs before before' after after' : List String}
  {x y : String} {r r' : Option String}

/-- Keys that tell the same names apart are repeated in the same places. -/
theorem nodup_map_iff_of_same (h : ∀ x ∈ xs, ∀ y ∈ xs, key x = key y ↔ key' x = key' y) :
    (xs.map key).Nodup ↔ (xs.map key').Nodup := by
  rw [List.Nodup, List.Nodup, List.pairwise_map, List.pairwise_map]
  exact List.Pairwise.iff_of_mem fun hx hy => not_congr (h _ hx _ hy)

theorem mem_map_iff_of_same (h : ∀ y ∈ xs, key x = key y ↔ key' x = key' y) :
    key x ∈ xs.map key ↔ key' x ∈ xs.map key' := by
  simp only [List.mem_map, eq_comm (b := key x), eq_comm (b := key' x)]
  exact exists_congr fun y => and_congr_right fun hy => h y hy

namespace FirstRepeat

theorem none_iff : FirstRepeat id xs none ↔ xs.Nodup := by
  rw [FirstRepeat, List.map_id]

theorem concat [DecidableEq κ] (h : FirstRepeat key xs r) (x : String) :
    FirstRepeat key (xs ++ [x]) (r <|> if key x ∈ xs.map key then some x else none) := by
  cases r with
  | some y =>
    obtain ⟨before, after, rfl, hbefore, hy⟩ := h
    exact ⟨before, after ++ [x], by simp, hbefore, hy⟩
  | none =>
    by_cases hx : key x ∈ xs.map key
    · rw [if_pos hx]
      exact ⟨xs, [], rfl, h, hx⟩
    · rw [if_neg hx]
      have hnodup : ((xs.map key).concat (key x)).Nodup := List.Nodup.concat hx h
      show ((xs ++ [x]).map key).Nodup
      rwa [List.map_append, List.map_singleton, ← List.concat_eq_append]

theorem not_nodup (h : FirstRepeat key xs (some x)) : ¬ (xs.map key).Nodup := by
  obtain ⟨before, after, rfl, -, hx⟩ := h
  intro hnodup
  rw [List.map_append] at hnodup
  exact (List.nodup_append.1 hnodup).2.2 (key x) hx (key x) List.mem_cons_self rfl

/-- A front without repeats does not reach behind a repeat. -/
theorem length_le (heq : before ++ x :: after = before' ++ y :: after')
    (hx : key x ∈ before.map key) (hbefore' : (before'.map key).Nodup) :
    before'.length ≤ before.length := by
  by_contra hlt
  have hprefix : before ++ [x] <+: before' ++ y :: after' := ⟨after, by simpa using heq⟩
  have hfront : before ++ [x] <+: before' :=
    List.prefix_of_prefix_length_le hprefix (List.prefix_append _ _) (by simp; omega)
  have hnodup : ((before ++ [x]).map key).Nodup := hbefore'.sublist (hfront.sublist.map key)
  rw [List.map_append] at hnodup
  exact (List.nodup_append.1 hnodup).2.2 (key x) hx (key x) List.mem_cons_self rfl

/-- There is one first repeat. -/
theorem unique (h : FirstRepeat key xs r) (h' : FirstRepeat key xs r') : r = r' := by
  cases r with
  | none =>
    cases r' with
    | none => rfl
    | some y => exact absurd h h'.not_nodup
  | some x =>
    cases r' with
    | none => exact absurd h' h.not_nodup
    | some y =>
      obtain ⟨before, after, rfl, hbefore, hx⟩ := h
      obtain ⟨before', after', heq, hbefore', hy⟩ := h'
      have hlength : before.length = before'.length :=
        Nat.le_antisymm (length_le heq.symm hy hbefore) (length_le heq hx hbefore')
      exact congrArg some (List.cons.inj (List.append_inj heq hlength).2).1

/-- Keys that tell the same names apart have the same first repeat. -/
theorem of_same (h : FirstRepeat key xs r)
    (hsame : ∀ x ∈ xs, ∀ y ∈ xs, key x = key y ↔ key' x = key' y) : FirstRepeat key' xs r := by
  cases r with
  | none => exact (nodup_map_iff_of_same hsame).1 h
  | some x =>
    obtain ⟨before, after, rfl, hbefore, hx⟩ := h
    have hfront : ∀ y ∈ before, y ∈ before ++ x :: after := fun y hy => List.mem_append_left _ hy
    refine ⟨before, after, rfl, (nodup_map_iff_of_same ?_).1 hbefore, (mem_map_iff_of_same ?_).1 hx⟩
    · exact fun y hy z hz => hsame y (hfront y hy) z (hfront z hz)
    · exact fun y hy => hsame x (by simp) y (hfront y hy)

end FirstRepeat

end

namespace Builder

variable {b : Builder} {ds : List Directive} {x y : String} {m : Method} {order : List String}

/-! ## Numbers -/

/-- No two names have the same number. -/
theorem labelOf_inj (hx : x ∈ b.names) : b.labelOf x = b.labelOf y ↔ x = y := by
  rw [labelOf, labelOf, LabelId.mk.injEq, List.idxOf_inj hx]

/-- The names that are known, once more of them have been noted. -/
theorem names_foldl_intern {xs : List String} (h : b.names = xs.eraseDups) (ys : List String) :
    (ys.foldl intern b).names = (xs ++ ys).eraseDups := by
  induction ys generalizing b xs with
  | nil => rw [List.append_nil, List.foldl_nil, h]
  | cons y ys ih =>
    have hone : (b.intern y).names = (xs ++ [y]).eraseDups := by
      rw [names_intern, List.eraseDups_append, h]
      by_cases hy : y ∈ xs
      · simp [List.mem_eraseDups, hy, List.removeAll]
      · simp [List.mem_eraseDups, hy, List.removeAll, List.eraseDups_cons]
    rw [List.foldl_cons, ih hone, List.append_assoc]
    rfl

theorem nodup_names_foldl_intern (h : b.names.Nodup) (xs : List String) :
    (xs.foldl intern b).names.Nodup :=
  List.foldlRecOn (motive := fun b' => b'.names.Nodup) xs intern h
    fun _ hb x _ => nodup_names_intern hb x

theorem repeated_foldl_intern (b : Builder) (xs : List String) :
    (xs.foldl intern b).repeated = b.repeated := by
  refine List.foldlRecOn (motive := fun b' => b'.repeated = b.repeated) xs intern rfl ?_
  intro b' h x _
  unfold intern
  split <;> exact h

/-- What noting a repeat leaves alone. -/
theorem names_noteRepeat (b : Builder) (n : Node String) : (b.noteRepeat n).names = b.names := by
  cases n with
  | label x =>
    simp only [noteRepeat]
    split <;> rfl
  | _ => rfl

/-! ## What a builder knows -/

/-- A builder has written directives down, has numbered their labels in order of first use, and
knows the first label that they place again. -/
structure Tracks (b : Builder) (ds : List Directive) : Prop extends b.Describes ds where
  names_eq : b.names = (Directive.uses ds).eraseDups
  nodup : b.names.Nodup
  repeated : FirstRepeat id (Directive.placed ds) b.repeated

theorem tracks_new (name desc : String) : Tracks { name, desc } [] where
  mem := by simp
  nodes := rfl
  blocks := rfl
  names_eq := rfl
  nodup := List.nodup_nil
  repeated := List.nodup_nil

end Builder

namespace Directive

variable {ds : List Directive} {x : String}

theorem placed_concat (ds : List Directive) (d : Directive) :
    placed (ds ++ [d]) = placed ds ++ labelsOf d.node?.toList := by
  rw [placed, nodes, List.filterMap_append, labelsOf_append]
  cases d <;> rfl

theorem mem_uses_of_node {n : Node String} (h : n ∈ nodes ds) (hx : x ∈ n.labels) :
    x ∈ uses ds := by
  obtain ⟨d, hd, hnode⟩ := List.mem_filterMap.1 h
  exact List.mem_flatMap.2 ⟨d, hd, labels_of_node? hnode ▸ hx⟩

theorem mem_uses_of_entry {e : Block String} (h : e ∈ entries ds) (hx : x ∈ e.labels) :
    x ∈ uses ds := by
  obtain ⟨d, hd, hentry⟩ := List.mem_filterMap.1 h
  exact List.mem_flatMap.2 ⟨d, hd, labels_of_block? hentry ▸ hx⟩

theorem mem_uses_of_placed (h : x ∈ placed ds) : x ∈ uses ds := by
  obtain ⟨n, hn, hx⟩ := List.mem_filterMap.1 h
  refine mem_uses_of_node hn ?_
  cases n <;> cases hx
  exact List.mem_singleton_self _

end Directive

namespace Builder

variable {b : Builder} {ds : List Directive} {x y : String} {m : Method} {order : List String}

theorem Describes.labelsOf_nodes (h : b.Describes ds) :
    labelsOf b.code.nodes.toList = (Directive.placed ds).map b.labelOf := by
  rw [h.nodes, labelsOf_map]
  rfl

/-- A builder knows which labels are placed. -/
theorem Describes.places_iff (h : b.Describes ds) (hx : x ∈ b.names) :
    b.places x = true ↔ x ∈ Directive.placed ds := by
  have hlabel (l : LabelId) : .label l ∈ b.code.nodes ↔ l ∈ labelsOf b.code.nodes.toList := by
    rw [labelsOf, List.mem_filterMap, ← Array.mem_toList_iff]
    constructor
    · intro hl
      exact ⟨_, hl, rfl⟩
    · rintro ⟨n, hn, hl⟩
      cases n <;> cases hl
      exact hn
  rw [places, Array.contains_iff_mem, hlabel, h.labelsOf_nodes, List.mem_map]
  constructor
  · rintro ⟨y, hy, he⟩
    exact (labelOf_inj hx).1 he.symm ▸ hy
  · intro hx'
    exact ⟨x, hx', rfl⟩

theorem names_apply (b : Builder) (d : Directive) :
    (b.apply d).names = (d.labels.foldl intern b).names := by
  cases d with
  | reserve x => rfl
  | emit n => exact names_noteRepeat _ n
  | protect e => rfl

/-- A label is placed again if it is among those that have been placed. -/
theorem Describes.firstRepeat_noteRepeat (h : b.Describes ds) {n : Node String}
    (hn : ∀ x ∈ n.labels, x ∈ b.names) (hrepeated : FirstRepeat id (Directive.placed ds) b.repeated) :
    FirstRepeat id (Directive.placed ds ++ labelsOf [n]) (b.noteRepeat n).repeated := by
  cases n with
  | label x =>
    have hplaces := h.places_iff (hn x (List.mem_singleton_self x))
    have hconcat := hrepeated.concat x
    by_cases hx : x ∈ Directive.placed ds
    · simpa [noteRepeat, hplaces.2 hx, hx] using hconcat
    · simpa [noteRepeat, hplaces, hx] using hconcat
  | _ => simpa [noteRepeat] using hrepeated

/-- A builder that tracks directives tracks one more by carrying it out. -/
theorem Tracks.apply (h : b.Tracks ds) (d : Directive) : (b.apply d).Tracks (ds ++ [d]) := by
  obtain ⟨hextends, hall⟩ := b.extends_foldl_intern d.labels
  refine ⟨h.toDescribes.apply d, ?_, ?_, ?_⟩
  · rw [names_apply, names_foldl_intern h.names_eq, Directive.uses, Directive.uses,
      List.flatMap_append, List.flatMap_singleton]
  · rw [names_apply]
    exact nodup_names_foldl_intern h.nodup d.labels
  · have hrepeated : FirstRepeat id (Directive.placed ds) (d.labels.foldl intern b).repeated := by
      rw [repeated_foldl_intern]
      exact h.repeated
    rw [Directive.placed_concat]
    cases d with
    | emit n => exact (h.toDescribes.of_extends hextends).firstRepeat_noteRepeat hall hrepeated
    | _ =>
      show FirstRepeat id (Directive.placed ds ++ []) _
      rw [List.append_nil]
      exact hrepeated

/-- A builder that tracks directives tracks those and all further ones once it has carried these
out. -/
theorem Tracks.run (h : b.Tracks ds) (ds' : List Directive) : (b.run ds').Tracks (ds ++ ds') :=
  run_induction (fun _ _ d hb => hb.apply d) h ds'

theorem tracks_run (name desc : String) (ds : List Directive) :
    (run { name, desc } ds).Tracks ds :=
  (tracks_new name desc).run ds

/-! ## First uses -/

theorem Tracks.mem_names_iff (h : b.Tracks ds) : x ∈ b.names ↔ x ∈ Directive.uses ds := by
  rw [h.names_eq, List.mem_eraseDups]

/-- The number of a label is how many names were used before it. -/
theorem Tracks.index_labelOf (h : b.Tracks ds) {before after : List String}
    (huses : Directive.uses ds = before ++ x :: after) (hx : x ∉ before) :
    (b.labelOf x).index = before.eraseDups.length := by
  have hnames : ∃ more, b.names = before.eraseDups ++ x :: more := by
    rw [h.names_eq, huses, List.eraseDups_append, List.removeAll,
      List.filter_cons_of_pos (by simpa using hx), List.eraseDups_cons]
    exact ⟨_, rfl⟩
  obtain ⟨more, hmore⟩ := hnames
  have hnot : x ∉ before.eraseDups := fun hmem => hx (List.mem_eraseDups.1 hmem)
  show b.names.idxOf x = _
  rw [hmore, List.idxOf_append, if_neg hnot, List.idxOf_cons_self, Nat.zero_add]

/-- More directives do not change the number of a label. -/
theorem Tracks.labelOf_run (h : b.Tracks ds) (ds' : List Directive)
    (hx : x ∈ Directive.uses ds) : (b.run ds').labelOf x = b.labelOf x := by
  obtain ⟨before, after, huses, hbefore⟩ := List.eq_append_cons_of_mem hx
  have hmore : Directive.uses (ds ++ ds') = before ++ x :: (after ++ Directive.uses ds') := by
    rw [Directive.uses, List.flatMap_append]
    exact (congrArg (· ++ Directive.uses ds') huses).trans (by simp)
  have hindex := h.index_labelOf huses hbefore
  have hindex' := (h.run ds').index_labelOf hmore hbefore
  exact congrArg LabelId.mk (hindex'.trans hindex.symm)

end Builder

end TryResources
