import TryResources.Proofs.Marks
import TryResources.Proofs.Outcome
import TryResources.Proofs.References
import TryResources.Proofs.Resolution

/-!
# Labels under other names

What labels are called does not matter. If different labels of a listing get different names, each
directive is carried out as before: labels keep their numbers, and nodes and table entries are
written with numbers only. So the listing describes the same method, whose labels have the new
names, or it is refused for the same reason.

* `Directive.map`, `Builder.relabel`: directives and builders under other names.
* `relabel_apply`, `relabel_run`: a directive under other names, and a run of them.
* `buildInOrder_relabel`: what becomes of the method.
* `MethodListing.Admits`: names that a listing can take.
* `codeDirectives_relabel`: its lines, under other names.
* `toMethod_relabel`: what becomes of a listing under other names.
-/

namespace TryResources

/-- The same directive for other names of labels. -/
def Directive.map (f : String → String) : Directive → Directive
  | reserve x => reserve (f x)
  | emit n => emit (n.map f)
  | protect b => protect (b.map f)

theorem Directive.labels_map (f : String → String) (d : Directive) :
    (d.map f).labels = d.labels.map f := by
  cases d with
  | reserve x => rfl
  | emit n => exact n.labels_map f
  | protect b => rfl

/-- A method whose labels have other names. -/
def Method.relabel (f : String → String) (m : Method) : Method :=
  { m with labelNames := m.labelNames.map f }

/-- The same error for other names of labels. -/
def MethodError.relabel (f : String → String) : MethodError → MethodError
  | duplicateLabel x => duplicateLabel (f x)
  | undefinedLabel x => undefinedLabel (f x)
  | e => e

/-- The same result for other names of labels. -/
def relabelResult (f : String → String) : Except MethodError Method → Except MethodError Method
  | .ok m => .ok (m.relabel f)
  | .error e => .error (e.relabel f)

theorem undefined_of_relabelResult {f : String → String} {result : Except MethodError Method}
    {x : String} (h : relabelResult f result = .error (.undefinedLabel x)) :
    ∃ y, result = .error (.undefinedLabel y) := by
  cases result with
  | ok m => cases h
  | error e =>
    cases e with
    | undefinedLabel y => exact ⟨y, rfl⟩
    | _ => cases h

/-! ## Builders -/

namespace Builder

/-- A builder that has met other names. -/
def relabel (f : String → String) (b : Builder) : Builder :=
  { b with names := b.names.map f, repeated := b.repeated.map f }

theorem mem_names_foldl_intern {b : Builder} {xs : List String} {x : String}
    (h : x ∈ (xs.foldl intern b).names) : x ∈ b.names ∨ x ∈ xs := by
  induction xs generalizing b with
  | nil => exact .inl h
  | cons y xs ih =>
    rcases ih h with hx | hx
    · rw [names_intern] at hx
      split at hx
      · exact .inl hx
      · rcases List.mem_append.1 hx with hx | hx
        · exact .inl hx
        · exact .inr (List.mem_singleton.1 hx ▸ List.mem_cons_self)
    · exact .inr (List.mem_cons_of_mem _ hx)

theorem mem_names_apply {b : Builder} {d : Directive} {x : String} (h : x ∈ (b.apply d).names) :
    x ∈ b.names ∨ x ∈ d.labels := by
  rw [names_apply] at h
  exact mem_names_foldl_intern h

/-- In a list of names, a name stands where it stood before. -/
theorem idxOf_map_of_injOn {S : Set String} {f : String → String} (hf : S.InjOn f)
    {xs : List String} (hxs : ∀ y ∈ xs, y ∈ S) {x : String} (hx : x ∈ S) :
    (xs.map f).idxOf (f x) = xs.idxOf x := by
  induction xs with
  | nil => rfl
  | cons y xs ih =>
    obtain ⟨hy, hxs⟩ := List.forall_mem_cons.1 hxs
    rw [List.map_cons]
    by_cases heq : y = x
    · rw [heq, List.idxOf_cons_self, List.idxOf_cons_self]
    · rw [List.idxOf_cons_ne _ heq, List.idxOf_cons_ne _ (mt (hf hy hx) heq), ih hxs]

section

variable {S : Set String} {f : String → String} {b : Builder} {x : String} {xs : List String}
  {n : Node String} {d : Directive} {ds : List Directive}

theorem mem_names_relabel_iff (hf : S.InjOn f) (hb : ∀ y ∈ b.names, y ∈ S) (hx : x ∈ S) :
    f x ∈ (b.relabel f).names ↔ x ∈ b.names := by
  constructor
  · intro h
    obtain ⟨y, hy, heq⟩ := List.mem_map.1 h
    rwa [← hf (hb y hy) hx heq]
  · exact List.mem_map_of_mem

/-- Labels keep their numbers. -/
theorem labelOf_relabel (hf : S.InjOn f) (hb : ∀ y ∈ b.names, y ∈ S) (hx : x ∈ S) :
    (b.relabel f).labelOf (f x) = b.labelOf x :=
  congrArg LabelId.mk (idxOf_map_of_injOn hf hb hx)

theorem intern_relabel (hf : S.InjOn f) (hb : ∀ y ∈ b.names, y ∈ S) (hx : x ∈ S) :
    (b.relabel f).intern (f x) = (b.intern x).relabel f := by
  have hmem := mem_names_relabel_iff hf hb hx
  by_cases hknown : x ∈ b.names
  · rw [intern, if_pos (hmem.2 hknown), intern, if_pos hknown]
  · rw [intern, if_neg (mt hmem.1 hknown), intern, if_neg hknown]
    simp [relabel]

theorem foldl_intern_relabel (hf : S.InjOn f) (hb : ∀ y ∈ b.names, y ∈ S)
    (hxs : ∀ x ∈ xs, x ∈ S) :
    (xs.map f).foldl intern (b.relabel f) = (xs.foldl intern b).relabel f := by
  induction xs generalizing b with
  | nil => rfl
  | cons x xs ih =>
    obtain ⟨hx, hxs⟩ := List.forall_mem_cons.1 hxs
    have hnext : ∀ y ∈ (b.intern x).names, y ∈ S := by
      intro y hy
      have hy : y ∈ ([x].foldl intern b).names := hy
      rcases mem_names_foldl_intern hy with hy | hy
      · exact hb y hy
      · exact List.mem_singleton.1 hy ▸ hx
    rw [List.map_cons, List.foldl_cons, intern_relabel hf hb hx, ih hnext hxs, List.foldl_cons]

theorem places_relabel (hf : S.InjOn f) (hb : ∀ y ∈ b.names, y ∈ S) (hx : x ∈ S) :
    (b.relabel f).places (f x) = b.places x := by
  rw [places, labelOf_relabel hf hb hx]
  rfl

theorem noteRepeat_relabel (hf : S.InjOn f) (hb : ∀ y ∈ b.names, y ∈ S)
    (hn : ∀ x ∈ n.labels, x ∈ S) :
    (b.relabel f).noteRepeat (n.map f) = (b.noteRepeat n).relabel f := by
  cases n with
  | label x =>
    have hplaces := places_relabel hf hb (hn x (List.mem_singleton_self x))
    rw [Node.map, noteRepeat, noteRepeat, hplaces]
    split
    · simp [relabel]
    · rfl
  | _ => rfl

theorem push_relabel (hf : S.InjOn f) (hb : ∀ y ∈ b.names, y ∈ S)
    (hn : ∀ x ∈ n.labels, x ∈ S) :
    (b.relabel f).push (n.map f) = (b.push n).relabel f := by
  have hnode : (n.map f).map (b.relabel f).labelOf = n.map b.labelOf := by
    rw [Node.map_map]
    exact Node.map_congr fun x hx => labelOf_relabel hf hb (hn x hx)
  rw [push, hnode]
  rfl

/-- A directive under other names leads to the same builder under other names. -/
theorem relabel_apply (hf : S.InjOn f) (hb : ∀ y ∈ b.names, y ∈ S)
    (hd : ∀ x ∈ d.labels, x ∈ S) :
    (b.relabel f).apply (d.map f) = (b.apply d).relabel f := by
  have hknown : ∀ y ∈ (d.labels.foldl intern b).names, y ∈ S := fun y hy =>
    (mem_names_foldl_intern hy).elim (hb y) (hd y)
  cases d with
  | reserve x => exact intern_relabel hf hb (hd x (List.mem_singleton_self x))
  | emit n =>
    have hnoted : (n.labels.map f).foldl intern (b.relabel f) =
        (n.labels.foldl intern b).relabel f := foldl_intern_relabel hf hb hd
    have hrepeat : ((n.labels.foldl intern b).relabel f).noteRepeat (n.map f) =
        ((n.labels.foldl intern b).noteRepeat n).relabel f := noteRepeat_relabel hf hknown hd
    have hknown' : ∀ y ∈ ((n.labels.foldl intern b).noteRepeat n).names, y ∈ S := by
      rw [names_noteRepeat]
      exact hknown
    show (((n.map f).labels.foldl intern (b.relabel f)).noteRepeat (n.map f)).push (n.map f) = _
    rw [Node.labels_map, hnoted, hrepeat]
    exact push_relabel hf hknown' hd
  | protect e =>
    have hnoted : (e.labels.map f).foldl intern (b.relabel f) =
        (e.labels.foldl intern b).relabel f := foldl_intern_relabel hf hb hd
    have hentry : (e.map f).map ((e.labels.foldl intern b).relabel f).labelOf =
        e.map (e.labels.foldl intern b).labelOf :=
      Block.map_congr (b := e) fun x hx => labelOf_relabel hf hknown (hd x hx)
    show (let b' := (e.labels.map f).foldl intern (b.relabel f)
      { b' with blocks := b'.blocks ++ [(e.map f).map b'.labelOf] } : Builder) = _
    rw [hnoted]
    dsimp only
    rw [hentry]
    rfl

/-- A run of directives under other names leads to the same builder under other names. -/
theorem relabel_run (hf : S.InjOn f) (hb : ∀ y ∈ b.names, y ∈ S)
    (hds : ∀ d ∈ ds, ∀ x ∈ d.labels, x ∈ S) :
    (b.relabel f).run (ds.map (Directive.map f)) = (b.run ds).relabel f := by
  -- along the directives; all names that are noted stay inside `S`, where `f` is injective
  induction ds generalizing b with
  | nil => rfl
  | cons d ds ih =>
    obtain ⟨hd, hds⟩ := List.forall_mem_cons.1 hds
    have hnext : ∀ y ∈ (b.apply d).names, y ∈ S := fun y hy =>
      (mem_names_apply hy).elim (hb y) (hd y)
    calc (b.relabel f).run ((d :: ds).map (Directive.map f))
        _ = ((b.relabel f).apply (d.map f)).run (ds.map (Directive.map f)) := rfl
        _ = ((b.apply d).relabel f).run (ds.map (Directive.map f)) := by rw [relabel_apply hf hb hd]
        _ = ((b.apply d).run ds).relabel f := ih hnext hds

/-! ## Finished methods -/

variable {order order' : List String}

theorem find?_relabel (hf : S.InjOn f) (hb : ∀ y ∈ b.names, y ∈ S) (horder : ∀ x ∈ order, x ∈ S) :
    (order.map f).find? (!(b.relabel f).places ·) = (order.find? (!b.places ·)).map f := by
  induction order with
  | nil => rfl
  | cons x order ih =>
    obtain ⟨hx, horder⟩ := List.forall_mem_cons.1 horder
    rw [List.map_cons, List.find?_cons, List.find?_cons, places_relabel hf hb hx, ih horder]
    cases b.places x <;> rfl

/-- If names are looked at in the same order, the method is finished or refused as before. -/
theorem buildInOrder_relabel (hf : S.InjOn f) (hb : ∀ y ∈ b.names, y ∈ S)
    (horder : ∀ x ∈ order, x ∈ S) :
    (b.relabel f).buildInOrder (order.map f) = relabelResult f (b.buildInOrder order) := by
  have hrepeated : (b.relabel f).repeated = b.repeated.map f := rfl
  have hmisfit : (b.relabel f).code.misfit? = b.code.misfit? := rfl
  unfold buildInOrder
  rw [find?_relabel hf hb horder, hrepeated, hmisfit]
  cases b.repeated <;> cases order.find? (!b.places ·) <;> cases b.code.misfit? <;> rfl

/-- Another order matters only if some name was never placed. -/
theorem buildInOrder_of_order (h : ∀ x, x ∈ order' ↔ x ∈ order) :
    b.buildInOrder order' = b.buildInOrder order ∨
      ∃ x y, y ∈ order' ∧ b.buildInOrder order = .error (.undefinedLabel x) ∧
        b.buildInOrder order' = .error (.undefinedLabel y) := by
  have hnone : order'.find? (!b.places ·) = none ↔ order.find? (!b.places ·) = none := by
    simp [List.find?_eq_none, h]
  unfold buildInOrder
  cases b.repeated with
  | some x => exact .inl rfl
  | none =>
    cases hx : order.find? (!b.places ·) with
    | none =>
      rw [hnone.2 hx]
      exact .inl rfl
    | some x =>
      cases hy : order'.find? (!b.places ·) with
      | none => cases hx.symm.trans (hnone.1 hy)
      | some y => exact .inr ⟨x, y, List.mem_of_find?_eq_some hy, rfl, rfl⟩

end

end Builder

/-! ## Reports -/

theorem Report.exists_rangeLine {m : Method} {r : Range} (h : r.last < m.code.size) :
    ∃ first last, ∀ m' : Method, m'.code = m.code →
      rangeLine m' r = .ok (rangeText m'.labelName (r, first, last)) := by
  obtain ⟨first, last, hfirst, hlast⟩ := exists_ends h
  exact ⟨first, last, fun m' hcode => rangeLine_eq_ok (hcode ▸ hfirst) (hcode ▸ hlast)⟩

/-- A report on ranges names labels only where it shows the nodes at their ends. -/
theorem Report.exists_summary_eq {m : Method} {rs : List Range}
    (h : ∀ r ∈ rs, r.last < m.code.size) :
    ∃ ends : List (Range × Node LabelId × Node LabelId), ends.map Prod.fst = rs ∧
      ∀ m' : Method, m'.code = m.code →
        summary m' rs = .ok (heading m' rs :: ends.map (rangeText m'.labelName)) := by
  have hlines : ∃ ends : List (Range × Node LabelId × Node LabelId), ends.map Prod.fst = rs ∧
      ∀ m' : Method, m'.code = m.code →
        rs.mapM (rangeLine m') = .ok (ends.map (rangeText m'.labelName)) := by
    induction rs with
    | nil => exact ⟨[], rfl, fun m' _ => rfl⟩
    | cons r rs ih =>
      obtain ⟨hr, hrs⟩ := List.forall_mem_cons.1 h
      obtain ⟨first, last, hline⟩ := exists_rangeLine hr
      obtain ⟨ends, hends, hlines⟩ := ih hrs
      refine ⟨(r, first, last) :: ends, congrArg (r :: ·) hends, fun m' hcode => ?_⟩
      rw [List.mapM_cons, hline m' hcode, hlines m' hcode]
      rfl
  obtain ⟨ends, hends, hlines⟩ := hlines
  refine ⟨ends, hends, fun m' hcode => ?_⟩
  rw [summary, hlines m' hcode]
  rfl

namespace Method

variable {m : Method} {f : String → String}

theorem labelName_relabel {k : LabelId} (h : k.index < m.labelNames.length) :
    (m.relabel f).labelName k = f (m.labelName k) := by
  simp [labelName, relabel, h]

/-- The names of labels do not matter to the filter. -/
theorem ignoredRanges_relabel (o : Options) :
    o.ignoredRanges (m.relabel f) = o.ignoredRanges m := by
  rw [Options.ignoredRanges_eq_flatMap, Options.ignoredRanges_eq_flatMap]
  rfl

end Method

/-! ## Listings -/

namespace MethodListing

variable {l : MethodListing} {f : String → String} {m : Method}
  {arrange arrange' : List String → List String}

/-- A listing with its labels renamed in their places. -/
def relabel (f : String → String) (l : MethodListing) : MethodListing :=
  { l with
    code := l.code.map (Line.relabel f)
    table := l.table.map (Block.map f) }

/-- The labels that the lines of a listing, be they well-formed or not, and its table name. -/
def mentions (l : MethodListing) : Set String :=
  {x | (∃ line ∈ l.code, Line.defined? line = some x ∨ Line.target? line = some x) ∨
    ∃ e ∈ l.table, x ∈ e.labels}

/-- Names that the labels of a listing can take: different ones, which fit where they stand. -/
structure Admits (l : MethodListing) (f : String → String) : Prop where
  injOn : l.mentions.InjOn f
  defined : ∀ line ∈ l.code, ∀ x, Line.defined? line = some x → Text.Trimmed (f x).toList
  target : ∀ line ∈ l.code, ∀ x, Line.target? line = some x → Line.Referable (f x)

/-- The lines of a listing hold the same nodes under other names, or the same one is refused. -/
theorem codeDirectives_relabel (h : l.Admits f) :
    (l.relabel f).codeDirectives = l.codeDirectives.map (List.map (Directive.map f)) := by
  have hread : (l.relabel f).code.mapM Line.read =
      (l.code.mapM Line.read).map (List.map (Option.map (Node.map f))) :=
    mapM_map_eq_map fun line hline => Line.read_relabel (h.defined line hline) (h.target line hline)
  rw [codeDirectives, hread, codeDirectives]
  cases l.code.mapM Line.read with
  | error e => rfl
  | ok held =>
    refine congrArg Except.ok ?_
    simp only [List.filterMap_map, List.map_filterMap]
    congr 1
    funext n
    cases n <;> rfl

/-- The labels of its directives are those that a listing mentions. -/
theorem mem_mentions_of_directives {ds : List Directive} (h : l.codeDirectives = .ok ds) :
    ∀ d ∈ ds ++ l.tableDirectives, ∀ x ∈ d.labels, x ∈ l.mentions := by
  intro d hd x hx
  rcases List.mem_append.1 hd with hd | hd
  · obtain ⟨held, hheld, hds⟩ := bind_eq_ok_iff.1 h
    obtain rfl := Except.ok.inj hds
    obtain ⟨n, hn, hemit⟩ := List.mem_filterMap.1 hd
    obtain ⟨n, rfl, rfl⟩ := Option.map_eq_some_iff.1 hemit
    obtain ⟨line, hline, hread⟩ := exists_of_mem_mapM hheld hn
    exact .inl ⟨line, hline, Line.defined?_or_target?_of_read hread hx⟩
  · obtain ⟨e, he, rfl⟩ := List.mem_map.1 hd
    exact .inr ⟨e, he, hx⟩

/-- The builder that is told a listing under other names. -/
theorem run_relabel_directives {ds : List Directive} (h : l.Admits f)
    (hds : l.codeDirectives = .ok ds) :
    (l.relabel f).codeDirectives = .ok (ds.map (Directive.map f)) ∧
      (l.relabel f).blank.run (ds.map (Directive.map f) ++ (l.relabel f).tableDirectives) =
        (l.blank.run (ds ++ l.tableDirectives)).relabel f := by
  have hrun := Builder.relabel_run (b := l.blank) h.injOn (by simp [blank])
    (mem_mentions_of_directives hds)
  have htable : (l.relabel f).tableDirectives = l.tableDirectives.map (Directive.map f) := by
    simp only [tableDirectives, relabel, List.map_map]
    rfl
  refine ⟨by rw [codeDirectives_relabel h, hds]; rfl, ?_⟩
  rw [htable, ← List.map_append]
  exact hrun

/-- The names that the builder of a listing has noted are those that the listing mentions. -/
theorem mem_mentions_of_names {ds : List Directive} (hds : l.codeDirectives = .ok ds) :
    ∀ x ∈ (l.blank.run (ds ++ l.tableDirectives)).names, x ∈ l.mentions := by
  intro x hx
  have htracks := Builder.tracks_run l.name l.desc (ds ++ l.tableDirectives)
  obtain ⟨d, hd, hx⟩ := List.mem_flatMap.1 (htracks.mem_names_iff.1 hx)
  exact mem_mentions_of_directives hds d hd x hx

/-- The labels of a method that was read have names. -/
theorem index_lt_of_mem_labels (h : l.toMethodInOrder arrange = .ok m) {k : LabelId}
    (hk : k ∈ m.labels) : k.index < m.labelNames.length := by
  rw [toMethodInOrder, tell_bind] at h
  obtain ⟨ds, -, hbuild⟩ := bind_eq_ok_iff.1 h
  have htracks := Builder.tracks_run l.name l.desc (ds ++ l.tableDirectives)
  obtain ⟨x, hx, rfl⟩ := htracks.labels_eq hbuild hk
  obtain ⟨-, -, -, rfl⟩ := Builder.buildInOrder_eq_ok_iff.1 hbuild
  exact htracks.labelOf_lt hx

/-- No label is to blame for a line that is refused. -/
theorem relabel_of_codeDirectives {e : MethodError} (h : l.codeDirectives = .error e)
    (f : String → String) : e.relabel f = e := by
  rcases bind_eq_error_iff.1 h with hlines | ⟨_, -, h⟩
  · obtain ⟨-, line, -, -, -, hline⟩ := mapM_eq_error_iff.1 hlines
    obtain ⟨-, -, -, hrefused⟩ := Line.read_eq_error_iff.1 hline
    cases hrefused <;> rfl
  · cases h

/-- A listing is refused for one of its lines whatever its labels are called, or else a builder has
carried out its directives, and has other names for the other listing. -/
theorem toMethodInOrder_cases (h : l.Admits f) :
    (∃ e, e.relabel f = e ∧ (∀ arrange, l.toMethodInOrder arrange = .error e) ∧
      ∀ arrange, (l.relabel f).toMethodInOrder arrange = .error e) ∨
    ∃ b : Builder, (∀ x ∈ b.names, x ∈ l.mentions) ∧
      (∀ arrange, l.toMethodInOrder arrange = b.buildInOrder (arrange b.names)) ∧
      ∀ arrange, (l.relabel f).toMethodInOrder arrange =
        (b.relabel f).buildInOrder (arrange (b.relabel f).names) := by
  cases hds : l.codeDirectives with
  | error e =>
    have hlines := codeDirectives_relabel h
    rw [hds] at hlines
    refine .inl ⟨e, relabel_of_codeDirectives hds f, fun arrange => ?_, fun arrange => ?_⟩
    · rw [toMethodInOrder, tell_bind, hds]
      rfl
    · rw [toMethodInOrder, tell_bind, hlines]
      rfl
  | ok ds =>
    obtain ⟨hlines, hrun⟩ := run_relabel_directives h hds
    refine .inr ⟨_, mem_mentions_of_names hds, fun arrange => ?_, fun arrange => ?_⟩
    · rw [toMethodInOrder, tell_bind, hds]
      rfl
    · rw [toMethodInOrder, tell_bind, hlines, ← hrun]
      rfl

/-- If names are looked at in the order of first use, the result is the same under other names. -/
theorem toMethod_relabel_eq (h : l.Admits f) :
    (l.relabel f).toMethod = relabelResult f l.toMethod := by
  have hdefault (l : MethodListing) : l.toMethod = l.toMethodInOrder id := rfl
  rw [hdefault, hdefault]
  rcases toMethodInOrder_cases h with ⟨e, he, hl, hl'⟩ | ⟨b, hb, hl, hl'⟩
  · rw [hl, hl', relabelResult, he]
  · rw [hl, hl']
    exact Builder.buildInOrder_relabel h.injOn hb hb

/-- In any other order, it may be another label that is reported as undefined. -/
theorem toMethodInOrder_relabel (h : l.Admits f)
    (harrange : ∀ names x, x ∈ arrange names ↔ x ∈ names)
    (harrange' : ∀ names x, x ∈ arrange' names ↔ x ∈ names) :
    (l.relabel f).toMethodInOrder arrange' = relabelResult f (l.toMethodInOrder arrange) ∨
      ∃ x y, l.toMethodInOrder arrange = .error (.undefinedLabel x) ∧
        (l.relabel f).toMethodInOrder arrange' = .error (.undefinedLabel (f y)) := by
  rcases toMethodInOrder_cases h with ⟨e, he, hl, hl'⟩ | ⟨b, hb, hl, hl'⟩
  · rw [hl, hl', relabelResult, he]
    exact .inl rfl
  · rw [hl, hl']
    have hrelabel := Builder.buildInOrder_relabel h.injOn hb fun x hx =>
      hb x ((harrange b.names x).1 hx)
    have horder : ∀ x, x ∈ arrange' (b.relabel f).names ↔ x ∈ (arrange b.names).map f := by
      intro x
      rw [harrange', Builder.relabel]
      simp only [List.mem_map, harrange]
    -- from one order of the new names to the other, and from there to the old names
    rcases Builder.buildInOrder_of_order (b := b.relabel f) horder with heq | ⟨x, y, hy, hx, hy'⟩
    · exact .inl (heq.trans hrelabel)
    · obtain ⟨x', hx'⟩ := undefined_of_relabelResult (hrelabel.symm.trans hx)
      obtain ⟨y', -, rfl⟩ := List.mem_map.1 ((horder y).1 hy)
      exact .inr ⟨x', y', hx', hy'⟩

/-- **Labels may be called anything.** If the labels of a listing are renamed in its lines and in
its table, different ones to different names that fit where they stand, and in whatever orders it is
then checked that names are placed (`toMethod` keeps the order of first use),

1. each line holds the same node under the new names, or is refused as before;
2. the result is the same under the new names, if the order is that of first use;
3. one listing describes a method if and only if the other does;
4. then both methods have the same nodes and entries, with the same numbers of labels, and the same
   positions of labels; their labels have names that differ by the renaming; the same ranges are
   ignored, and reports on them differ only in how nodes are written, and in no mark;
5. if they are refused, it is for the same error under the new names, or for some label each that is
   undefined. -/
theorem toMethod_relabel (l : MethodListing) (f : String → String) (h : l.Admits f)
    (arrange arrange' : List String → List String)
    (harrange : ∀ names x, x ∈ arrange names ↔ x ∈ names)
    (harrange' : ∀ names x, x ∈ arrange' names ↔ x ∈ names) :
    let l' := l.relabel f
    let result := l.toMethodInOrder arrange
    let result' := l'.toMethodInOrder arrange'
    (∀ line ∈ l.code,
      Line.read (Line.relabel f line) = (Line.read line).map (Option.map (Node.map f))) ∧
    (l.toMethod = l.toMethodInOrder id ∧ l'.toMethod = l'.toMethodInOrder id ∧
      l'.toMethod = relabelResult f l.toMethod) ∧
    ((∃ m, result = .ok m) ↔ ∃ m', result' = .ok m') ∧
    (∀ m m', result = .ok m → result' = .ok m' →
      (m'.code = m.code ∧ m'.blocks = m.blocks ∧ m'.signature = m.signature ∧
        ∀ k, m'.code.labelPosition? k = m.code.labelPosition? k) ∧
      (m'.labelNames = m.labelNames.map f ∧
        ∀ k ∈ m.labels, m'.labelName k = f (m.labelName k)) ∧
      ∀ o : Options, ∃ rs, o.ignoredRanges m = .ok rs ∧ o.ignoredRanges m' = .ok rs ∧
        (∃ (head : String) (ends : List (Range × Node LabelId × Node LabelId)),
          ends.map Prod.fst = rs ∧
          Report.summary m rs = .ok (head :: ends.map (Report.rangeText m.labelName)) ∧
          Report.summary m' rs = .ok (head :: ends.map (Report.rangeText m'.labelName))) ∧
        (Report.nodeLines m' rs).map Report.isMarked =
          (Report.nodeLines m rs).map Report.isMarked) ∧
    ∀ e e', result = .error e → result' = .error e' →
      e' = e.relabel f ∨ ∃ x y, e = .undefinedLabel x ∧ e' = .undefinedLabel (f y) := by
  intro l' result result'
  have hresult : result' = relabelResult f result ∨ ∃ x y,
      result = .error (.undefinedLabel x) ∧ result' = .error (.undefinedLabel (f y)) :=
    toMethodInOrder_relabel h harrange harrange'
  refine ⟨fun line hline => Line.read_relabel (h.defined line hline) (h.target line hline),
    ⟨rfl, rfl, toMethod_relabel_eq h⟩, ?_, ?_, ?_⟩
  · rcases hresult with heq | ⟨x, y, hx, hy⟩
    · rw [heq]
      cases result <;> simp [relabelResult]
    · simp [hx, hy]
  · intro m m' hm hm'
    have hrelabel : m' = m.relabel f := by
      rcases hresult with heq | ⟨x, y, hx, hy⟩
      · rw [hm] at heq
        exact Except.ok.inj (hm'.symm.trans heq)
      · cases hx.symm.trans hm
    subst hrelabel
    refine ⟨⟨rfl, rfl, rfl, fun k => rfl⟩, ⟨rfl, fun k hk => ?_⟩, fun o => ?_⟩
    · exact Method.labelName_relabel (index_lt_of_mem_labels hm hk)
    · obtain ⟨rs, hrs, hlast⟩ := exists_ignoredRanges o m
      obtain ⟨ends, hends, hsummary⟩ := Report.exists_summary_eq hlast
      refine ⟨rs, hrs, (Method.ignoredRanges_relabel o).trans hrs,
        ⟨_, ends, hends, hsummary m rfl, hsummary (m.relabel f) rfl⟩, ?_⟩
      rw [Report.map_isMarked (Report.showsNode_nodeLines (m.relabel f) rs),
        Report.map_isMarked (Report.showsNode_nodeLines m rs)]
      rfl
  · intro e e' he he'
    rcases hresult with heq | ⟨x, y, hx, hy⟩
    · rw [he] at heq
      exact .inl (Except.error.inj (he'.symm.trans heq))
    · exact .inr ⟨x, y, Except.error.inj (he.symm.trans hx), Except.error.inj (he'.symm.trans hy)⟩

theorem toMethod_relabel_untidy :
    let f (x : String) := if x = "try start" then "first part" else "end"
    untidy.Admits f ∧
      (untidy.relabel f).code = ["  first part :", "", " aload  +007 ", "goto end", "  ",
        "invokevirtual a.b..c ()V", "invokestatic . ()V", "line 0012", "\tframe", "end:",
        "return"] ∧
      (untidy.relabel f).toMethod = .ok { tidied with labelNames := ["first part", "end"] } := by
  intro f
  have hlines : ∀ line ∈ untidy.code,
      (Line.defined? line = none ∨ Line.defined? line = some "try start" ∨
        Line.defined? line = some "end:x") ∧
      (Line.target? line = none ∨ Line.target? line = some "end:x") := by decide +kernel
  have htable : ∀ e ∈ untidy.table, ∀ x ∈ e.labels, x = "try start" ∨ x = "end:x" := by decide
  have hmentions : ∀ x ∈ untidy.mentions, x = "try start" ∨ x = "end:x" := by
    rintro x (⟨line, hline, hx⟩ | ⟨e, he, hx⟩)
    · obtain ⟨hdefined, htarget⟩ := hlines line hline
      rcases hx with hx | hx
      · simpa [hx] using hdefined
      · exact .inr (by simpa [hx] using htarget)
    · exact htable e he x hx
  have hadmits : untidy.Admits f := by
    refine ⟨?_, ?_, ?_⟩
    · intro x hx y hy heq
      rcases hmentions x hx with rfl | rfl <;> rcases hmentions y hy with rfl | rfl <;>
        first | rfl | exact absurd heq (by decide)
    · intro line hline x hx
      have hends : f x = "first part" ∨ f x = "end" := by
        by_cases hname : x = "try start" <;> simp [f, hname]
      rcases hends with hf | hf <;> rw [hf] <;> decide
    · intro line hline x hx
      obtain rfl : x = "end:x" := by simpa [hx] using (hlines line hline).2
      decide
  have h : untidy.toMethod = .ok tidied := by decide +kernel
  obtain ⟨-, ⟨-, -, hresult⟩, -⟩ :=
    toMethod_relabel untidy f hadmits id List.reverse (by simp) (by simp)
  refine ⟨hadmits, by decide +kernel, ?_⟩
  rw [hresult, h]
  decide +kernel

end MethodListing

end TryResources
