import Mathlib.Data.List.Induction
import TryResources.Proofs.Faults
import TryResources.Proofs.Tables

/-!
# Finished or refused

What becomes of any directives when the method is to be finished. A label that is placed again is
noticed while directives are carried out, and everything else afterwards; but whatever was told first,
faults are ranked in one way. Names are looked at in any order, which shows only if several of them
were used and never placed.

A builder with tables goes by numbers: it takes two names as one if their numbers are the same in
32 bits. As long as there are no more than 2³² names, no two are taken as one, and what it makes is
the method that a builder without tables makes.

* `Builder.Tracks.find?_eq_of_unique`: if one name only has no place, it is found in any order.
* `TableBuilder.Tracks.verdict`, `Tracks.verdict_of_few`: what a builder with tables reports.
* `TableMethod.Represents`, `TableBuilder.Tracks.agrees`: it makes the same method as a builder
  without.
* `TableBuilder.run_buildInOrder_outcome`: when a method is finished, and for what else it is refused.
-/

namespace TryResources

namespace Builder

variable {b : Builder} {ds : List Directive} {order order' : List String} {x : String}

/-! ## Names without a place -/

/-- A name that is found was used and never placed. -/
theorem Tracks.of_find?_eq_some (h : b.Tracks ds) (horder : ∀ y, y ∈ order ↔ y ∈ b.names)
    (hx : order.find? (!b.places ·) = some x) :
    x ∈ Directive.uses ds ∧ x ∉ Directive.placed ds := by
  have hname := (horder x).1 (List.mem_of_find?_eq_some hx)
  refine ⟨h.mem_names_iff.1 hname, ?_⟩
  rw [← h.places_iff hname]
  simpa using List.find?_some hx

/-- None is found if all that were used are placed. -/
theorem Tracks.find?_eq_none_iff (h : b.Tracks ds) (horder : ∀ y, y ∈ order ↔ y ∈ b.names) :
    order.find? (!b.places ·) = none ↔ ∀ y ∈ Directive.uses ds, y ∈ Directive.placed ds := by
  have hnone : order.find? (!b.places ·) = none ↔ ∀ y ∈ b.names, b.places y = true := by
    simp [List.find?_eq_none, horder]
  rw [hnone]
  constructor
  · intro hall y hy
    have hname := h.mem_names_iff.2 hy
    exact (h.places_iff hname).1 (hall y hname)
  · intro hall y hy
    exact (h.places_iff hy).2 (hall y (h.mem_names_iff.1 hy))

/-- If one name at most was used and never placed, it is found in any order. -/
theorem Tracks.find?_eq_of_unique (h : b.Tracks ds) (horder : ∀ y, y ∈ order ↔ y ∈ b.names)
    (horder' : ∀ y, y ∈ order' ↔ y ∈ b.names)
    (hunique : ∀ x ∈ Directive.uses ds, ∀ y ∈ Directive.uses ds,
      x ∉ Directive.placed ds → y ∉ Directive.placed ds → x = y) :
    order.find? (!b.places ·) = order'.find? (!b.places ·) := by
  have hnone := (h.find?_eq_none_iff horder).trans (h.find?_eq_none_iff horder').symm
  cases hfound : order.find? (!b.places ·) with
  | none => exact (hnone.1 hfound).symm
  | some x =>
    cases hfound' : order'.find? (!b.places ·) with
    | none => cases hfound.symm.trans (hnone.2 hfound')
    | some y =>
      obtain ⟨hx, hplaced⟩ := h.of_find?_eq_some horder hfound
      obtain ⟨hy, hplaced'⟩ := h.of_find?_eq_some horder' hfound'
      rw [hunique x hx y hy hplaced hplaced']

theorem buildInOrder_eq_rank (b : Builder) (order : List String) :
    b.buildInOrder order = rank b.repeated (order.find? (!b.places ·)) b.code.misfit?
      ⟨b.name, b.desc, b.code, b.blocks, b.names⟩ := rfl

end Builder

namespace TableBuilder

variable {t : TableBuilder} {b : Builder} {ds : List Directive} {l : LabelId} {x : String}
  {entries : List (String × LabelId)}

/-! ## Finishing with tables -/

/-- The table of names is turned around, unless some entry is of a label that has not been placed. -/
theorem invert_eq (placed : List LabelId) (entries : List (String × LabelId))
    (names : List (LabelId × String)) : invert placed entries names =
      match entries.find? (·.2 ∉ placed) with
      | some e => .error (.undefinedLabel e.1)
      | none => .ok ((entries.map Prod.swap).reverse ++ names) := by
  induction entries generalizing names with
  | nil => rfl
  | cons e entries ih =>
    rw [invert, List.find?_cons]
    have hswap : e.swap = (e.2, e.1) := rfl
    by_cases hplaced : e.2 ∈ placed
    · rw [if_pos hplaced, ih]
      simp [hplaced, hswap]
    · simp [hplaced]

theorem buildInOrder_eq_rank {r : Option String} (herror : t.error = r.map .duplicateLabel)
    (entries : List (String × LabelId)) :
    t.buildInOrder entries =
      rank r ((entries.find? (·.2 ∉ t.placed)).map Prod.fst) t.code.misfit?
        ⟨t.name, t.desc, t.code, t.blocks, t.code.definitions, (entries.map Prod.swap).reverse⟩ := by
  rw [buildInOrder, herror]
  cases r with
  | some x => rfl
  | none =>
    show (invert t.placed entries [] >>= _) = _
    rw [invert_eq, List.append_nil]
    cases entries.find? (·.2 ∉ t.placed) with
    | some e => rfl
    | none => cases t.code.misfit? <;> rfl

/-- An entry of the table is a name that has been used, with its number. -/
theorem Tracks.mem_labels_iff (h : t.Tracks b ds) :
    (x, l) ∈ t.labels ↔ x ∈ Directive.uses ds ∧ numberOf (Directive.uses ds) x = l := by
  rw [h.labels_eq, List.mem_map]
  constructor
  · rintro ⟨y, hy, he⟩
    cases he
    exact ⟨List.mem_eraseDups.1 hy, rfl⟩
  · rintro ⟨hx, rfl⟩
    exact ⟨x, List.mem_eraseDups.2 hx, rfl⟩

/-- A builder with tables reports what is wrong with directives, as far as numbers of 32 bits tell
names apart. -/
theorem Tracks.verdict (h : t.Tracks b ds) (hentries : entries.Perm t.labels) :
    Verdict (numberOf (Directive.uses ds)) (Directive.uses ds) (Directive.placed ds)
      (Directive.nodes ds) (t.buildInOrder entries) := by
  obtain ⟨r, hfirst, herror⟩ := h.error
  rw [funext h.labelOf_eq] at hfirst
  rw [buildInOrder_eq_rank herror]
  refine verdict_rank hfirst ?_ ?_ (fun p op => Code.misfit?_eq_some_iff h.code_eq) _
  · intro x hx
    obtain ⟨⟨y, l⟩, hfound, rfl⟩ := Option.map_eq_some_iff.1 hx
    obtain ⟨huse, rfl⟩ := h.mem_labels_iff.1 (hentries.mem_iff.1 (List.mem_of_find?_eq_some hfound))
    rw [← h.mem_placed_iff]
    exact ⟨huse, by simpa using List.find?_some hfound⟩
  · intro hnone x hx
    rw [Option.map_eq_none_iff, List.find?_eq_none] at hnone
    have hplaced := hnone _ (hentries.mem_iff.2 (h.mem_labels_iff.2 ⟨hx, rfl⟩))
    rw [← h.mem_placed_iff]
    simpa using hplaced

/-- Up to 2³² names, it goes by the names themselves. -/
theorem Tracks.verdict_of_few (h : t.Tracks b ds) (hentries : entries.Perm t.labels)
    (hfew : (Directive.uses ds).eraseDups.length ≤ LabelId.limit) :
    Verdict id (Directive.uses ds) (Directive.placed ds) (Directive.nodes ds)
      (t.buildInOrder entries) :=
  (h.verdict hentries).of_same (fun _ => Directive.mem_uses_of_placed)
    fun _ hx _ hy => numberOf_eq_iff hfew hx hy

end TableBuilder

/-! ## The same method -/

/-- Two results are the same error, or two values of which one stands for the other. -/
inductive Agrees {α β : Type} (R : α → β → Prop) : Except MethodError α → Except MethodError β → Prop
  | error (e : MethodError) : Agrees R (.error e) (.error e)
  | ok {a : α} {b : β} (h : R a b) : Agrees R (.ok a) (.ok b)

theorem agrees_rank {α β : Type} {R : α → β → Prop} {repeated undefined : Option String}
    {misfit : Option (Nat × Opcode)} {a : α} {b : β}
    (h : R a b) :
    Agrees R (rank repeated undefined misfit a) (rank repeated undefined misfit b) := by
  cases repeated with
  | some x => exact .error _
  | none =>
    cases undefined with
    | some x => exact .error _
    | none =>
      cases misfit with
      | some w => exact .error _
      | none => exact .ok h

/-- A method with tables is some other method: all that is asked of it has the same answer. -/
structure TableMethod.Represents (m' : TableMethod) (m : Method) : Prop where
  name : m'.name = m.name
  desc : m'.desc = m.desc
  code : m'.code = m.code
  blocks : m'.blocks = m.blocks
  labelPosition? : ∀ l, m'.labelPosition? l = m.code.labelPosition? l
  lookup_names : ∀ l, m'.names.lookup l = m.labelNames[l.index]?

theorem find?_congr {α : Type} {p q : α → Bool} {xs : List α} (h : ∀ x ∈ xs, p x = q x) :
    xs.find? p = xs.find? q := by
  rw [← List.head?_filter, ← List.head?_filter, List.filter_congr h]

/-- Where the table of positions says that a label is defined, it is found. -/
theorem Code.lookup_definitions (c : Code) (l : LabelId) :
    c.definitions.lookup l = c.labelPosition? l := by
  simp only [definitions, labelPosition?, get?, size, ← Array.getElem?_toList,
    ← Array.length_toList]
  generalize c.nodes.toList = ns
  -- from the back, since the last definition of a label is the one that counts
  induction ns using List.reverseRecOn with
  | nil => rfl
  | append_singleton ns n ih =>
    have hfront : ∀ p ∈ (List.range ns.length).reverse,
        ((ns ++ [n])[p]? == some (.label l)) = (ns[p]? == some (.label l)) := by
      intro p hp
      rw [List.mem_reverse, List.mem_range] at hp
      rw [List.getElem?_append_left hp]
    rw [List.zipIdx_append, List.filterMap_append, List.reverse_append, List.lookup_append, ih,
      List.length_append, List.length_singleton, List.range_succ, List.reverse_append,
      List.reverse_singleton, List.singleton_append, List.find?_cons, find?_congr hfront]
    by_cases hn : n = .label l
    · simp [hn, Node.label?]
    · have hother : (n == .label l) = false := by simpa using hn
      cases n with
      | label k =>
        have hk : (l == k) = false := beq_false_of_ne fun he => hn (congrArg Node.label he.symm)
        simp [Node.label?, List.lookup_cons, hk, hother]
      | _ => simp [Node.label?, hother]

namespace TableBuilder

variable {t : TableBuilder} {b : Builder} {ds : List Directive} {entries : List (String × LabelId)}
  {x : String}

/-- Up to 2³² names, the table of names that has been turned around gives each number its name. -/
theorem Tracks.lookup_names (h : t.Tracks b ds) (hentries : entries.Perm t.labels)
    (hfew : (Directive.uses ds).eraseDups.length ≤ LabelId.limit) (l : LabelId) :
    (entries.map Prod.swap).reverse.lookup l = b.names[l.index]? := by
  have hmem {k : LabelId} {x : String} : (k, x) ∈ (entries.map Prod.swap).reverse ↔
      x ∈ Directive.uses ds ∧ numberOf (Directive.uses ds) x = k := by
    rw [List.mem_reverse, ← h.mem_labels_iff, ← hentries.mem_iff, List.mem_map]
    constructor
    · rintro ⟨⟨y, k'⟩, hy, he⟩
      cases he
      exact hy
    · intro hx
      exact ⟨_, hx, rfl⟩
  have hindex : ∀ x ∈ Directive.uses ds, ∀ i,
      b.names[i]? = some x ↔ numberOf (Directive.uses ds) x = ⟨i⟩ := by
    intro x hx i
    rw [numberOf_of_few hfew hx, ← h.tracks.names_eq, LabelId.mk.injEq]
    have hname := h.tracks.mem_names_iff.2 hx
    constructor
    · intro hi
      obtain ⟨hlt, rfl⟩ := List.getElem?_eq_some_iff.1 hi
      exact h.tracks.nodup.idxOf_getElem i hlt
    · rintro rfl
      exact List.getElem?_idxOf hname
  cases hx : b.names[l.index]? with
  | none =>
    rw [List.lookup_eq_none_iff]
    rintro ⟨k, x⟩ hentry
    obtain ⟨huse, rfl⟩ := hmem.1 hentry
    rw [bne_iff_ne]
    rintro rfl
    cases hx.symm.trans ((hindex x huse _).2 rfl)
  | some x =>
    have huse := h.tracks.mem_names_iff.1 (List.mem_of_getElem? hx)
    have hentry := hmem.2 ⟨huse, (hindex x huse _).1 hx⟩
    obtain ⟨y, hy⟩ := Option.isSome_iff_exists.1
      (List.lookup_isSome_iff.2 ⟨_, hentry, beq_self_eq_true l⟩)
    obtain ⟨before, after, heq, -⟩ := List.lookup_eq_some_iff.1 hy
    obtain ⟨huse', hl⟩ := hmem.1 (heq ▸ List.mem_append_right before List.mem_cons_self)
    rw [hy, ← hx, (hindex y huse' _).2 hl]

section

variable (h : t.Tracks b ds) (hfew : (Directive.uses ds).eraseDups.length ≤ LabelId.limit)
include h hfew

theorem Tracks.numberOf_eq (hx : x ∈ Directive.uses ds) :
    numberOf (Directive.uses ds) x = b.labelOf x := by
  rw [numberOf_of_few hfew hx, Builder.labelOf, h.tracks.names_eq]

theorem Tracks.code_eq_of_few : t.code = b.code := by
  refine congrArg Code.mk (Array.toList_inj.1 ?_)
  rw [h.code_eq, h.tracks.nodes]
  refine List.map_congr_left fun n hn => Node.map_congr fun x hx => ?_
  exact h.numberOf_eq hfew (Directive.mem_uses_of_node hn hx)

theorem Tracks.blocks_eq_of_few : t.blocks = b.blocks := by
  rw [h.blocks_eq, h.tracks.blocks]
  refine List.map_congr_left fun e he => Block.map_congr fun x hx => ?_
  exact h.numberOf_eq hfew (Directive.mem_uses_of_entry he hx)

/-- An error has been recorded for the first name that is placed again. -/
theorem Tracks.error_eq_of_few : t.error = b.repeated.map .duplicateLabel := by
  obtain ⟨r, hfirst, herror⟩ := h.error
  rw [funext h.labelOf_eq] at hfirst
  have hfirst' : FirstRepeat id (Directive.placed ds) r := hfirst.of_same fun x hx y hy =>
    numberOf_eq_iff hfew (Directive.mem_uses_of_placed hx) (Directive.mem_uses_of_placed hy)
  rw [herror, h.tracks.repeated.unique hfirst']

/-- A label is in the set if its name has been placed. -/
theorem Tracks.mem_placed_iff_places (hx : x ∈ Directive.uses ds) :
    numberOf (Directive.uses ds) x ∈ t.placed ↔ b.places x = true := by
  have hsame : numberOf (Directive.uses ds) x ∈ (Directive.placed ds).map (numberOf _) ↔
      id x ∈ (Directive.placed ds).map id :=
    mem_map_iff_of_same fun y hy => numberOf_eq_iff hfew hx (Directive.mem_uses_of_placed hy)
  rw [h.mem_placed_iff, h.tracks.toDescribes.places_iff (h.tracks.mem_names_iff.2 hx), hsame,
    List.map_id, id]

/-- Both find the same name without a place. -/
theorem Tracks.find?_of_few (hentries : entries.Perm t.labels) :
    (entries.find? (·.2 ∉ t.placed)).map Prod.fst =
      (entries.map Prod.fst).find? (!b.places ·) := by
  rw [List.find?_map]
  refine congrArg (Option.map Prod.fst) (find?_congr ?_)
  rintro ⟨x, l⟩ hentry
  obtain ⟨huse, rfl⟩ := h.mem_labels_iff.1 (hentries.mem_iff.1 hentry)
  have hplaces := h.mem_placed_iff_places hfew huse
  show decide (numberOf (Directive.uses ds) x ∉ t.placed) = !b.places x
  rw [decide_not, Bool.eq_iff_iff.2 (decide_eq_true_iff.trans hplaces)]

/-- **Tables are a way to keep names.** Up to 2³² names, a builder with tables makes the same method
as one that keeps a list of names, or reports the same error. -/
theorem Tracks.agrees (hentries : entries.Perm t.labels) :
    Agrees TableMethod.Represents (t.buildInOrder entries)
      (b.buildInOrder (entries.map Prod.fst)) := by
  rw [buildInOrder_eq_rank (h.error_eq_of_few hfew), Builder.buildInOrder_eq_rank,
    h.find?_of_few hfew hentries, h.code_eq_of_few hfew]
  exact agrees_rank ⟨h.follows.name, h.follows.desc, rfl, h.blocks_eq_of_few hfew,
    fun l => Code.lookup_definitions _ l, h.lookup_names hentries hfew⟩

end

/-! ## Outcomes -/

/-- **What becomes of any directives.** They are carried out by a builder with tables, whose numbers
have 32 bits, and the method is finished with the table of names in whatever order.

1. The result is right if names are taken as one that have the same number: if a label is placed
   again, the first such label is reported; otherwise, if a name that was used has no place, such a
   name; otherwise, if an operand does not fit its opcode, the first such instruction; and otherwise
   the method is finished. It then has all nodes and entries, with numbers for names, and finds its
   labels.
2. Up to 2³² names, the result is right if every name is taken for itself, and it is the result of a
   builder that keeps a list of names.
3. If moreover one name at most was used and never placed, the result is the same in any order. -/
theorem run_buildInOrder_outcome (name desc : String) (ds : List Directive) :
    let t := run { name, desc } ds
    let b := Builder.run { name, desc } ds
    let uses := Directive.uses ds
    let placed := Directive.placed ds
    let nodes := Directive.nodes ds
    let number := numberOf uses
    (∀ entries, entries.Perm t.labels →
      let result := t.buildInOrder entries
      Verdict number uses placed nodes result ∧
      ∀ m, result = .ok m → m.name = name ∧ m.desc = desc ∧
        m.code.nodes.toList = nodes.map (Node.map number) ∧
        m.blocks = (Directive.entries ds).map (Block.map number) ∧
        ∀ l, m.labelPosition? l = m.code.labelPosition? l) ∧
    (uses.eraseDups.length ≤ LabelId.limit →
      (∀ entries, entries.Perm t.labels →
        let result := t.buildInOrder entries
        Verdict id uses placed nodes result ∧
        Agrees TableMethod.Represents result (b.buildInOrder (entries.map Prod.fst))) ∧
      ((∀ x ∈ uses, ∀ y ∈ uses, x ∉ placed → y ∉ placed → x = y) →
        ∀ entries, entries.Perm t.labels →
          Agrees TableMethod.Represents (t.buildInOrder entries) b.build)) := by
  intro t b uses placed nodes number
  have h : t.Tracks b ds := tracks_run name desc ds
  refine ⟨fun entries hentries => ⟨h.verdict hentries, ?_⟩, fun hfew =>
    ⟨fun entries hentries => ⟨h.verdict_of_few hentries hfew, h.agrees hfew hentries⟩, ?_⟩⟩
  · intro m hm
    obtain ⟨r, -, herror⟩ := h.error
    rw [buildInOrder_eq_rank herror] at hm
    obtain ⟨-, -, -, rfl⟩ := rank_eq_ok_iff.1 hm
    obtain ⟨hname, hdesc⟩ := Builder.name_run { name, desc } ds
    exact ⟨h.follows.name.trans hname, h.follows.desc.trans hdesc, h.code_eq, h.blocks_eq,
      fun l => Code.lookup_definitions _ l⟩
  · intro hunique entries hentries
    have hsame : b.buildInOrder (entries.map Prod.fst) = b.build := by
      have horder : ∀ y, y ∈ entries.map Prod.fst ↔ y ∈ b.names := by
        rw [← h.follows.map_fst_labels]
        exact fun y => (hentries.map Prod.fst).mem_iff
      rw [Builder.build, Builder.buildInOrder_eq_rank, Builder.buildInOrder_eq_rank,
        h.tracks.find?_eq_of_unique horder (fun _ => Iff.rfl) hunique]
    rw [← hsame]
    exact h.agrees hfew hentries

/-- A jump to a label that is never placed, two operands that do not fit, and a label that is placed
twice. -/
def muddle : List Directive :=
  [.emit (.insn ⟨.aload, .target "again"⟩), .emit (.label "again"),
    .emit (.insn ⟨.goto, .target "away"⟩), .emit (.insn ⟨.athrow, .slot 1⟩), .emit (.label "again")]

theorem run_buildInOrder_outcome_muddle :
    let once := muddle.dropLast
    let placed := once ++ [.emit (.label "away")]
    let finish (ds : List Directive) := buildInOrder (run { name := "m", desc := "()V" } ds)
    let entries : List (String × LabelId) := [("away", ⟨1⟩), ("again", ⟨0⟩)]
    (∀ ds ∈ [muddle, once, placed], (Directive.uses ds).eraseDups.length ≤ LabelId.limit ∧
      entries.Perm (run { name := "m", desc := "()V" } ds).labels) ∧
      finish muddle entries = .error (.duplicateLabel "again") ∧
      ((∃ x, finish once entries = .error (.undefinedLabel x)) ∧
        Agrees TableMethod.Represents (finish once entries)
          (Builder.run { name := "m", desc := "()V" } once).build) ∧
      finish placed entries = .error (.operandMismatch 0 .aload) ∧
      FirstMisfit (Directive.nodes placed) 0 .aload := by
  intro once placed finish entries
  have hhyp : ∀ ds ∈ [muddle, once, placed], (Directive.uses ds).eraseDups.length ≤ LabelId.limit ∧
      entries.Perm (run { name := "m", desc := "()V" } ds).labels := by decide +kernel
  obtain ⟨hfew, hentries⟩ := hhyp muddle (by simp)
  obtain ⟨hfew', hentries'⟩ := hhyp once (by simp)
  obtain ⟨hfew'', hentries''⟩ := hhyp placed (by simp)
  obtain ⟨hmuddle, -⟩ := ((run_buildInOrder_outcome "m" "()V" muddle).2 hfew).1 entries hentries
  obtain ⟨honce, hagree⟩ := (run_buildInOrder_outcome "m" "()V" once).2 hfew'
  obtain ⟨hplaced, -⟩ :=
    ((run_buildInOrder_outcome "m" "()V" placed).2 hfew'').1 entries hentries''
  have hfirst : finish placed entries = .error (.operandMismatch 0 .aload) := by decide +kernel
  refine ⟨hhyp, (hmuddle.duplicate_iff "again").2 ?_, ⟨?_, ?_⟩, hfirst,
    hplaced.of_mismatch 0 .aload hfirst⟩
  · exact ⟨["again"], [], rfl, by decide, by decide⟩
  · exact ((honce entries hentries').1.exists_undefined_iff).2 (by decide +kernel)
  · exact hagree (by decide +kernel) entries hentries'

end TableBuilder

end TryResources
