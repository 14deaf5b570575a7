import TryResources.Proofs.Finishing
import TryResources.Proofs.Grammar
import TryResources.Proofs.RoundTrip

/-!
# What becomes of a listing

A listing whose lines are all well-formed and whose labels fit together describes a method, with one
node for each line that is not blank. Any other listing is refused for its first malformed line,
whatever else is wrong in front of it; or else for the first label that is defined again; or else
for a label that is used and defined nowhere. Labels are looked for in any order, which shows only
if several are defined nowhere.

* `Line.exists_wellFormed_iff`: a line is either well-formed or malformed.
* `MethodListing.tell_of_malformed`, `tell_of_wellFormed`: a listing with a malformed line, and one
  without.
* `MethodListing.Told`, `exists_told`: what a builder knows of a listing without one.
* `MethodListing.ToldTables`, `exists_toldTables`: what a builder with tables knows of it.
* `toTableMethod_outcome`: what becomes of any listing.
-/

namespace TryResources

theorem Operand.Spelled.kind_eq {kind : OperandKind} {o : Operand String} {ws : List String}
    (h : Operand.Spelled kind o ws) : o.kind = kind := by
  cases h <;> rfl

namespace Line

variable {line : String} {lines : List String} {held held' : Option (Node String)}
  {found : List (Option (Node String))} {e : MethodError}

theorem exists_wellFormed_iff :
    (∃ held, WellFormed line held) ↔ ¬ ∃ e, Malformed line e := by
  simp only [← read_eq_ok_iff, ← read_eq_error_iff]
  cases read line <;> simp

theorem mapM_read_eq_ok_iff :
    lines.mapM read = .ok found ↔ List.Forall₂ WellFormed lines found := by
  simp only [mapM_eq_ok_iff, read_eq_ok_iff]

theorem WellFormed.unique (h : WellFormed line held) (h' : WellFormed line held') :
    held = held' :=
  Except.ok.inj ((read_eq_ok_iff.2 h).symm.trans (read_eq_ok_iff.2 h'))

/-- The lines that hold nothing are the blank ones. -/
theorem wellFormed_none_iff : WellFormed line none ↔ Text.Blanks line.toList := by
  constructor
  · rintro ⟨-, front, back, hfront, hback, heq⟩
    rw [heq]
    exact hfront.append hback
  · intro hblanks
    exact .blank ⟨⟨by simp, by simp⟩, line.toList, [], hblanks, by simp [Text.Blanks], by simp⟩

theorem WellFormed.isSome_eq (h : WellFormed line held) :
    held.isSome = line.toList.any (!Text.isBlank ·) := by
  rw [Bool.eq_iff_iff, Option.isSome_iff_ne_none, Ne, List.any_eq_true]
  have hnone : held = none ↔ Text.Blanks line.toList := by
    rw [← wellFormed_none_iff]
    exact ⟨fun heq => heq ▸ h, fun h' => h.unique h'⟩
  rw [hnone, Text.Blanks]
  simp

/-- There is a node for each line that is not blank. -/
theorem length_filterMap_of_wellFormed (h : List.Forall₂ WellFormed lines found) :
    (found.filterMap id).length =
      lines.countP fun line => line.toList.any (!Text.isBlank ·) := by
  induction h with
  | nil => rfl
  | @cons line held lines found hline _ ih =>
    have hsome := hline.isSome_eq
    cases held with
    | none => rw [List.countP_cons_of_neg (by simp [← hsome])]; exact ih
    | some n =>
      rw [List.countP_cons_of_pos (by simp [← hsome]), ← ih]
      rfl

/-- The operand of an instruction that was read fits its opcode. -/
theorem WellFormed.fits {i : Instruction String} (h : WellFormed line (some (.insn i))) :
    i.fits = true := by
  cases h with
  | node _ _ _ hn =>
    cases hn with
    | insn op ho => simp [Instruction.fits, ho.kind_eq]

/-- A line is not blamed for operands that do not fit. -/
theorem Malformed.ne_operandMismatch (h : Malformed line e) (p : Nat) (op : Opcode) :
    e ≠ .operandMismatch p op := by
  obtain ⟨-, -, -, h⟩ := h
  cases h <;> simp

end Line

namespace MethodListing

open Line (WellFormed Malformed)

variable {l : MethodListing} {found : List (Option (Node String))} {e : MethodError}

/-- The labels that nodes and the exception table of a listing mention. -/
def labels (l : MethodListing) (nodes : List (Node String)) : List String :=
  nodes.flatMap Node.labels ++ l.table.flatMap Block.labels

/-- The first line that is malformed is reported, whatever would be done behind it. -/
theorem tell_of_malformed {β γ : Type} (apply : β → Directive → β) (b : β)
    (finish : β → Except MethodError γ) {before after : List String} {line : String}
    (hcode : l.code = before ++ line :: after)
    (hbefore : ∀ other ∈ before, ∃ held, WellFormed other held) (hline : Malformed line e) :
    (l.tell apply b >>= finish) = .error e := by
  rw [tell_bind]
  refine bind_eq_error_iff.2 (.inl (bind_eq_error_iff.2 (.inl ?_)))
  refine mapM_eq_error_iff.2 ⟨before, line, after, hcode, ?_, Line.read_eq_error_iff.2 hline⟩
  intro other hother
  obtain ⟨held, hheld⟩ := hbefore other hother
  exact ⟨held, Line.read_eq_ok_iff.2 hheld⟩

/-! ## Listings without malformed lines -/

/-- What some nodes and the table of a listing direct a builder to do. -/
def directives (l : MethodListing) (nodes : List (Node String)) : List Directive :=
  nodes.map .emit ++ l.tableDirectives

theorem uses_directives (l : MethodListing) (nodes : List (Node String)) :
    Directive.uses (l.directives nodes) = l.labels nodes := by
  rw [directives, tableDirectives, Directive.uses, List.flatMap_append, List.flatMap_map,
    List.flatMap_map]
  rfl

theorem nodes_directives (l : MethodListing) (nodes : List (Node String)) :
    Directive.nodes (l.directives nodes) = nodes :=
  (filterMap_directives nodes l.table).1

theorem entries_directives (l : MethodListing) (nodes : List (Node String)) :
    Directive.entries (l.directives nodes) = l.table :=
  (filterMap_directives nodes l.table).2

theorem placed_directives (l : MethodListing) (nodes : List (Node String)) :
    Directive.placed (l.directives nodes) = labelsOf nodes := by
  rw [Directive.placed, nodes_directives]

/-- A builder that is told a listing carries out what its nodes and table direct. -/
theorem tell_of_wellFormed {β γ : Type} (apply : β → Directive → β) (b : β)
    (finish : β → Except MethodError γ) (h : List.Forall₂ WellFormed l.code found) :
    (l.tell apply b >>= finish) = finish ((l.directives (found.filterMap id)).foldl apply b) := by
  rw [tell_bind, codeDirectives_of_mapM (Line.mapM_read_eq_ok_iff.2 h)]
  rfl

/-- The operands in the lines of a listing fit their opcodes. -/
theorem fits_of_wellFormed (h : List.Forall₂ WellFormed l.code found) :
    ∀ i, .insn i ∈ found.filterMap id → i.fits = true := by
  intro i hi
  obtain ⟨held, hheld, rfl⟩ := List.mem_filterMap.1 hi
  obtain ⟨line, -, hline⟩ := exists_of_mem_mapM (Line.mapM_read_eq_ok_iff.2 h) hheld
  exact (Line.read_eq_ok_iff.1 hline).fits

/-- A builder has been told a listing whose lines hold some nodes, and finishes the method that the
listing describes. -/
structure Told (l : MethodListing) (nodes : List (Node String)) (b : Builder) : Prop where
  tracks : b.Tracks (l.directives nodes)
  name : b.name = l.name
  desc : b.desc = l.desc
  misfit : b.code.misfit? = none
  result : ∀ arrange, l.toMethodInOrder arrange = b.buildInOrder (arrange b.names)

theorem exists_told (h : List.Forall₂ WellFormed l.code found) :
    ∃ b, l.Told (found.filterMap id) b := by
  have htracks := Builder.tracks_run l.name l.desc (l.directives (found.filterMap id))
  obtain ⟨hname, hdesc⟩ := l.blank.name_run (l.directives (found.filterMap id))
  refine ⟨_, htracks, hname, hdesc, (Code.misfit?_eq_none_iff htracks.nodes).2 ?_, fun _ => ?_⟩
  · rw [← Directive.nodes, nodes_directives]
    exact fits_of_wellFormed h
  · exact tell_of_wellFormed Builder.apply l.blank _ h

namespace Told

variable {nodes : List (Node String)} {b : Builder} {order : List String} {x : String}

theorem names_eq (h : l.Told nodes b) : b.names = (l.labels nodes).eraseDups := by
  rw [h.tracks.names_eq, uses_directives]

/-- The builder knows the labels that are mentioned. -/
theorem mem_names_iff (h : l.Told nodes b) : x ∈ b.names ↔ x ∈ l.labels nodes := by
  rw [h.tracks.mem_names_iff, uses_directives]

/-- The builder knows the first label that is defined again. -/
theorem repeated (h : l.Told nodes b) : FirstRepeat id (labelsOf nodes) b.repeated := by
  rw [← placed_directives l nodes]
  exact h.tracks.repeated

theorem places_iff (h : l.Told nodes b) (hx : x ∈ b.names) :
    b.places x = true ↔ x ∈ labelsOf nodes := by
  rw [h.tracks.toDescribes.places_iff hx, placed_directives]

theorem code_eq (h : l.Told nodes b) : b.code.nodes.toList = nodes.map (Node.map b.labelOf) :=
  h.tracks.nodes.trans (congrArg (List.map _) (l.nodes_directives nodes))

theorem blocks_eq (h : l.Told nodes b) : b.blocks = l.table.map (Block.map b.labelOf) :=
  h.tracks.blocks.trans (congrArg (List.map _) (l.entries_directives nodes))

/-- If all labels that are mentioned are defined once, the method is finished. -/
theorem buildInOrder_eq_ok (h : l.Told nodes b) (hnodup : (labelsOf nodes).Nodup)
    (horder : ∀ y, y ∈ order ↔ y ∈ b.names) (hdefined : ∀ x ∈ l.labels nodes, x ∈ labelsOf nodes) :
    b.buildInOrder order = .ok ⟨b.name, b.desc, b.code, b.blocks, b.names⟩ := by
  have hrepeated : b.repeated = none := h.repeated.unique (FirstRepeat.none_iff.2 hnodup)
  refine Builder.buildInOrder_eq_ok_iff.2 ⟨hrepeated, ?_, h.misfit, rfl⟩
  intro x hx
  have hname := (horder x).1 hx
  exact (h.places_iff hname).2 (hdefined x (h.mem_names_iff.1 hname))

end Told

/-! ## Listings told to tables -/

/-- A builder with tables has been told a listing whose lines hold some nodes, and finishes the method
that the listing describes. -/
structure ToldTables (l : MethodListing) (nodes : List (Node String)) (t : TableBuilder)
    (b : Builder) : Prop where
  tracks : t.Tracks b (l.directives nodes)
  name : t.name = l.name
  desc : t.desc = l.desc
  result : ∀ arrange, l.toTableMethod arrange = t.buildInOrder (arrange t.labels)
  result' : ∀ arrange, l.toMethodInOrder arrange = b.buildInOrder (arrange b.names)

theorem exists_toldTables (h : List.Forall₂ WellFormed l.code found) :
    ∃ t b, l.ToldTables (found.filterMap id) t b := by
  have htracks := TableBuilder.tracks_run l.name l.desc (l.directives (found.filterMap id))
  obtain ⟨hname, hdesc⟩ := l.blank.name_run (l.directives (found.filterMap id))
  refine ⟨_, _, htracks, htracks.follows.name.trans hname, htracks.follows.desc.trans hdesc,
    fun _ => ?_, fun _ => ?_⟩
  · exact tell_of_wellFormed TableBuilder.apply _ _ h
  · exact tell_of_wellFormed Builder.apply l.blank _ h

namespace ToldTables

variable {nodes : List (Node String)} {t : TableBuilder} {b : Builder}
  {entries : List (String × LabelId)} {m : TableMethod}

/-- What a listing is refused for, as far as numbers of 32 bits tell names apart. -/
theorem verdict (h : l.ToldTables nodes t b) (hentries : entries.Perm t.labels) :
    Verdict (numberOf (l.labels nodes)) (l.labels nodes) (labelsOf nodes) nodes
      (t.buildInOrder entries) := by
  have hverdict := h.tracks.verdict hentries
  rwa [uses_directives, placed_directives, nodes_directives] at hverdict

/-- What a listing is refused for, if it has up to 2³² names. -/
theorem verdict_of_few (h : l.ToldTables nodes t b) (hentries : entries.Perm t.labels)
    (hfew : (l.labels nodes).eraseDups.length ≤ LabelId.limit) :
    Verdict id (l.labels nodes) (labelsOf nodes) nodes (t.buildInOrder entries) := by
  rw [← uses_directives] at hfew
  have hverdict := h.tracks.verdict_of_few hentries hfew
  rwa [uses_directives, placed_directives, nodes_directives] at hverdict

/-- The first label that is defined again is reported. -/
theorem duplicate_of_few (h : l.ToldTables nodes t b) (hentries : entries.Perm t.labels)
    (hfew : (l.labels nodes).eraseDups.length ≤ LabelId.limit) {before after : List String}
    {x : String} (heq : labelsOf nodes = before ++ x :: after) (hbefore : before.Nodup)
    (hx : x ∈ before) : t.buildInOrder entries = .error (.duplicateLabel x) := by
  refine ((h.verdict_of_few hentries hfew).duplicate_iff x).2 ?_
  exact ⟨before, after, heq, by rwa [List.map_id], by rwa [List.map_id]⟩

/-- If none is, a label is reported that is mentioned and nowhere defined. -/
theorem undefined_of_few (h : l.ToldTables nodes t b) (hentries : entries.Perm t.labels)
    (hfew : (l.labels nodes).eraseDups.length ≤ LabelId.limit) (hnodup : (labelsOf nodes).Nodup)
    (hundefined : ∃ x ∈ l.labels nodes, x ∉ labelsOf nodes) :
    ∃ x ∈ l.labels nodes, x ∉ labelsOf nodes ∧
      t.buildInOrder entries = .error (.undefinedLabel x) := by
  obtain ⟨x, hx, hplace⟩ := hundefined
  have hverdict := h.verdict_of_few hentries hfew
  obtain ⟨y, hy⟩ := hverdict.exists_undefined_iff.2
    ⟨by rwa [List.map_id], x, hx, by rwa [List.map_id]⟩
  obtain ⟨huse, hplace'⟩ := hverdict.of_undefined y hy
  rw [List.map_id] at hplace'
  exact ⟨y, huse, hplace', hy⟩

/-- The method that a listing describes has its nodes and the entries of its table. -/
theorem of_buildInOrder (h : l.ToldTables nodes t b) (hm : t.buildInOrder entries = .ok m) :
    m.name = l.name ∧ m.desc = l.desc ∧
      m.code.nodes.toList = nodes.map (Node.map (numberOf (l.labels nodes))) ∧
      m.blocks = l.table.map (Block.map (numberOf (l.labels nodes))) ∧
      ∀ k, m.labelPosition? k = m.code.labelPosition? k := by
  have hcode := h.tracks.code_eq
  have hblocks := h.tracks.blocks_eq
  rw [uses_directives, nodes_directives] at hcode
  rw [uses_directives, entries_directives] at hblocks
  obtain ⟨r, -, herror⟩ := h.tracks.error
  rw [TableBuilder.buildInOrder_eq_rank herror] at hm
  obtain ⟨-, -, -, rfl⟩ := rank_eq_ok_iff.1 hm
  exact ⟨h.name, h.desc, hcode, hblocks, fun k => Code.lookup_definitions _ k⟩

/-- Up to 2³² names, it gives them back. -/
theorem labelName_eq (h : l.ToldTables nodes t b) (hentries : entries.Perm t.labels)
    (hfew : (l.labels nodes).eraseDups.length ≤ LabelId.limit)
    (hm : t.buildInOrder entries = .ok m) {x : String} (hx : x ∈ l.labels nodes) :
    m.labelName (numberOf (l.labels nodes) x) = x := by
  rw [← uses_directives] at hfew hx ⊢
  obtain ⟨r, -, herror⟩ := h.tracks.error
  rw [TableBuilder.buildInOrder_eq_rank herror] at hm
  obtain ⟨-, -, -, rfl⟩ := rank_eq_ok_iff.1 hm
  show (List.lookup _ (entries.map Prod.swap).reverse).getD _ = x
  rw [h.tracks.lookup_names hentries hfew, h.tracks.numberOf_eq hfew hx, Builder.labelOf,
    List.getElem?_idxOf (h.tracks.tracks.mem_names_iff.2 hx)]
  rfl

/-- Otherwise a method is made. -/
theorem exists_method_of_few (h : l.ToldTables nodes t b) (hentries : entries.Perm t.labels)
    (hfew : (l.labels nodes).eraseDups.length ≤ LabelId.limit)
    (hfits : ∀ i, .insn i ∈ nodes → i.fits = true) (hnodup : (labelsOf nodes).Nodup)
    (hdefined : ∀ x ∈ l.labels nodes, x ∈ labelsOf nodes) :
    ∃ m, t.buildInOrder entries = .ok m ∧
      ∀ x ∈ l.labels nodes, m.labelName (numberOf (l.labels nodes) x) = x := by
  obtain ⟨m, hm⟩ := (h.verdict_of_few hentries hfew).exists_ok_iff.2
    ⟨by rwa [List.map_id], by rwa [List.map_id], hfits⟩
  exact ⟨m, hm, fun x hx => h.labelName_eq hentries hfew hm hx⟩

/-- The table holds the names with their numbers, in order of first use. -/
theorem labels_eq (h : l.ToldTables nodes t b) :
    t.labels = b.names.map fun x => (x, numberOf (l.labels nodes) x) := by
  rw [h.tracks.labels_eq, h.tracks.tracks.names_eq, uses_directives]

/-- A builder that keeps a list of names comes to the same, if names come in the same order. -/
theorem agrees (h : l.ToldTables nodes t b)
    {arrange : List (String × LabelId) → List (String × LabelId)}
    (harrange : (arrange t.labels).Perm t.labels)
    (hfew : (l.labels nodes).eraseDups.length ≤ LabelId.limit) :
    Agrees TableMethod.Represents (l.toTableMethod arrange) (l.toMethodInOrder fun names =>
      (arrange (names.map fun x => (x, numberOf (l.labels nodes) x))).map Prod.fst) := by
  rw [h.result, h.result', ← h.labels_eq]
  rw [← uses_directives] at hfew
  exact h.tracks.agrees hfew harrange

/-- In the order of first use, it comes to what `toMethod` does. -/
theorem agrees_id (h : l.ToldTables nodes t b)
    (hfew : (l.labels nodes).eraseDups.length ≤ LabelId.limit) :
    Agrees TableMethod.Represents (l.toTableMethod id) l.toMethod := by
  have hagrees := h.agrees (List.Perm.refl _ : (id t.labels).Perm t.labels) hfew
  simp only [id_eq, List.map_map, Function.comp_def, List.map_id'] at hagrees
  exact hagrees

end ToldTables

/-- Whatever a listing is refused for, it is not for operands that do not fit. -/
theorem toTableMethod_ne_mismatch (l : MethodListing)
    {arrange : List (String × LabelId) → List (String × LabelId)}
    (harrange : ∀ entries, (arrange entries).Perm entries) (p : Nat) (op : Opcode) :
    l.toTableMethod arrange ≠ .error (.operandMismatch p op) := by
  intro hmismatch
  cases hread : l.code.mapM Line.read with
  | error e =>
    obtain ⟨before, line, after, hcode, hbefore, hline⟩ := mapM_eq_error_iff.1 hread
    rw [Line.read_eq_error_iff] at hline
    have hwell : ∀ other ∈ before, ∃ held, WellFormed other held := by
      simpa only [Line.read_eq_ok_iff] using hbefore
    have hfirst : l.toTableMethod arrange = .error e := tell_of_malformed _ _ _ hcode hwell hline
    rw [hmismatch] at hfirst
    exact hline.ne_operandMismatch p op (Except.error.inj hfirst).symm
  | ok found =>
    have hfound := Line.mapM_read_eq_ok_iff.1 hread
    obtain ⟨t, b, h⟩ := exists_toldTables hfound
    rw [h.result] at hmismatch
    obtain ⟨-, -, i, hi, hmisfit⟩ :=
      (h.verdict (harrange t.labels)).exists_mismatch_iff.1 ⟨p, op, hmismatch⟩
    rw [fits_of_wellFormed hfound i hi] at hmisfit
    cases hmisfit

/-- **What becomes of a listing.** A line is either well-formed or malformed. The builder keeps tables,
in which the numbers of labels have 32 bits, and it looks in any order for labels without a place.

1. The first malformed line is reported, if there is one, whatever is wrong in front of it; otherwise
   the lines hold some nodes.
2. Then the result is right if labels are taken as one that have the same number: the first label that
   is defined again is reported, or else a label that a jump or the table mentions but no line defines,
   or else the listing describes a method. The method has the nodes in order, one for each line that is
   not blank, and the entries of the table, with numbers for names, and finds its labels.
3. Up to 2³² labels, the same is true if each label is taken for itself, and the method gives the
   labels their names back. It is the method that `toMethodInOrder` makes if names come in the same
   order, and `toMethod` if they come in the order of first use.
4. Operands that do not fit are never reported. -/
theorem toTableMethod_outcome (l : MethodListing)
    (arrange : List (String × LabelId) → List (String × LabelId))
    (harrange : ∀ entries, (arrange entries).Perm entries) :
    let result := l.toTableMethod arrange
    (∀ line, (∃ held, WellFormed line held) ↔ ¬ ∃ e, Malformed line e) ∧
    (∀ before line after e, l.code = before ++ line :: after →
      (∀ other ∈ before, ∃ held, WellFormed other held) → Malformed line e →
        result = .error e ∧ l.toMethod = .error e) ∧
    (∀ found, List.Forall₂ WellFormed l.code found →
      let nodes := found.filterMap id
      let defined := labelsOf nodes
      let number := numberOf (l.labels nodes)
      (Verdict number (l.labels nodes) defined nodes result ∧
        ((∃ m, result = .ok m) ↔
          (defined.map number).Nodup ∧ ∀ x ∈ l.labels nodes, number x ∈ defined.map number) ∧
        ∀ m, result = .ok m → m.name = l.name ∧ m.desc = l.desc ∧
          m.code.nodes.toList = nodes.map (Node.map number) ∧
          m.code.size = l.code.countP (fun line => line.toList.any (!Text.isBlank ·)) ∧
          m.blocks = l.table.map (Block.map number) ∧
          ∀ k, m.labelPosition? k = m.code.labelPosition? k) ∧
      ((l.labels nodes).eraseDups.length ≤ LabelId.limit →
        (∀ before x after, defined = before ++ x :: after → before.Nodup → x ∈ before →
          result = .error (.duplicateLabel x)) ∧
        (defined.Nodup → (∃ x ∈ l.labels nodes, x ∉ defined) →
          ∃ x ∈ l.labels nodes, x ∉ defined ∧ result = .error (.undefinedLabel x)) ∧
        (defined.Nodup → (∀ x ∈ l.labels nodes, x ∈ defined) →
          ∃ m, result = .ok m ∧ ∀ x ∈ l.labels nodes, m.labelName (number x) = x) ∧
        Agrees TableMethod.Represents result (l.toMethodInOrder fun names =>
          (arrange (names.map fun x => (x, number x))).map Prod.fst) ∧
        Agrees TableMethod.Represents (l.toTableMethod id) l.toMethod)) ∧
    ∀ p op, result ≠ .error (.operandMismatch p op) := by
  intro result
  refine ⟨fun _ => Line.exists_wellFormed_iff, ?_, ?_, l.toTableMethod_ne_mismatch harrange⟩
  · intro before line after e hcode hbefore hline
    exact ⟨tell_of_malformed _ _ _ hcode hbefore hline, tell_of_malformed _ _ _ hcode hbefore hline⟩
  intro found hfound nodes defined number
  obtain ⟨t, b, h⟩ := exists_toldTables hfound
  have hentries := harrange t.labels
  have hresult : result = t.buildInOrder (arrange t.labels) := h.result arrange
  have hfits := fits_of_wellFormed hfound
  have hverdict := h.verdict hentries
  rw [hresult]
  refine ⟨⟨hverdict, ?_, ?_⟩, fun hfew =>
    ⟨?_, ?_, ?_, hresult ▸ h.agrees hentries hfew, h.agrees_id hfew⟩⟩
  · rw [hverdict.exists_ok_iff, ← and_assoc, and_iff_left hfits]
  · intro m hm
    obtain ⟨hname, hdesc, hcode, hblocks, hposition⟩ := h.of_buildInOrder hm
    refine ⟨hname, hdesc, hcode, ?_, hblocks, hposition⟩
    rw [Code.size, ← Array.length_toList, hcode, List.length_map,
      Line.length_filterMap_of_wellFormed hfound]
  · intro before x after heq hbefore hx
    exact h.duplicate_of_few hentries hfew heq hbefore hx
  · exact h.undefined_of_few hentries hfew
  · exact h.exists_method_of_few hentries hfew hfits

/-- A listing in which one label is defined twice and two labels are not defined. -/
def repeats : MethodListing where
  name := "m"
  code := ["again:", "  goto  away ", "", "again:", "goto further"]

theorem toTableMethod_outcome_repeats :
    let hasty : MethodListing := { repeats with code := repeats.code ++ ["aload", "goto"] }
    let arrange : List (String × LabelId) → List (String × LabelId) := List.reverse
    (∀ entries, (arrange entries).Perm entries) ∧
      hasty.toTableMethod arrange = .error (.missingOperand "aload") ∧
      repeats.toTableMethod arrange = .error (.duplicateLabel "again") ∧
      (∃ m, untidy.toTableMethod arrange = .ok m ∧ m.labelName ⟨1⟩ = "end:x") ∧
      Agrees TableMethod.Represents (untidy.toTableMethod id) untidy.toMethod := by
  intro hasty arrange
  have harrange : ∀ entries, (arrange entries).Perm entries := List.reverse_perm
  obtain ⟨-, hmalformed, -, -⟩ := toTableMethod_outcome hasty arrange harrange
  obtain ⟨-, -, hrepeats, -⟩ := toTableMethod_outcome repeats arrange harrange
  obtain ⟨-, -, huntidy, -⟩ := toTableMethod_outcome untidy arrange harrange
  have hread : repeats.code.mapM Line.read = .ok [some (.label "again"),
      some (.insn ⟨.goto, .target "away"⟩), none, some (.label "again"),
      some (.insn ⟨.goto, .target "further"⟩)] := by
    decide +kernel
  have hread' : untidy.code.mapM Line.read = .ok [some (.label "try start"), none,
      some (.insn ⟨.aload, .slot 7⟩), some (.insn ⟨.goto, .target "end:x"⟩), none,
      some (.insn ⟨.invokevirtual, .member ⟨"a.b.", "c", "()V"⟩⟩),
      some (.insn ⟨.invokestatic, .member ⟨"", "", "()V"⟩⟩), some (.line 12), some .frame,
      some (.label "end:x"), some (.insn ⟨.returnVoid, .none⟩)] := by
    decide +kernel
  refine ⟨harrange, ?_, ?_, ?_⟩
  · have hbefore : ∀ other ∈ repeats.code, (Line.read other).isOk = true := by decide +kernel
    refine (hmalformed repeats.code "aload" ["goto"] _ rfl ?_
      (Line.read_eq_error_iff.1 (by decide +kernel))).1
    intro other hother
    obtain ⟨held, hheld⟩ := exists_eq_ok_of_isOk (hbefore other hother)
    exact ⟨held, Line.read_eq_ok_iff.1 hheld⟩
  · obtain ⟨-, hwords⟩ := hrepeats _ (Line.mapM_read_eq_ok_iff.1 hread)
    obtain ⟨hduplicate, -⟩ := hwords (by decide +kernel)
    exact hduplicate ["again"] "again" [] rfl (by simp) (by simp)
  · obtain ⟨-, hwords⟩ := huntidy _ (Line.mapM_read_eq_ok_iff.1 hread')
    obtain ⟨-, -, hok, -, hagree⟩ := hwords (by decide +kernel)
    obtain ⟨m, hm, hnames⟩ := hok (by decide +kernel) (by decide +kernel)
    exact ⟨⟨m, hm, hnames "end:x" (by decide +kernel)⟩, hagree⟩

end MethodListing

end TryResources
