import TryResources.Listing
import TryResources.Proofs.Building
import TryResources.Proofs.Lines
import TryResources.Report

/-!
# Listings that are written back

A method that was read from a listing can be listed again: each node as it is written, and the
entries of the exception table under the names of their labels. The new listing may differ from the
old one in blanks, empty lines and spellings of numbers, but describes the same method, down to the
numbers of its labels. An annotated method without its marks is such a listing.

* `MethodListing.relist`: a method listed again.
* `MethodListing.Numbered`: a method and the listing that it was read from, part by part.
* `Numbered.mapM_read`, `Numbered.map_labelName_blocks`: the parts of the new listing.
* `toMethod_relist`: it describes the same method.
-/

namespace TryResources

/-! ## What is written for a method -/

/-- All nodes of a method can be written, in order. -/
theorem Method.mapM_render (m : Method) :
    (List.range m.code.size).mapM m.render =
      .ok (m.code.nodes.toList.map (Node.render m.labelName)) := by
  refine mapM_range_eq_ok ?_
  intro p n hn
  rw [Array.getElem?_toList] at hn
  have hget : m.code.get p = .ok n := by
    rw [Code.get, Code.get?, hn]
  rw [render, hget]
  rfl

/-- A line of a report without its mark. -/
def Report.unmark (line : String) : String :=
  String.ofList line.toList.tail

/-- The blanks between the mark and a node. -/
def Report.margin (n : Node LabelId) : String :=
  " " ++ if n.kind = .labelMarker then "" else "    "

theorem Report.isBlank_of_mem_margin (n : Node LabelId) :
    ∀ c ∈ (margin n).toList, Text.isBlank c = true := by
  intro c hc
  have hspace : c = ' ' := by
    unfold margin at hc
    split at hc <;> simpa using hc
  rw [hspace]
  decide

theorem Report.unmark_nodeLine (m : Method) (ranges : List Range) (n : Node LabelId) (p : Nat) :
    unmark (nodeLine m ranges n p) = margin n ++ n.render m.labelName := by
  rw [← String.toList_inj]
  simp [unmark, nodeLine, margin]

theorem Report.map_unmark_nodeLines (m : Method) (ranges : List Range) :
    (nodeLines m ranges).map unmark =
      m.code.nodes.toList.map fun n => margin n ++ n.render m.labelName := by
  rw [nodeLines, List.map_map]
  calc m.code.nodes.toList.zipIdx.map _
      _ = m.code.nodes.toList.zipIdx.map
          ((fun n => margin n ++ n.render m.labelName) ∘ Prod.fst) :=
        List.map_congr_left fun x _ => unmark_nodeLine m ranges x.1 x.2
      _ = m.code.nodes.toList.map fun n => margin n ++ n.render m.labelName := by
        rw [← List.map_map, List.zipIdx_map_fst]

/-! ## Listing again -/

namespace MethodListing

/-- A listing of a method that was read from another one: its lines are given, and the entries of
its exception table go by the names of their labels. -/
def relist (l : MethodListing) (m : Method) (lines : List String) : MethodListing :=
  { l with
    code := lines
    table := m.blocks.map (Block.map m.labelName) }

variable {l : MethodListing} {m : Method}

/-- The directives for the lines, once these are read. -/
theorem codeDirectives_of_mapM {ns : List (Option (Node String))}
    (h : l.code.mapM Line.read = .ok ns) :
    l.codeDirectives = .ok ((ns.filterMap id).map .emit) := by
  have hemit : (ns.filterMap id).map Directive.emit = ns.filterMap fun n => n.map .emit := by
    rw [List.map_filterMap]
    rfl
  rw [codeDirectives, h, hemit]
  rfl

/-- Nodes and table entries, as directives. -/
theorem filterMap_directives (nodes : List (Node String)) (entries : List (Block String)) :
    let ds := nodes.map Directive.emit ++ entries.map Directive.protect
    ds.filterMap Directive.node? = nodes ∧ ds.filterMap Directive.block? = entries := by
  simp only [List.filterMap_append, List.filterMap_map, Function.comp_def, Directive.node?,
    Directive.block?, List.filterMap_some, List.filterMap_none, List.append_nil, List.nil_append,
    and_self]

/-- The lines of a listing hold some nodes. A method has these nodes and the table entries of the
listing, with numbers for labels, and gives the labels their names back. -/
structure Numbered (l : MethodListing) (m : Method) (nodes : List (Node String))
    (number : String → LabelId) : Prop where
  directives : l.codeDirectives = .ok (nodes.map .emit)
  exists_line : ∀ n ∈ nodes, ∃ line, Line.read line = .ok (some n)
  code_eq : m.code.nodes.toList = nodes.map (Node.map number)
  blocks_eq : m.blocks = l.table.map (Block.map number)
  node_names : ∀ n ∈ nodes, ∀ x ∈ n.labels, m.labelName (number x) = x
  block_names : ∀ e ∈ l.table, ∀ x ∈ e.labels, m.labelName (number x) = x

/-- A method that was read is the listing with its labels numbered. -/
theorem exists_numbered (h : l.toMethod = .ok m) : ∃ nodes number, l.Numbered m nodes number := by
  rw [toMethod, tell_bind] at h
  obtain ⟨ds, hds, hbuild⟩ := bind_eq_ok_iff.1 h
  obtain ⟨ns, hns, -⟩ := bind_eq_ok_iff.1 hds
  have hcode := codeDirectives_of_mapM hns
  obtain rfl := Except.ok.inj (hds.symm.trans hcode)
  have hline : ∀ n ∈ ns.filterMap id, ∃ line, Line.read line = .ok (some n) := by
    intro n hn
    obtain ⟨_, hread, rfl⟩ := List.mem_filterMap.1 hn
    obtain ⟨line, -, hline⟩ := exists_of_mem_mapM hns hread
    exact ⟨line, hline⟩
  generalize ns.filterMap id = nodes at hbuild hcode hline
  have hblank : l.blank.Describes [] := ⟨by simp, rfl, rfl⟩
  have hbuilt := hblank.run (nodes.map .emit ++ l.tableDirectives)
  change (l.blank.run (nodes.map .emit ++ l.tableDirectives)).build = .ok m at hbuild
  generalize l.blank.run (nodes.map .emit ++ l.tableDirectives) = b at hbuild hbuilt
  have hname {d : Directive} (hd : d ∈ nodes.map .emit ++ l.tableDirectives) :
      ∀ x ∈ d.labels, m.labelName (b.labelOf x) = x := by
    intro x hx
    exact Builder.labelName_labelOf hbuild (hbuilt.mem d hd x hx)
  obtain ⟨hemitted, hprotected⟩ := filterMap_directives nodes l.table
  obtain rfl := Builder.build_eq_ok hbuild
  exact ⟨nodes, b.labelOf,
    { directives := hcode
      exists_line := hline
      code_eq := hbuilt.nodes.trans (congrArg (List.map _) hemitted)
      blocks_eq := hbuilt.blocks.trans (congrArg (List.map _) hprotected)
      node_names := fun n hn => hname (List.mem_append_left _ (List.mem_map_of_mem hn))
      block_names := fun e he => hname (List.mem_append_right _ (List.mem_map_of_mem he)) }⟩

section

variable {nodes : List (Node String)} {number : String → LabelId} {pad : Node LabelId → String}

/-- A node is written as it is under the names that its labels were given. -/
theorem Numbered.render_map (hm : l.Numbered m nodes number) {n : Node String} (hn : n ∈ nodes) :
    (n.map number).render m.labelName = n.render id := by
  rw [Node.render_map]
  exact Node.render_congr (hm.node_names n hn)

/-- What is written for the nodes of the method is read as the nodes that the lines hold, whatever
blanks are put in front. -/
theorem Numbered.mapM_read (hm : l.Numbered m nodes number)
    (hpad : ∀ n, ∀ c ∈ (pad n).toList, Text.isBlank c = true) :
    (m.code.nodes.toList.map fun n => pad n ++ n.render m.labelName).mapM Line.read =
      .ok (nodes.map some) := by
  rw [hm.code_eq, List.map_map]
  refine mapM_map_eq_ok ?_
  intro n hn
  obtain ⟨line, hline⟩ := hm.exists_line n hn
  show Line.read (pad (n.map number) ++ (n.map number).render m.labelName) = _
  rw [hm.render_map hn]
  exact Line.read_render hline (hpad _)

/-- With names for labels, the table of the method is that of the listing. -/
theorem Numbered.map_labelName_blocks (hm : l.Numbered m nodes number) :
    m.blocks.map (Block.map m.labelName) = l.table := by
  rw [hm.blocks_eq, List.map_map]
  refine (List.map_congr_left ?_).trans (List.map_id _)
  intro e he
  have hnames : ∀ x ∈ e.labels, m.labelName (number x) = id x := hm.block_names e he
  exact (Block.map_congr hnames : e.map (fun x => m.labelName (number x)) = e.map id)

/-- So the new listing describes the method. -/
theorem toMethod_relist_of_pad (h : l.toMethod = .ok m) (pad : Node LabelId → String)
    (hpad : ∀ n, ∀ c ∈ (pad n).toList, Text.isBlank c = true) :
    (l.relist m (m.code.nodes.toList.map fun n => pad n ++ n.render m.labelName)).toMethod =
      .ok m := by
  obtain ⟨nodes, number, hm⟩ := exists_numbered h
  have hread := hm.mapM_read hpad
  generalize m.code.nodes.toList.map (fun n => pad n ++ n.render m.labelName) = lines at hread ⊢
  have hcode : (l.relist m lines).codeDirectives = l.codeDirectives := by
    rw [codeDirectives_of_mapM hread, hm.directives, List.filterMap_map]
    simp
  have htable : (l.relist m lines).tableDirectives = l.tableDirectives :=
    congrArg (List.map Directive.protect) hm.map_labelName_blocks
  rw [toMethod, tell_bind, hcode, htable]
  rwa [toMethod, tell_bind] at h

end

/-- **Listings are written back.** If a listing describes a method, then the nodes of the method as
they are written, together with its table entries under the names of their labels, describe the same
method: with the same nodes, the same numbers and names of labels and the same table. So do the
lines of a report on the method, whatever ranges are marked, once the marks are dropped. -/
theorem toMethod_relist (h : l.toMethod = .ok m) :
    (∃ lines, (List.range m.code.size).mapM m.render = .ok lines ∧
      (l.relist m lines).toMethod = .ok m) ∧
    ∀ ranges, (l.relist m ((Report.nodeLines m ranges).map Report.unmark)).toMethod = .ok m := by
  constructor
  · refine ⟨_, m.mapM_render, ?_⟩
    have hplain := toMethod_relist_of_pad h (fun _ => "") (by simp)
    simpa using hplain
  · intro ranges
    rw [Report.map_unmark_nodeLines]
    exact toMethod_relist_of_pad h Report.margin Report.isBlank_of_mem_margin

/-- A listing that is padded and has blank lines, labels with a space and a colon in them, one of
them used before it is placed, numbers with a sign and with leading zeros, and references to methods
with many dots and with nothing around the dot. -/
def untidy : MethodListing where
  name := "m"
  code := ["  try start :", "", " aload  +007 ", "goto end:x", "  ", "invokevirtual a.b..c ()V",
    "invokestatic . ()V", "line 0012", "\tframe", "end:x:", "return"]
  table := [⟨"try start", "end:x", "end:x", some "java/lang/Throwable"⟩]

/-- What `untidy` describes. -/
def tidied : Method where
  name := "m"
  desc := "()V"
  code := .ofList [.label ⟨0⟩, .insn ⟨.aload, .slot 7⟩, .insn ⟨.goto, .target ⟨1⟩⟩,
    .insn ⟨.invokevirtual, .member ⟨"a.b.", "c", "()V"⟩⟩,
    .insn ⟨.invokestatic, .member ⟨"", "", "()V"⟩⟩, .line 12, .frame, .label ⟨1⟩,
    .insn ⟨.returnVoid, .none⟩]
  blocks := [⟨⟨0⟩, ⟨1⟩, ⟨1⟩, some "java/lang/Throwable"⟩]
  labelNames := ["try start", "end:x"]

theorem toMethod_relist_untidy :
    let lines := ["try start:", "aload 7", "goto end:x", "invokevirtual a.b..c ()V",
      "invokestatic . ()V", "line 12", "frame", "end:x:", "return"]
    untidy.toMethod = .ok tidied ∧ (untidy.relist tidied lines).toMethod = .ok tidied ∧
      (untidy.relist tidied ((Report.nodeLines tidied []).map Report.unmark)).toMethod =
        .ok tidied := by
  intro lines
  have h : untidy.toMethod = .ok tidied := by decide +kernel
  obtain ⟨⟨lines', hlines', hback⟩, hreport⟩ := toMethod_relist h
  have hlines : lines' = lines := by
    rw [Method.mapM_render] at hlines'
    rw [← Except.ok.inj hlines']
    decide +kernel
  exact ⟨h, hlines ▸ hback, hreport []⟩

end MethodListing

end TryResources
