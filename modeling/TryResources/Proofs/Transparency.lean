import TryResources.Proofs.Exclusion
import TryResources.Proofs.Footprint
import TryResources.Proofs.Padding
import TryResources.Proofs.Simulation

/-!
# What markers can hide

Debug information and stack maps are markers between the nodes of a body, and labels are what jumps
name. The templates of javac see neither: whatever markers are put between nodes and wherever jumps
lead, the same statements are recognised, at the places where their nodes went. The templates of
ecj look for labels. Markers that are put in never make them recognise a statement that was not
there; they may hide one, but only in front of a label.

* `Javac.Sighted.pad`, `Ecj.FlowOut.Sighted.pad`, `Ecj.NoFlowOut.Sighted.pad` and their converses
  `of_pad`: what becomes of a statement; `Template.Sighted` collects them.
* `attempt_javac_transparent`: the templates of javac.
* `attempt_pad_fresh`: all templates, those of ecj among them.
-/

namespace TryResources

open Matching

/-- What becomes of a sighting: its nodes go to their places, and the handler starts at `first`. -/
def Padding.sighting (g : Padding) (first : Nat) (w : Sighting) : Sighting :=
  ⟨w.normal.map g.place, ⟨first, g.place w.handler.last⟩⟩

variable {c : Code} {g : Padding} {s m l n : Nat} {w w' : Sighting}

/-! ## Statements compiled by javac -/

namespace Javac

variable {shape : Shape} {x : Locals} {e : Slot}

theorem isInsn_handling {t : Token} (ht : t ∈ handling x e shape) : t.IsInsn := by
  revert t
  cases shape <;> simp [handling, closing, ifNull, byHelper, inPlace, Token.IsInsn]

theorem isInsn_closings {ts : List Token} (hts : ts ∈ closings x shape) :
    ts ≠ [] ∧ ∀ t ∈ ts, t.IsInsn := by
  obtain ⟨e, rfl⟩ := hts
  cases shape <;> simp [closing, ifNull, byHelper, inPlace, Token.IsInsn]

theorem EndsAt.pad (h : EndsAt c (m + 1) l) : EndsAt (c.pad g) (g.place m + 1) (g.place l) := by
  rcases h with ⟨i, hi, hjump⟩ | ⟨hl, hnone⟩
  · left
    exact ⟨i, hi.pad (leads_succ g m), hjump⟩
  · right
    obtain rfl := Nat.succ.inj hl
    refine ⟨rfl, ?_⟩
    intro q i hi
    obtain ⟨q, -, hbefore⟩ := hi.of_pad (leads_succ g l)
    exact hnone q i hbefore

theorem EndsAt.of_pad {l' : Nat} (h : EndsAt (c.pad g) (g.place m + 1) l') :
    ∃ l, l' = g.place l ∧ EndsAt c (m + 1) l := by
  rcases h with ⟨i, hi, hjump⟩ | ⟨hl, hnone⟩
  · obtain ⟨l, rfl, hbefore⟩ := hi.of_pad (leads_succ g m)
    exact ⟨l, rfl, .inl ⟨i, hbefore, hjump⟩⟩
  · refine ⟨m, Nat.succ.inj hl, .inr ⟨rfl, ?_⟩⟩
    intro q i hi
    exact hnone _ i (hi.pad (leads_succ g m))

theorem Sighted.pad (h : Sighted c shape s x w) :
    Sighted (c.pad g) shape (g.place s) x (g.sighting (g.place s + 1) w) := by
  obtain ⟨⟨e, hhandler⟩, -, hgreatest, ts, hts, q, hblock, hends⟩ := h
  obtain ⟨hne, hinsn⟩ := isInsn_closings hts
  have hhandler' := hhandler.pad_last (leads_place g s) (.inl fun t => isInsn_handling)
    (by simp [handling])
  obtain ⟨m, rfl, hblock'⟩ := hblock.pad (leads_place g _) (.inl hinsn) hne
  have hgreatest' := (isGreatest_pad_iff (g := g) fun ts => isInsn_closings).2 ⟨_, rfl, hgreatest⟩
  exact ⟨⟨e, hhandler'⟩, rfl, hgreatest', ts, hts, _, hblock', hends.pad⟩

theorem Sighted.of_pad (h : Sighted (c.pad g) shape (g.place s) x w') :
    ∃ w, w' = g.sighting (g.place s + 1) w ∧ Sighted c shape s x w := by
  obtain ⟨⟨f', l'⟩, ⟨s', e'⟩⟩ := w'
  obtain ⟨⟨e, hhandler'⟩, hfirst', hgreatest', ts, hts, q, hblock', hends'⟩ := h
  obtain ⟨hne, hinsn⟩ := isInsn_closings hts
  obtain rfl : s' = g.place s + 1 := hfirst'
  obtain ⟨f, hf, hgreatest⟩ := (isGreatest_pad_iff fun ts => isInsn_closings).1 hgreatest'
  obtain rfl : f' = g.place f := hf
  obtain ⟨k, hk, hhandler⟩ :=
    hhandler'.of_pad_insn (leads_place g s) (fun t => isInsn_handling) (by simp [handling])
  obtain rfl : e' = g.place k := Nat.succ.inj hk
  obtain ⟨m, rfl, hblock⟩ := hblock'.of_pad_insn (leads_place g f) hinsn hne
  obtain ⟨l, hl, hends⟩ := EndsAt.of_pad hends'
  obtain rfl : l' = g.place l := hl
  exact ⟨⟨⟨f, l⟩, ⟨s + 1, k⟩⟩, rfl, ⟨e, hhandler⟩, rfl, hgreatest, ts, hts, _, hblock, hends⟩

/-! ## Jumps -/

/-- The templates of javac check where no jump leads. -/
theorem ne_jump_of_mem {st : Step} (h : st ∈ handlers shape ∨ st ∈ close .normal shape)
    (o : Opcode) (name : LabelName) : st ≠ .jump o name := by
  rintro rfl
  cases shape <;> simp [handlers, close, nullCheck, closeByHelper, closeInPlace, loadPrimary,
    loadResource] at h

end Javac

/-- An instruction with another label to jump to, if it is a jump. -/
def Node.retarget (f : LabelId → LabelId) : Node LabelId → Node LabelId
  | .insn i => .insn (i.map f)
  | n => n

/-- A body with its jumps leading elsewhere: at position `p` a label is replaced by what
`targets p` makes of it. -/
def Code.retarget (targets : Nat → LabelId → LabelId) (c : Code) : Code :=
  c.mapNodes fun p => Node.retarget (targets p)

theorem Step.respects_retarget (targets : Nat → LabelId → LabelId) {st : Step}
    (hst : ∀ o name, st ≠ .jump o name) :
    st.Respects (fun p => Node.retarget (targets p)) id := by
  intro p n b
  cases n with
  | insn i =>
    obtain ⟨o, operand⟩ := i
    cases st with
    | jump o name => exact absurd rfl (hst o name)
    | _ =>
      cases operand <;> simp [Step.accepts, Step.acceptsInsn, Node.retarget, Instruction.map,
        Operand.map, Operand.slot?, Operand.member?]
  | _ => simp [Node.retarget]

theorem attempt_javac_retarget (targets : Nat → LabelId → LabelId) (c : Code)
    (shape : Javac.Shape) (k : Matcher) (s : Nat) :
    ((k.restart s).attempt (c.retarget targets) (.javac shape)).1 =
      ((k.restart s).attempt c (.javac shape)).1 := by
  have hopcodes : KeepsOpcodes fun p => Node.retarget (targets p) := by
    intro p n
    cases n <;> rfl
  refine attempt_javac_mapNodes hopcodes (g := id) rfl ?_ ?_ c k s
  · intro st hst
    exact Step.respects_retarget targets (Javac.ne_jump_of_mem (.inl hst))
  · intro st hst
    exact Step.respects_retarget targets (Javac.ne_jump_of_mem (.inr hst))

/-! ## Statements compiled by ecj -/

namespace Ecj

variable {primary slot : Slot} {owner : String} {target : LabelId} {u : Nat → Use} {last : Merging}

theorem isInsn_closing : ∀ t ∈ closing slot owner target, t.IsInsn := by
  simp [closing, Token.IsInsn]

theorem isInsn_closings {ts : List Token} (hts : ts ∈ closings slot owner) :
    ts ≠ [] ∧ ∀ t ∈ ts, t.IsInsn := by
  obtain ⟨target, rfl⟩ := hts
  exact ⟨by simp [closing], isInsn_closing⟩

theorem aimed_closingAndThrowing (primary : Slot) (u : Use) :
    Aimed (closingAndThrowing primary u) := by
  intro l hl
  obtain rfl : l = u.closed := by simpa [closingAndThrowing] using hl
  exact ⟨.ifnull, by simp [closingAndThrowing]⟩

theorem aimed_merging (primary : Slot) (m : Merging) : Aimed (merging primary m) := by
  intro l hl
  obtain rfl | rfl : l = m.present ∨ l = m.merged := by simpa [merging] using hl
  · exact ⟨.ifnonnull, by simp [merging]⟩
  · exact ⟨.goto, by simp [merging]⟩

theorem aimed_throwing (primary : Slot) : Aimed (throwing primary) :=
  aimed_of_isInsn (by simp [throwing, Token.IsInsn])

namespace FlowOut

theorem aimed_handling : Aimed (handling primary u last n) := by
  have hfirst : Aimed [.slot .astore primary] := aimed_of_isInsn (by simp [Token.IsInsn])
  have hnext (i : Nat) : Aimed (closingNext primary (u i)) := by
    have hclosing : Aimed (closing (u i).slot (u i).owner (u i).skipped) :=
      aimed_of_isInsn isInsn_closing
    have hjump : Aimed [.jump .goto (u i).skipped] := aimed_of_isInsn (by simp [Token.IsInsn])
    exact (hclosing.append (hjump.append (aimed_merging primary _))).append
      (aimed_closingAndThrowing primary _)
  exact (hfirst.append (aimed_closingAndThrowing primary _)).append
    ((Aimed.flatMap hnext _).append ((aimed_merging primary last).append (aimed_throwing primary)))

theorem Sighted.pad (h : Sighted c s n primary u last w) (hkeeps : g.KeepsLabels c) :
    Sighted (c.pad g) (g.place s) n primary u last (g.sighting (g.place s + 1) w) := by
  obtain ⟨hn, hhandler, -, hgreatest, ts, hts, q, i, hblock, hi, hjump⟩ := h
  obtain ⟨hne, hinsn⟩ := isInsn_closings hts
  have hhandler' := hhandler.pad_last (leads_place g s) (.inr hkeeps) (by simp [handling])
  have hgreatest' := (isGreatest_pad_iff (g := g) fun ts => isInsn_closings).2 ⟨_, rfl, hgreatest⟩
  obtain ⟨m, rfl, hblock'⟩ := hblock.pad (leads_place g _) (.inl hinsn) hne
  have hi' := hi.pad (leads_succ g m)
  exact ⟨hn, hhandler', rfl, hgreatest', ts, hts, _, i, hblock', hi', hjump⟩

theorem Sighted.of_pad (h : Sighted (c.pad g) (g.place s) n primary u last w')
    (hfresh : g.Fresh c) :
    ∃ w, w' = g.sighting (g.place s + 1) w ∧ Sighted c s n primary u last w := by
  obtain ⟨⟨f', l'⟩, ⟨s', e'⟩⟩ := w'
  obtain ⟨hn, hhandler', hfirst', hgreatest', ts, hts, q, i, hblock', hi', hjump⟩ := h
  obtain ⟨hne, hinsn⟩ := isInsn_closings hts
  obtain rfl : s' = g.place s + 1 := hfirst'
  obtain ⟨f, hf, hgreatest⟩ := (isGreatest_pad_iff fun ts => isInsn_closings).1 hgreatest'
  obtain rfl : f' = g.place f := hf
  obtain ⟨k, hk, hhandler⟩ := hhandler'.of_pad (leads_place g s)
    (hhandler'.notMem_gap aimed_handling hfresh) (by simp [handling])
  obtain rfl : e' = g.place k := Nat.succ.inj hk
  obtain ⟨m, rfl, hblock⟩ := hblock'.of_pad_insn (leads_place g f) hinsn hne
  obtain ⟨l, hl, hi⟩ := hi'.of_pad (leads_succ g m)
  obtain rfl : l' = g.place l := hl
  exact ⟨⟨⟨f, l⟩, ⟨s + 1, k⟩⟩, rfl, hn, hhandler, rfl, hgreatest, ts, hts, _, i, hblock, hi, hjump⟩

end FlowOut

namespace NoFlowOut

theorem isInsn_firstClosings {ts : List Token} (hts : ts ∈ firstClosings u n) :
    ts ≠ [] ∧ ∀ t ∈ ts, t.IsInsn := by
  obtain ⟨slot, owner, target, -, rfl⟩ := hts
  exact ⟨by simp [closing], isInsn_closing⟩

theorem isInsn_otherClosings {ts : List Token} (hts : ts ∈ otherClosings u n) :
    ∀ t ∈ ts, t.IsInsn := by
  obtain ⟨targets, rfl⟩ := hts
  intro t ht
  obtain ⟨i, -, ht⟩ := List.mem_flatMap.1 ht
  exact isInsn_closing t ht

theorem isInsn_normal {xs ys : List Token} (hxs : xs ∈ firstClosings u n)
    (hys : ys ∈ otherClosings u n) : xs ++ ys ≠ [] ∧ ∀ t ∈ xs ++ ys, t.IsInsn := by
  obtain ⟨hne, hinsn⟩ := isInsn_firstClosings hxs
  refine ⟨List.append_ne_nil_of_left_ne_nil hne ys, ?_⟩
  intro t ht
  rcases List.mem_append.1 ht with ht | ht
  · exact hinsn t ht
  · exact isInsn_otherClosings hys t ht

theorem aimed_handling : Aimed (handling primary u n) := by
  have hfirst : Aimed [.slot .astore primary] := aimed_of_isInsn (by simp [Token.IsInsn])
  have hresource (i : Nat) : Aimed (handlingOf primary (u i)) :=
    (aimed_closingAndThrowing primary _).append (aimed_merging primary _)
  exact hfirst.append ((Aimed.flatMap hresource _).append (aimed_throwing primary))

theorem Sighted.pad (h : Sighted c s n primary u w) (hkeeps : g.KeepsLabels c) :
    Sighted (c.pad g) (g.place s) n primary u (g.sighting (g.place s) w) := by
  obtain ⟨hhandler, -, hgreatest, xs, hxs, ys, hys, hnormal⟩ := h
  obtain ⟨hne, hinsn⟩ := isInsn_normal hxs hys
  have hhandler' := hhandler.pad_last (leads_place g s) (.inr hkeeps) (by simp [handling])
  have hgreatest' :=
    (isGreatest_pad_iff (g := g) fun ts => isInsn_firstClosings).2 ⟨_, rfl, hgreatest⟩
  have hnormal' := hnormal.pad_last (leads_place g _) (.inl hinsn) hne
  exact ⟨hhandler', rfl, hgreatest', xs, hxs, ys, hys, hnormal'⟩

theorem Sighted.of_pad (h : Sighted (c.pad g) (g.place s) n primary u w') (hfresh : g.Fresh c) :
    ∃ w, w' = g.sighting (g.place s) w ∧ Sighted c s n primary u w := by
  obtain ⟨⟨f', l'⟩, ⟨s', e'⟩⟩ := w'
  obtain ⟨hhandler', hfirst', hgreatest', xs, hxs, ys, hys, hnormal'⟩ := h
  obtain ⟨hne, hinsn⟩ := isInsn_normal hxs hys
  obtain rfl : s' = g.place s := hfirst'
  obtain ⟨f, hf, hgreatest⟩ := (isGreatest_pad_iff fun ts => isInsn_firstClosings).1 hgreatest'
  obtain rfl : f' = g.place f := hf
  obtain ⟨k, hk, hhandler⟩ := hhandler'.of_pad (leads_place g s)
    (hhandler'.notMem_gap aimed_handling hfresh) (by simp [handling])
  obtain rfl : e' = g.place k := Nat.succ.inj hk
  obtain ⟨l, hl, hnormal⟩ := hnormal'.of_pad_insn (leads_place g f) hinsn hne
  obtain rfl : l' = g.place l := Nat.succ.inj hl
  exact ⟨⟨⟨f, l⟩, ⟨s, k⟩⟩, rfl, hhandler, rfl, hgreatest, xs, hxs, ys, hys, hnormal⟩

end NoFlowOut

end Ecj

/-! ## Attempts -/

namespace Template

/-- Where the handler of a statement starts, if the template is started at `s`. -/
def handlerFirst : Template → Nat → Nat
  | ecjNoFlowOut, s => s
  | _, s => s + 1

/-- The code contains a statement that fits a template, and `w` says where. -/
def Sighted (t : Template) (c : Code) (s : Nat) (w : Sighting) : Prop :=
  match t with
  | javac shape => ∃ x, Javac.Sighted c shape s x w
  | ecj => ∃ n primary u last, Ecj.FlowOut.Sighted c s n primary u last w
  | ecjNoFlowOut => ∃ n primary u, Ecj.NoFlowOut.Sighted c s n primary u w

variable {t : Template}

theorem Sighted.handlerFirst (h : t.Sighted c s w) : w.handler.first = t.handlerFirst s := by
  cases t with
  | javac shape =>
    obtain ⟨x, hx⟩ := h
    exact hx.handlerFirst
  | ecj =>
    obtain ⟨n, primary, u, last, hu⟩ := h
    exact hu.handlerFirst
  | ecjNoFlowOut =>
    obtain ⟨n, primary, u, hu⟩ := h
    exact hu.handlerFirst

/-- A statement goes where its nodes go. Only the templates of ecj ask for labels. -/
theorem Sighted.pad (h : t.Sighted c s w) (ht : t.shape? = none → g.KeepsLabels c) :
    t.Sighted (c.pad g) (g.place s) (g.sighting (t.handlerFirst (g.place s)) w) := by
  cases t with
  | javac shape =>
    obtain ⟨x, hx⟩ := h
    exact ⟨x, hx.pad⟩
  | ecj =>
    obtain ⟨n, primary, u, last, hu⟩ := h
    exact ⟨n, primary, u, last, hu.pad (ht rfl)⟩
  | ecjNoFlowOut =>
    obtain ⟨n, primary, u, hu⟩ := h
    exact ⟨n, primary, u, hu.pad (ht rfl)⟩

/-- A statement in the padded body comes from where its nodes come from. -/
theorem Sighted.of_pad (h : t.Sighted (c.pad g) (g.place s) w')
    (ht : t.shape? = none → g.Fresh c) :
    ∃ w, w' = g.sighting (t.handlerFirst (g.place s)) w ∧ t.Sighted c s w := by
  cases t with
  | javac shape =>
    obtain ⟨x, hx⟩ := h
    obtain ⟨w, hw, hbefore⟩ := hx.of_pad
    exact ⟨w, hw, x, hbefore⟩
  | ecj =>
    obtain ⟨n, primary, u, last, hu⟩ := h
    obtain ⟨w, hw, hbefore⟩ := hu.of_pad (ht rfl)
    exact ⟨w, hw, n, primary, u, last, hbefore⟩
  | ecjNoFlowOut =>
    obtain ⟨n, primary, u, hu⟩ := h
    obtain ⟨w, hw, hbefore⟩ := hu.of_pad (ht rfl)
    exact ⟨w, hw, n, primary, u, hbefore⟩

end Template

section

variable {t : Template}

theorem attempt_eq_some_iff_sighted {k : Matcher} :
    ((k.restart s).attempt c t).1 = some w ↔ t.Sighted c s w := by
  cases t with
  | javac shape => exact Javac.attempt_eq_some_iff
  | ecj => exact Ecj.FlowOut.attempt_eq_some_iff
  | ecjNoFlowOut => exact Ecj.NoFlowOut.attempt_eq_some_iff

/-- What a template finds in the padded body, it found before. -/
theorem exists_of_attempt_pad (ht : t.shape? = none → g.Fresh c) (k k' : Matcher)
    (h : ((k'.restart (g.place s)).attempt (c.pad g) t).1 = some w') :
    ∃ w, ((k.restart s).attempt c t).1 = some w ∧
      w' = g.sighting (t.handlerFirst (g.place s)) w := by
  obtain ⟨w, hw, hbefore⟩ := (attempt_eq_some_iff_sighted.1 h).of_pad ht
  exact ⟨w, attempt_eq_some_iff_sighted.2 hbefore, hw⟩

theorem attempt_pad (hkeeps : t.shape? = none → g.KeepsLabels c)
    (hfresh : t.shape? = none → g.Fresh c) (k k' : Matcher) :
    ((k'.restart (g.place s)).attempt (c.pad g) t).1 =
      ((k.restart s).attempt c t).1.map (g.sighting (t.handlerFirst (g.place s))) := by
  ext w'
  rw [Option.map_eq_some_iff]
  constructor
  · intro h
    obtain ⟨w, hw, rfl⟩ := exists_of_attempt_pad hfresh k k' h
    exact ⟨w, hw, rfl⟩
  · intro h
    obtain ⟨w, hw, rfl⟩ := h
    exact attempt_eq_some_iff_sighted.2 ((attempt_eq_some_iff_sighted.1 hw).pad hkeeps)

end

/-- **Markers and jump targets do not matter to javac.** Whatever markers are put between the nodes
of a body, none of them in front of the first node, and wherever its jumps lead: a template of javac
finds a statement exactly where it found one before, and reports the places where its nodes went.
The handler starts right behind the node that the template is started at, and the normal path never
starts on a marker. -/
theorem attempt_javac_transparent (c : Code) (g : Padding) (targets : Nat → LabelId → LabelId)
    (shape : Javac.Shape) (k k' : Matcher) (s : Nat) :
    let found := ((k.restart s).attempt c (.javac shape)).1
    let found' :=
      ((k'.restart (g.place s)).attempt ((c.retarget targets).pad g) (.javac shape)).1
    found' = found.map (g.sighting (g.place s + 1)) ∧
      ∀ w ∈ found, w.handler.first = s + 1 ∧ ∃ i, c.insn? w.normal.first = some i := by
  intro found found'
  constructor
  · show ((k'.restart (g.place s)).attempt ((c.retarget targets).pad g) (.javac shape)).1 = _
    have hjavac {P : Prop} : (Template.javac shape).shape? = none → P := by
      intro h
      cases h
    rw [attempt_pad hjavac hjavac k k', attempt_javac_retarget]
    rfl
  · intro w hw
    obtain ⟨x, hx⟩ := attempt_eq_some_iff_sighted.1 hw
    exact ⟨hx.handlerFirst, hx.normalFirst.1.2.2.1⟩

/-- A line number behind one node. -/
def lineBehind (q number : Nat) : Padding where
  gap p := if p = q + 1 then [.line number] else []
  isMarker := by
    intro p n hn
    split at hn
    · rw [List.mem_singleton.1 hn]
      rfl
    · cases hn
  zero := if_neg (by omega)

theorem attempt_javac_transparent_twoStatements :
    let attempt (c : Code) (s : Nat) := ((({} : Matcher).restart s).attempt c (.javac .optimal)).1
    attempt twoStatements 4 = some ⟨⟨1, 3⟩, ⟨5, 15⟩⟩ ∧
      attempt ((twoStatements.retarget fun _ _ => ⟨0⟩).pad (lineBehind 1 5)) 5 =
        some ⟨⟨1, 4⟩, ⟨6, 16⟩⟩ := by
  intro attempt
  have h : attempt twoStatements 4 = some ⟨⟨1, 3⟩, ⟨5, 15⟩⟩ := by decide +kernel
  have h' := (attempt_javac_transparent twoStatements (lineBehind 1 5) (fun _ _ => ⟨0⟩) .optimal
    {} {} 4).1
  exact ⟨h, h'.trans ((congrArg _ h).trans rfl)⟩

/-- **Markers can hide statements, but make none up.** Put markers between the nodes of a body, none
of them in front of the first node, and the labels among them mentioned nowhere in the body. What a
template finds then, be it one of ecj, it found before, at the places where its nodes come from. If
nothing is put right in front of a label, it also finds again all that it found before. -/
theorem attempt_pad_fresh (hfresh : g.Fresh c) (t : Template) (k k' : Matcher) (s : Nat) :
    let found := ((k.restart s).attempt c t).1
    let found' := ((k'.restart (g.place s)).attempt (c.pad g) t).1
    (∀ w ∈ found, w.handler.first = t.handlerFirst s) ∧
    (∀ w' ∈ found', ∃ w ∈ found, w' = g.sighting (t.handlerFirst (g.place s)) w) ∧
    (g.KeepsLabels c → found' = found.map (g.sighting (t.handlerFirst (g.place s)))) := by
  intro found found'
  refine ⟨?_, ?_, ?_⟩
  · intro w hw
    exact (attempt_eq_some_iff_sighted.1 hw).handlerFirst
  · intro w' hw'
    exact exists_of_attempt_pad (fun _ => hfresh) k k' hw'
  · intro hkeeps
    exact attempt_pad (fun _ => hkeeps) (fun _ => hfresh) k k'

/-- Some debug information and a new label, within a statement and in front of no label of
`twoStatements`. -/
def scatteredMarkers : Padding where
  gap p := if p = 17 then [.frame, .label ⟨99⟩] else if p = 30 then [.line 5] else []
  isMarker := by
    intro p n hn
    split at hn
    · rcases List.mem_pair.1 hn with rfl | rfl <;> rfl
    · split at hn
      · rw [List.mem_singleton.1 hn]
        rfl
      · cases hn
  zero := rfl

/-- The statement of ecj keeps its place among these markers. A line number right in front of a
label hides it from the template that asks for the label. -/
theorem attempt_pad_fresh_twoStatements :
    let attempt (c : Code) (s : Nat) (t : Template) := ((({} : Matcher).restart s).attempt c t).1
    let padded := twoStatements.pad scatteredMarkers
    scatteredMarkers.Fresh twoStatements ∧ scatteredMarkers.KeepsLabels twoStatements ∧
      attempt twoStatements 22 .ecj = some ⟨⟨16, 21⟩, ⟨23, 46⟩⟩ ∧
      attempt padded 24 .ecj = some ⟨⟨16, 23⟩, ⟨25, 49⟩⟩ ∧
      attempt twoStatements 22 .ecjNoFlowOut = some ⟨⟨16, 19⟩, ⟨22, 46⟩⟩ ∧
      attempt padded 24 .ecjNoFlowOut = some ⟨⟨16, 21⟩, ⟨24, 49⟩⟩ ∧
      attempt (twoStatements.pad (lineBehind 27 5)) 22 .ecj = none := by
  intro attempt padded
  have hfresh : scatteredMarkers.Fresh twoStatements := by
    intro p l hl q n hn
    have hall : ∀ n ∈ twoStatements.nodes, ⟨99⟩ ∉ n.labels := by decide
    obtain rfl : l = ⟨99⟩ := by
      simp only [scatteredMarkers] at hl
      split at hl
      · simpa using hl
      · split at hl <;> simp at hl
    exact hall n (Array.mem_of_getElem? hn)
  have hkeeps : scatteredMarkers.KeepsLabels twoStatements := by
    intro p l hp
    have h17 : p ≠ 17 := by
      rintro rfl
      cases hp
    have h30 : p ≠ 30 := by
      rintro rfl
      cases hp
    simp only [scatteredMarkers, if_neg h17, if_neg h30]
  have hflow : attempt twoStatements 22 .ecj = some ⟨⟨16, 21⟩, ⟨23, 46⟩⟩ := by decide +kernel
  have hno : attempt twoStatements 22 .ecjNoFlowOut = some ⟨⟨16, 19⟩, ⟨22, 46⟩⟩ := by
    decide +kernel
  have hflow' := (attempt_pad_fresh hfresh .ecj {} {} 22).2.2 hkeeps
  have hno' := (attempt_pad_fresh hfresh .ecjNoFlowOut {} {} 22).2.2 hkeeps
  refine ⟨hfresh, hkeeps, hflow, hflow'.trans ?_, hno, hno'.trans ?_, ?_⟩
  · exact (congrArg _ hflow).trans rfl
  · exact (congrArg _ hno).trans rfl
  · decide +kernel

end TryResources
