import TryResources.Template

/-!
# Reading changed nodes

Templates look at nodes through their steps only. If every node of a body is changed in such a way
that a step accepts the changed node, with changed bindings, exactly where it accepted the node
before, then all that templates do happens as before: a template fails or succeeds at the same
positions, and leaves a reading with changed bindings.

* `Code.mapNodes`, `Step.Respects`: a change of nodes, and a step that does not mind it.
* `readAll_mapNodes`, `findBackward_carry`: what steps and searches come to.
* `attempt_javac_mapNodes`, `attempt_mapNodes`: so templates find the same.
-/

namespace TryResources

open Matching

/-! ## Changing nodes -/

/-- The opcode at a node that is no marker. -/
def Node.opcode? {ℓ : Type} (n : Node ℓ) : Option Opcode :=
  n.insn?.map (·.opcode)

/-- A body with every node changed, as its position asks for. -/
def Code.mapNodes (f : Nat → Node LabelId → Node LabelId) (c : Code) : Code :=
  ⟨c.nodes.mapIdx f⟩

/-- A change of nodes leaves markers markers, and instructions their opcodes. -/
def KeepsOpcodes (f : Nat → Node LabelId → Node LabelId) : Prop :=
  ∀ p n, (f p n).opcode? = n.opcode?

variable {f : Nat → Node LabelId → Node LabelId} {g : Bindings → Bindings} {c : Code} {p s : Nat}

theorem Node.isMarker_eq {ℓ : Type} (n : Node ℓ) : n.isMarker = n.opcode?.isNone := by
  cases n <;> rfl

theorem KeepsOpcodes.isMarker (hf : KeepsOpcodes f) (p : Nat) (n : Node LabelId) :
    (f p n).isMarker = n.isMarker := by
  rw [Node.isMarker_eq, Node.isMarker_eq, hf]

namespace Code

@[simp] theorem get?_mapNodes (f : Nat → Node LabelId → Node LabelId) (c : Code) (p : Nat) :
    (c.mapNodes f).get? p = (c.get? p).map (f p) := by
  simp [mapNodes, get?]

@[simp] theorem size_mapNodes (f : Nat → Node LabelId → Node LabelId) (c : Code) :
    (c.mapNodes f).size = c.size := by
  simp [mapNodes, size]

theorem next?_mapNodes (f : Nat → Node LabelId → Node LabelId) (c : Code) (p : Nat) :
    (c.mapNodes f).next? p = c.next? p := by
  rw [next?, next?, size_mapNodes]

/-- The walk from instruction to instruction goes the same way. -/
theorem nextInsn?_mapNodes (hf : KeepsOpcodes f) (c : Code) (p : Nat) :
    (c.mapNodes f).nextInsn? p = c.nextInsn? p := by
  have hsize : (c.mapNodes f).nodes.size = c.nodes.size := c.size_mapNodes f
  have hmarker (q : Nat) (hq : q < c.nodes.size) (hq' : q < (c.mapNodes f).nodes.size) :
      (c.mapNodes f).nodes[q].isMarker = c.nodes[q].isMarker := by
    simp only [mapNodes, Array.getElem_mapIdx]
    exact hf.isMarker q _
  fun_induction nextInsn? c p with
  | case1 p hlt hm ih =>
    rw [nextInsn?, dif_pos (hsize ▸ hlt), hmarker _ hlt, if_pos hm, ih]
  | case2 p hlt hm =>
    rw [nextInsn?, dif_pos (hsize ▸ hlt), hmarker _ hlt, if_neg hm]
  | case3 p hge =>
    rw [nextInsn?, dif_neg (hsize ▸ hge)]

theorem opcode_insn?_mapNodes (hf : KeepsOpcodes f) (c : Code) (p : Nat) :
    ((c.mapNodes f).insn? p).map (·.opcode) = (c.insn? p).map (·.opcode) := by
  rw [insn?, insn?, get?_mapNodes]
  cases c.get? p with
  | none => rfl
  | some n => exact hf p n

end Code

namespace Matching

/-! ## Outcomes -/

/-- A reading with its bindings changed. -/
def Reading.map (g : Bindings → Bindings) (r : Reading) : Reading :=
  { r with bindings := g r.bindings }

/-- An outcome with all that it holds changed; a failure holds a reading. -/
def carry {α β : Type} (g : Bindings → Bindings) (h : α → β) :
    Except Reading α → Except Reading β
  | .error r => .error (r.map g)
  | .ok a => .ok (h a)

theorem carry_bind {α β γ δ : Type} {h : α → β} {h' : γ → δ} {k : α → Except Reading γ}
    {k' : β → Except Reading δ} (x : Except Reading α) (hk : ∀ a, k' (h a) = carry g h' (k a)) :
    (carry g h x >>= k') = carry g h' (x >>= k) := by
  cases x with
  | error r => rfl
  | ok a => exact hk a

/-! ## Steps -/

/-- A step accepts a changed node, with changed bindings, exactly where it accepts the node. -/
def Step.Respects (f : Nat → Node LabelId → Node LabelId) (g : Bindings → Bindings) (s : Step) :
    Prop :=
  ∀ p n b, s.accepts (f p n) (g b) = (s.accepts n b).map g

theorem Step.target?_mapNodes (hf : KeepsOpcodes f) (s : Step) (c : Code) (p : Nat) :
    s.target? (c.mapNodes f) p = s.target? c p := by
  cases s with
  | label n => exact c.next?_mapNodes f p
  | _ => exact c.nextInsn?_mapNodes hf p

theorem Step.read_mapNodes (hf : KeepsOpcodes f) {s : Step} (hs : s.Respects f g) (c : Code)
    (r : Reading) : s.read (c.mapNodes f) (r.map g) = carry g (Reading.map g) (s.read c r) := by
  obtain ⟨cursor, b⟩ := r
  have htarget : cursor.bind (s.target? (c.mapNodes f)) = cursor.bind (s.target? c) := by
    rw [funext (s.target?_mapNodes hf c)]
  unfold read
  simp only [Reading.map, htarget]
  cases cursor.bind (s.target? c) with
  | none => rfl
  | some q =>
    simp only [Code.get?_mapNodes]
    cases c.get? q with
    | none => rfl
    | some n =>
      simp only [Option.map_some, Option.bind_some, hs q n b]
      cases s.accepts n b <;> rfl

theorem readAll_mapNodes (hf : KeepsOpcodes f) {steps : List Step}
    (hsteps : ∀ s ∈ steps, s.Respects f g) (c : Code) (r : Reading) :
    Step.readAll (c.mapNodes f) steps (r.map g) =
      carry g (Reading.map g) (Step.readAll c steps r) := by
  induction steps generalizing r with
  | nil => rfl
  | cons s steps ih =>
    rw [Step.readAll_cons, Step.readAll_cons, Step.read_mapNodes hf (hsteps s List.mem_cons_self)]
    exact carry_bind _ (ih fun s' hs' => hsteps s' (List.mem_cons_of_mem _ hs'))

theorem advance_mapNodes (hf : KeepsOpcodes f) (c : Code) (r : Reading) :
    (r.map g).advance (c.mapNodes f) = (r.advance c).map g := by
  unfold Reading.advance
  rw [funext (c.nextInsn?_mapNodes hf)]
  rfl

theorem onUnconditionalJump_mapNodes (hf : KeepsOpcodes f) (c : Code) (r : Reading) :
    (r.map g).onUnconditionalJump (c.mapNodes f) = r.onUnconditionalJump c := by
  have hopcode : ((r.cursor.bind (c.mapNodes f).insn?).map (·.opcode)) =
      (r.cursor.bind c.insn?).map (·.opcode) := by
    cases r.cursor with
    | none => rfl
    | some p => exact c.opcode_insn?_mapNodes hf p
  unfold Reading.onUnconditionalJump
  simp only [Reading.map]
  cases h : r.cursor.bind c.insn? with
  | none =>
    rw [h, Option.map_none, Option.map_eq_none_iff] at hopcode
    rw [hopcode]
  | some i =>
    rw [h, Option.map_some, Option.map_eq_some_iff] at hopcode
    obtain ⟨i', hi', heq⟩ := hopcode
    rw [hi']
    simp only [heq]

/-! ## Searches -/

/-- A search finds the same if its reader comes to the same from every position. -/
theorem findBackward_carry {reader reader' : Reader}
    (hreader : ∀ r, reader' (r.map g) = carry g (Reading.map g) (reader r)) (start : Nat)
    (r : Reading) :
    findBackward reader' start (r.map g) =
      carry g (Prod.map id (Reading.map g)) (findBackward reader start r) := by
  induction start generalizing r with
  | zero => rfl
  | succ p ih =>
    have hhere := hreader { r with cursor := some p }
    have hnext := ih { r with cursor := some p }
    unfold findBackward
    simp only [Reading.map] at hhere hnext ⊢
    rw [hhere]
    cases reader { r with cursor := some p } with
    | ok r' => rfl
    | error e => exact hnext

theorem between_map (a b c d : Option Nat) (r : Reading) :
    Verdict.between a b c d (r.map g) =
      carry g (Prod.map id (Reading.map g)) (Verdict.between a b c d r) := by
  unfold Verdict.between
  cases Sighting.between? a b c d <;> rfl

end Matching

/-! ## Templates -/

/-- A matcher with the bindings of its reading changed. -/
def Matching.Matcher.map (g : Bindings → Bindings) (k : Matcher) : Matcher :=
  { k with reading := k.reading.map g }

theorem Javac.sight_mapNodes (hf : KeepsOpcodes f) {shape : Shape}
    (hhandlers : ∀ s ∈ handlers shape, s.Respects f g)
    (hclose : ∀ s ∈ close .normal shape, s.Respects f g) (c : Code) (k : Matcher) :
    sight (c.mapNodes f) shape (k.map g) =
      carry g (Prod.map id (Reading.map g)) (sight c shape k) := by
  unfold sight
  rw [show (k.map g).reading = k.reading.map g from rfl, readAll_mapNodes hf hhandlers]
  apply carry_bind
  intro atEnd
  rw [show (k.map g).start = k.start from rfl,
    findBackward_carry (readAll_mapNodes hf hclose c)]
  apply carry_bind
  intro found
  obtain ⟨before, closed⟩ := found
  have habsorb : absorbJump (c.mapNodes f) (closed.map g) = (absorbJump c closed).map g := by
    unfold absorbJump
    rw [advance_mapNodes hf, onUnconditionalJump_mapNodes hf]
    split <;> rfl
  simp only [Prod.map, id_eq, habsorb, Code.next?_mapNodes]
  exact between_map _ _ _ _ _

namespace Ecj

theorem readResources_eq (c : Code) (i : Nat) (r : Reading) :
    readResources c i r = match Step.readAll c (close i) r with
      | .error _ => .ok (i, r)
      | .ok closed => Step.readAll c (afterClose i) closed >>= readResources c (i + 1) := by
  conv => lhs; unfold readResources
  split
  · rename_i e he
    rw [he]
  · rename_i closed hc
    split
    · rename_i e ha
      simp only [hc, ha]
      rfl
    · rename_i r' ha
      simp only [hc, ha]
      rfl

theorem readHandlers_eq (c : Code) (i : Nat) (r : Reading) :
    readHandlers c i r = match Step.readAll c (handlerOf i) r with
      | .error _ => (i, r)
      | .ok r' => readHandlers c (i + 1) r' := by
  conv => lhs; unfold readHandlers
  split
  · rename_i e he
    rw [he]
  · rename_i r' hr
    rw [hr]

section

variable (hf : KeepsOpcodes f) (hsteps : ∀ s : Step, s.Respects f g)

include hf hsteps in
theorem readSteps_mapNodes (c : Code) (steps : List Step) (r : Reading) :
    Step.readAll (c.mapNodes f) steps (r.map g) =
      carry g (Reading.map g) (Step.readAll c steps r) :=
  readAll_mapNodes hf (fun s _ => hsteps s) c r

include hf hsteps in
theorem readResources_mapNodes (c : Code) (i : Nat) (r : Reading) :
    readResources (c.mapNodes f) i (r.map g) =
      carry g (Prod.map id (Reading.map g)) (readResources c i r) := by
  have hread := readSteps_mapNodes hf hsteps c
  fun_induction readResources c i r with
  | case1 i r e he =>
    rw [readResources_eq, hread, he]
    rfl
  | case2 i r closed hc e ha =>
    rw [readResources_eq, hread, hc]
    show (Step.readAll (c.mapNodes f) (afterClose i) (closed.map g) >>= _) = _
    rw [hread, ha]
    rfl
  | case3 i r closed hc r' ha _ ih =>
    rw [readResources_eq, hread, hc]
    show (Step.readAll (c.mapNodes f) (afterClose i) (closed.map g) >>= _) = _
    rw [hread, ha]
    exact ih

include hf hsteps in
theorem readHandlers_mapNodes (c : Code) (i : Nat) (r : Reading) :
    readHandlers (c.mapNodes f) i (r.map g) = (readHandlers c i r).map id (Reading.map g) := by
  have hread := readSteps_mapNodes hf hsteps c
  fun_induction readHandlers c i r with
  | case1 i r e he =>
    rw [readHandlers_eq, hread, he]
    rfl
  | case2 i r r' hr ih =>
    rw [readHandlers_eq, hread, hr]
    exact ih

include hf hsteps in
theorem sight_mapNodes (c : Code) (k : Matcher) :
    sight (c.mapNodes f) (k.map g) = carry g (Prod.map id (Reading.map g)) (sight c k) := by
  have hread := readSteps_mapNodes hf hsteps c
  unfold sight
  rw [show (k.map g).reading = k.reading.map g from rfl, hread]
  apply carry_bind
  intro first
  rw [readResources_mapNodes hf hsteps]
  apply carry_bind
  intro counted
  obtain ⟨n, all⟩ := counted
  show (Step.readAll (c.mapNodes f) _ (all.map g) >>= _) = _
  rw [hread]
  apply carry_bind
  intro atEnd
  rw [show (k.map g).start = k.start from rfl, findBackward_carry (hread (close 0))]
  apply carry_bind
  intro found
  obtain ⟨before, closed⟩ := found
  simp only [Prod.map, id_eq, advance_mapNodes hf, onUnconditionalJump_mapNodes hf,
    Code.next?_mapNodes]
  split
  · exact between_map _ _ _ _ _
  · rfl

include hf hsteps in
theorem sightNoFlowOut_mapNodes (c : Code) (k : Matcher) :
    sightNoFlowOut (c.mapNodes f) (k.map g) =
      carry g (Prod.map id (Reading.map g)) (sightNoFlowOut c k) := by
  have hread := readSteps_mapNodes hf hsteps c
  unfold sightNoFlowOut
  rw [show (k.map g).reading = k.reading.map g from rfl, hread]
  apply carry_bind
  intro first
  rw [readHandlers_mapNodes hf hsteps]
  obtain ⟨n, all⟩ := readHandlers c 0 first
  show (Step.readAll (c.mapNodes f) throwPrimary (all.map g) >>= _) = _
  rw [hread]
  apply carry_bind
  intro atEnd
  rw [show (k.map g).start = k.start from rfl, findBackward_carry (hread (close 0))]
  apply carry_bind
  intro found
  obtain ⟨before, closed⟩ := found
  show (Step.readAll (c.mapNodes f) (closeOthers n) (closed.map g) >>= _) = _
  rw [hread]
  apply carry_bind
  intro others
  simp only [id_eq, Code.next?_mapNodes]
  exact between_map _ _ _ _ _

end

end Ecj

/-! ## Attempts -/

theorem restart_map (hg : g {} = {}) (k : Matcher) (s : Nat) :
    (k.restart s).map g = k.restart s := by
  simp [Matcher.restart, Matcher.map, Reading.map, hg]

theorem attempt_fst_of_sight {c' : Code} {t : Template} {k : Matcher}
    (h : t.sight c' k = carry g (Prod.map id (Reading.map g)) (t.sight c k)) :
    (k.attempt c' t).1 = (k.attempt c t).1 := by
  unfold Matcher.attempt
  rw [h]
  cases t.sight c k with
  | error r => rfl
  | ok found => rfl

/-- If the steps of a template of javac do not mind a change of nodes, nor does the template. -/
theorem attempt_javac_mapNodes (hf : KeepsOpcodes f) (hg : g {} = {}) {shape : Javac.Shape}
    (hhandlers : ∀ s ∈ Javac.handlers shape, s.Respects f g)
    (hclose : ∀ s ∈ Javac.close .normal shape, s.Respects f g) (c : Code) (k : Matcher) (s : Nat) :
    ((k.restart s).attempt (c.mapNodes f) (.javac shape)).1 =
      ((k.restart s).attempt c (.javac shape)).1 := by
  apply attempt_fst_of_sight (g := g)
  have h := Javac.sight_mapNodes hf hhandlers hclose c (k.restart s)
  rw [restart_map hg] at h
  exact h

/-- If no step minds a change of nodes, no template does. -/
theorem attempt_mapNodes (hf : KeepsOpcodes f) (hg : g {} = {})
    (hsteps : ∀ s : Step, s.Respects f g) (c : Code) (t : Template) (k : Matcher) (s : Nat) :
    ((k.restart s).attempt (c.mapNodes f) t).1 = ((k.restart s).attempt c t).1 := by
  cases t with
  | javac shape =>
    exact attempt_javac_mapNodes hf hg (fun s _ => hsteps s) (fun s _ => hsteps s) c k s
  | ecj =>
    apply attempt_fst_of_sight (g := g)
    have h := Ecj.sight_mapNodes hf hsteps c (k.restart s)
    rw [restart_map hg] at h
    exact h
  | ecjNoFlowOut =>
    apply attempt_fst_of_sight (g := g)
    have h := Ecj.sightNoFlowOut_mapNodes hf hsteps c (k.restart s)
    rw [restart_map hg] at h
    exact h

end TryResources
