import Mathlib.Order.Defs.PartialOrder
import TryResources.Proofs.Ecj.FlowOut
import TryResources.Proofs.Ecj.NoFlowOut
import TryResources.Proofs.Exclusion

/-!
# Names keep what they stand for

Once a name stands for something it stands for it to the end, through steps that fail, loops that
break off and searches that go back: bindings only grow. So all nodes that are taken under one name,
in the handler and on the normal path, carry the same, which is what the name stands for in the end.

* `Bindings` are ordered by what they know; `Reading.after` is what an outcome leaves.
* `Step.le_after_read`, `le_after_findBackward`, `le_attempt`: steps, searches and templates keep
  what names stand for.
* `Step.visits`, `Agreed`: the nodes that steps come to, and a node that carries what its name
  stands for; `agreed_of_readAll` for a sequence of steps.
* `exists_comesTo`: which steps a template has read when it succeeds.
* `bindings_persist_agree`: all of this in one statement.
-/

namespace TryResources

open Matching

/-- What a node carries for a name of some kind: the variable of an access, the label of a jump or
of a definition, the type that declares a method. -/
def Node.carried? : Node LabelId → (n : Name) → Option n.Value
  | .insn i, .slot _ => i.operand.slot?
  | .insn i, .label _ => i.operand.target?
  | .insn i, .owner _ => i.operand.member?.map (·.owner)
  | .label l, .label _ => some l
  | _, _ => none

namespace Matching

/-! ## More bindings -/

/-- What a name stands for in the first bindings it stands for in the second ones as well. -/
instance : Preorder Bindings where
  le b b' := ∀ n x, b.lookup n = some x → b'.lookup n = some x
  le_refl _ _ _ h := h
  le_trans _ _ _ h h' n x hx := h' n x (h n x hx)

/-- The reading that an outcome leaves, whichever way it ended. -/
def Reading.after {α : Type} (reading : α → Reading) : Except Reading α → Reading
  | .ok a => reading a
  | .error r => r

variable {code : Code} {b b' : Bindings} {s : Step} {steps : List Step} {n : Node LabelId}
  {r r' : Reading} {e : Step × Nat}

/-- What goes on with a result keeps what names stand for if it does so from each result. -/
theorem le_after_bind {α β : Type} {x : Except Reading α} {f : α → Except Reading β}
    {reading : α → Reading} {reading' : β → Reading}
    (hx : b ≤ (Reading.after reading x).bindings)
    (hf : ∀ a, (reading a).bindings ≤ (Reading.after reading' (f a)).bindings) :
    b ≤ (Reading.after reading' (x >>= f)).bindings := by
  cases x with
  | error r => exact hx
  | ok a => exact le_trans hx (hf a)

theorem le_after_between (first last first' last' : Option Nat) (r : Reading) :
    r.bindings ≤ (Reading.after Prod.snd (Verdict.between first last first' last' r)).bindings := by
  unfold Verdict.between
  cases Sighting.between? first last first' last' with
  | none => exact le_refl r.bindings
  | some w => exact le_refl r.bindings

/-! ## Nodes and names -/

/-- The name under which a step takes its node. -/
def Step.name? : Step → Option Name
  | slot _ n => some (.slot n)
  | jump _ n => some (.label n)
  | label n => some (.label n)
  | close r => some (.owner r)
  | _ => none

/-- A node that a step takes at some position carries what the name of the step stands for. -/
def Agreed (code : Code) (b : Bindings) (e : Step × Nat) : Prop :=
  ∀ m, e.1.name? = some m →
    ∃ n x, code.get? e.2 = some n ∧ n.carried? m = some x ∧ b.lookup m = some x

theorem Agreed.mono (h : Agreed code b e) (hle : b ≤ b') : Agreed code b' e := by
  intro m hm
  obtain ⟨n, x, hn, hx, hb⟩ := h m hm
  exact ⟨n, x, hn, hx, hle m x hb⟩

namespace Step

/-- What a step accepts keeps the bindings, and carries what the name of the step stands for. -/
theorem accepts_spec (h : s.accepts n b = some b') :
    b ≤ b' ∧ ∀ m, s.name? = some m → ∃ x, n.carried? m = some x ∧ b'.lookup m = some x := by
  have insn (i : Instruction LabelId) (h : s.acceptsInsn i b = some b') :
      b ≤ b' ∧ ∀ m, s.name? = some m →
        ∃ x, (Node.insn i).carried? m = some x ∧ b'.lookup m = some x := by
    refine ⟨(acceptsInsn_sound h).1.keeps, ?_⟩
    cases s with
    | slot o name =>
      obtain ⟨x, rfl, hx⟩ := acceptsInsn_slot_iff.1 h
      rintro _ ⟨⟩
      exact ⟨x, rfl, (Bindings.meet_spec hx).1⟩
    | jump o name =>
      obtain ⟨x, rfl, hx⟩ := acceptsInsn_jump_iff.1 h
      rintro _ ⟨⟩
      exact ⟨x, rfl, (Bindings.meet_spec hx).1⟩
    | close resource =>
      obtain ⟨x, ⟨-, hoperand⟩, hx⟩ := acceptsInsn_close_iff.1 h
      rintro _ ⟨⟩
      refine ⟨x, ?_, (Bindings.meet_spec hx).1⟩
      show i.operand.member?.map (·.owner) = some x
      rw [hoperand]
      rfl
    | label name => cases h
    | _ => exact nofun
  cases n with
  | insn i =>
    cases s with
    | label name => cases h
    | _ => exact insn i h
  | label l =>
    cases s with
    | label name =>
      -- a label is looked up, and nothing is bound
      simp only [accepts] at h
      split at h
      · rename_i hl
        obtain rfl := Option.some.inj h
        refine ⟨le_refl b, ?_⟩
        rintro _ ⟨⟩
        exact ⟨l, rfl, hl⟩
      · cases h
    | _ => cases h
  | _ => cases s <;> cases h

/-- A step that fails leaves the bindings as they were. -/
theorem bindings_of_read_eq_error (h : s.read code r = .error r') : r'.bindings = r.bindings := by
  unfold read at h
  split at h
  · cases h
    rfl
  · split at h
    · cases h
      rfl
    · cases h

theorem read_spec (h : s.read code r = .ok r') :
    r.bindings ≤ r'.bindings ∧ ∃ q, r.cursor.bind (s.target? code) = some q ∧
      r'.cursor = some q ∧ Agreed code r'.bindings (s, q) := by
  obtain ⟨p, q, hp, hq, -⟩ := advances_of_read h
  obtain ⟨cursor, b⟩ := r
  obtain rfl : cursor = some p := hp
  obtain ⟨q', n, b', htarget, hget, haccepts, rfl⟩ := read_eq_ok_iff.1 h
  obtain ⟨hle, hagreed⟩ := accepts_spec haccepts
  refine ⟨hle, q', htarget, rfl, ?_⟩
  intro m hm
  obtain ⟨x, hx, hb⟩ := hagreed m hm
  exact ⟨n, x, hget, hx, hb⟩

/-- A step keeps what names stand for, whether it succeeds or fails. -/
theorem le_after_read (code : Code) (s : Step) (r : Reading) :
    r.bindings ≤ (Reading.after id (s.read code r)).bindings := by
  cases h : s.read code r with
  | error r' => exact (bindings_of_read_eq_error h).ge
  | ok r' => exact (read_spec h).1

theorem le_after_readAll (code : Code) (steps : List Step) (r : Reading) :
    r.bindings ≤ (Reading.after id (readAll code steps r)).bindings := by
  induction steps generalizing r with
  | nil => exact le_refl r.bindings
  | cons s steps ih => exact le_after_bind (le_after_read code s r) ih

theorem le_of_readAll_eq_ok (h : readAll code steps r = .ok r') : r.bindings ≤ r'.bindings := by
  have hle := le_after_readAll code steps r
  rw [h] at hle
  exact hle

theorem le_of_readAll_eq_error (h : readAll code steps r = .error r') :
    r.bindings ≤ r'.bindings := by
  have hle := le_after_readAll code steps r
  rw [h] at hle
  exact hle

/-- A step that meets no name binds none. -/
theorem after_read_of_names_eq_nil (hs : s.names = []) (r : Reading) :
    (Reading.after id (s.read code r)).bindings = r.bindings := by
  cases h : s.read code r with
  | error r' => exact bindings_of_read_eq_error h
  | ok r' =>
    obtain ⟨p, -, hp, -⟩ := advances_of_read h
    obtain ⟨cursor, b⟩ := r
    obtain rfl : cursor = some p := hp
    obtain ⟨q, n, b', -, -, haccepts, rfl⟩ := read_eq_ok_iff.1 h
    show b' = b
    cases n with
    | insn i =>
      cases s with
      | op o => exact (acceptsInsn_op_iff.1 haccepts).2.symm
      | closeHelper => exact (acceptsInsn_closeHelper_iff.1 haccepts).2.symm
      | addSuppressed => exact (acceptsInsn_addSuppressed_iff.1 haccepts).2.symm
      | label name => cases haccepts
      | _ => cases hs
    | label l =>
      cases s with
      | label name =>
        simp only [accepts] at haccepts
        split at haccepts
        · exact (Option.some.inj haccepts).symm
        · cases haccepts
      | _ => cases haccepts
    | _ => cases s <;> cases haccepts

/-! ## The nodes that steps take -/

/-- The nodes that steps come to from a cursor, each with its step. -/
def visits (code : Code) : List Step → Option Nat → List (Step × Nat)
  | [], _ => []
  | s :: steps, cursor =>
    match cursor.bind (s.target? code) with
    | none => []
    | some q => (s, q) :: visits code steps (some q)

/-- **Steps that succeed** have all come to a node, and each of these nodes carries what the name of
its step stands for in the end. -/
theorem agreed_of_readAll (h : readAll code steps r = .ok r') :
    (visits code steps r.cursor).map Prod.fst = steps ∧
      ∀ e ∈ visits code steps r.cursor, Agreed code r'.bindings e := by
  induction steps generalizing r with
  | nil => exact ⟨rfl, fun e he => nomatch he⟩
  | cons s steps ih =>
    obtain ⟨r₁, hs, hrest⟩ := bind_eq_ok_iff.1 h
    obtain ⟨-, q, htarget, hcursor, hagreed⟩ := read_spec hs
    obtain ⟨hall, hagreed'⟩ := ih hrest
    have hvisits : visits code (s :: steps) r.cursor = (s, q) :: visits code steps r₁.cursor := by
      rw [visits, htarget, hcursor]
    have hle : r₁.bindings ≤ r'.bindings := le_of_readAll_eq_ok hrest
    rw [hvisits, List.map_cons, hall]
    refine ⟨rfl, ?_⟩
    intro e he
    rcases List.mem_cons.1 he with rfl | he
    · exact hagreed.mono hle
    · exact hagreed' e he

end Step

/-! ## Searches -/

/-- A search keeps what names stand for if its reader does. -/
theorem le_after_findBackward {reader : Reader}
    (hreader : ∀ r, r.bindings ≤ (Reading.after id (reader r)).bindings) (start : Nat)
    (r : Reading) :
    r.bindings ≤ (Reading.after Prod.snd (findBackward reader start r)).bindings := by
  cases h : findBackward reader start r with
  | error r' => exact (findBackward_eq_error h).1.ge
  | ok found =>
    obtain ⟨p, r'⟩ := found
    have hr := hreader ⟨some p, r.bindings⟩
    rw [(findBackward_eq_ok h).2.1] at hr
    exact hr

end Matching

/-! ## Templates -/

theorem Javac.bindings_absorbJump (code : Code) (r : Reading) :
    (absorbJump code r).bindings = r.bindings := by
  unfold absorbJump
  split <;> rfl

theorem Javac.le_after_sight (code : Code) (shape : Shape) (k : Matcher) :
    k.reading.bindings ≤ (Reading.after Prod.snd (sight code shape k)).bindings := by
  refine le_after_bind (Step.le_after_readAll code _ _) fun atEnd => ?_
  refine le_after_bind (le_after_findBackward (Step.le_after_readAll code _) _ _) fun found => ?_
  obtain ⟨before, closed⟩ := found
  show closed.bindings ≤ _
  rw [← bindings_absorbJump code closed]
  exact le_after_between _ _ _ _ _

namespace Ecj

theorem le_after_readResources (code : Code) (i : Nat) (r : Reading) :
    r.bindings ≤ (Reading.after Prod.snd (readResources code i r)).bindings := by
  fun_induction readResources code i r with
  | case1 i r e he => exact le_refl r.bindings
  | case2 i r closed hc e ha =>
    calc
      r.bindings ≤ closed.bindings := Step.le_of_readAll_eq_ok hc
      _ ≤ e.bindings := Step.le_of_readAll_eq_error ha
  | case3 i r closed hc r' ha _ ih =>
    calc
      r.bindings ≤ closed.bindings := Step.le_of_readAll_eq_ok hc
      _ ≤ r'.bindings := Step.le_of_readAll_eq_ok ha
      _ ≤ _ := ih

theorem le_readHandlers (code : Code) (i : Nat) (r : Reading) :
    r.bindings ≤ (readHandlers code i r).2.bindings := by
  fun_induction readHandlers code i r with
  | case1 i r e he => exact le_refl r.bindings
  | case2 i r r' hr ih =>
    exact le_trans (Step.le_of_readAll_eq_ok hr) ih

theorem le_after_sight (code : Code) (k : Matcher) :
    k.reading.bindings ≤ (Reading.after Prod.snd (sight code k)).bindings := by
  refine le_after_bind (Step.le_after_readAll code _ _) fun first => ?_
  refine le_after_bind (le_after_readResources code 1 first) fun counted => ?_
  refine le_after_bind (Step.le_after_readAll code _ counted.2) fun atEnd => ?_
  refine le_after_bind (le_after_findBackward (Step.le_after_readAll code _) _ _) fun found => ?_
  obtain ⟨before, closed⟩ := found
  dsimp only
  split
  · exact le_after_between _ _ _ _ (closed.advance code)
  · exact le_refl closed.bindings

theorem le_after_sightNoFlowOut (code : Code) (k : Matcher) :
    k.reading.bindings ≤ (Reading.after Prod.snd (sightNoFlowOut code k)).bindings := by
  refine le_after_bind (Step.le_after_readAll code _ _) fun first => ?_
  refine le_trans (le_readHandlers code 0 first) ?_
  generalize readHandlers code 0 first = counted
  obtain ⟨n, all⟩ := counted
  refine le_after_bind (Step.le_after_readAll code _ all) fun atEnd => ?_
  refine le_after_bind (le_after_findBackward (Step.le_after_readAll code _) _ _) fun found => ?_
  obtain ⟨before, closed⟩ := found
  refine le_after_bind (Step.le_after_readAll code _ closed) fun others => ?_
  exact le_after_between _ _ _ _ others

end Ecj

/-- A template keeps what names stand for, whether it succeeds or fails. -/
theorem le_attempt (code : Code) (t : Template) (k : Matcher) :
    k.reading.bindings ≤ (k.attempt code t).2.reading.bindings := by
  have hsight : k.reading.bindings ≤ (Reading.after Prod.snd (t.sight code k)).bindings := by
    cases t with
    | javac shape => exact Javac.le_after_sight code shape k
    | ecj => exact Ecj.le_after_sight code k
    | ecjNoFlowOut => exact Ecj.le_after_sightNoFlowOut code k
  unfold Matcher.attempt
  cases h : t.sight code k with
  | error r =>
    rw [h] at hsight
    exact hsight
  | ok result =>
    rw [h] at hsight
    exact hsight

/-! ## How templates succeed -/

namespace Template

/-- The steps that read the handler of a statement with `n` resources. -/
def handler (n : Nat) : Template → List Step
  | javac shape => Javac.handlers shape
  | ecj => Ecj.FlowOut.handlerSteps n
  | ecjNoFlowOut => Ecj.NoFlowOut.handlerSteps n

/-- The steps that read the normal path of a statement with `n` resources. -/
def block (n : Nat) : Template → List Step
  | javac shape => Javac.close .normal shape
  | ecj => Ecj.close 0
  | ecjNoFlowOut => Ecj.close 0 ++ Ecj.closeOthers n

/-- A template comes to a sighting: the handler of a statement with `n` resources has been read from
where the matcher stands, up to the reading `atEnd`, and the normal path behind position `p`, with
what the handler has bound, up to the bindings `b`. -/
structure ComesTo (code : Code) (t : Template) (k : Matcher) (w : Sighting) (n p : Nat)
    (atEnd : Reading) (b : Bindings) : Prop where
  handler : Step.readAll code (t.handler n) k.reading = .ok atEnd
  handlerLast : atEnd.cursor = some w.handler.last
  block : ∃ closed, Step.readAll code (t.block n) ⟨some p, atEnd.bindings⟩ = .ok closed ∧
    closed.bindings = b
  normalFirst : w.normal.first = p + 1

end Template

variable {code : Code} {t : Template} {k : Matcher} {w : Sighting} {b : Bindings} {n p : Nat}
  {atEnd r : Reading}

/-- A template that succeeds has read a handler, and a normal path in front of it. -/
theorem exists_comesTo (h : t.sight code k = .ok (w, r)) :
    ∃ n p atEnd, t.ComesTo code k w n p atEnd r.bindings := by
  cases t with
  | javac shape =>
    obtain ⟨atEnd, hread, h⟩ := bind_eq_ok_iff.1 h
    obtain ⟨⟨before, closed⟩, hsearch, h⟩ := bind_eq_ok_iff.1 h
    obtain ⟨hfirst, -, -, hlast, rfl⟩ := Verdict.between_eq_ok_iff.1 h
    exact ⟨1, before, atEnd, hread, hlast, ⟨closed, (findBackward_eq_ok hsearch).2.1,
      (Javac.bindings_absorbJump code closed).symm⟩, (Code.next?_eq_some_iff.1 hfirst).1⟩
  | ecj =>
    obtain ⟨first, hfirst, h⟩ := bind_eq_ok_iff.1 h
    obtain ⟨⟨n, all⟩, hall, h⟩ := bind_eq_ok_iff.1 h
    obtain ⟨atEnd, hend, h⟩ := bind_eq_ok_iff.1 h
    obtain ⟨⟨before, closed⟩, hsearch, h⟩ := bind_eq_ok_iff.1 h
    obtain ⟨-, hread⟩ := Ecj.FlowOut.readHandler_iff.1 ⟨first, hfirst, all, hall, hend⟩
    dsimp only at h
    split at h
    · obtain ⟨hnormal, -, -, hlast, rfl⟩ := Verdict.between_eq_ok_iff.1 h
      exact ⟨n, before, atEnd, hread, hlast, ⟨closed, (findBackward_eq_ok hsearch).2.1, rfl⟩,
        (Code.next?_eq_some_iff.1 hnormal).1⟩
    · cases h
  | ecjNoFlowOut =>
    obtain ⟨first, hfirst, h⟩ := bind_eq_ok_iff.1 h
    rcases hall : Ecj.readHandlers code 0 first with ⟨n, all⟩
    rw [hall] at h
    obtain ⟨atEnd, hend, h⟩ := bind_eq_ok_iff.1 h
    obtain ⟨⟨before, closed⟩, hsearch, h⟩ := bind_eq_ok_iff.1 h
    obtain ⟨others, hothers, h⟩ := bind_eq_ok_iff.1 h
    obtain ⟨hnormal, -, -, hlast, rfl⟩ := Verdict.between_eq_ok_iff.1 h
    have hread := Ecj.NoFlowOut.readHandler_iff.1 ⟨first, hfirst, all, hall, hend⟩
    exact ⟨n, before, atEnd, hread, hlast, ⟨others, readAll_append_eq_ok_iff.2
      ⟨closed, (findBackward_eq_ok hsearch).2.1, hothers⟩, rfl⟩,
      (Code.next?_eq_some_iff.1 hnormal).1⟩

/-- All nodes that a successful template has taken carry what their names stand for in the end:
those of the handler, and those of the normal path. -/
theorem Template.ComesTo.agreed (h : t.ComesTo code k w n p atEnd b) :
    (Step.visits code (t.handler n) k.reading.cursor).map Prod.fst = t.handler n ∧
      (Step.visits code (t.block n) (some p)).map Prod.fst = t.block n ∧
      ∀ e, e ∈ Step.visits code (t.handler n) k.reading.cursor ∨
        e ∈ Step.visits code (t.block n) (some p) → Agreed code b e := by
  obtain ⟨closed, hblock, rfl⟩ := h.block
  obtain ⟨hall, hagreed⟩ := Step.agreed_of_readAll h.handler
  obtain ⟨hall', hagreed'⟩ := Step.agreed_of_readAll hblock
  have hle := Step.le_of_readAll_eq_ok hblock
  refine ⟨hall, hall', ?_⟩
  rintro e (he | he)
  · exact (hagreed e he).mono hle
  · exact hagreed' e he

/-- **Names keep what they stand for, and stand for what is there.** In any body, from any state:

1. a step, a sequence of steps and a template leave every name that stands for something standing
   for the same, whether they succeed or fail;
2. looking for a label and for the call that suppresses an exception bind nothing;
3. when steps have succeeded, every node that one of them took under a name carries what the name
   stands for in the end;
4. so it is when a template has succeeded, for the nodes of the handler and of the normal path. -/
theorem bindings_persist_agree (code : Code) :
    ((∀ (s : Step) (r : Reading), r.bindings ≤ (Reading.after id (s.read code r)).bindings) ∧
      (∀ (steps : List Step) (r : Reading),
        r.bindings ≤ (Reading.after id (Step.readAll code steps r)).bindings) ∧
      ∀ (t : Template) (k : Matcher),
        k.reading.bindings ≤ (k.attempt code t).2.reading.bindings) ∧
    (∀ r : Reading,
      (∀ n, (Reading.after id ((Step.label n).read code r)).bindings = r.bindings) ∧
        (Reading.after id (Step.addSuppressed.read code r)).bindings = r.bindings) ∧
    (∀ (steps : List Step) (r r' : Reading), Step.readAll code steps r = .ok r' →
      (Step.visits code steps r.cursor).map Prod.fst = steps ∧
        ∀ e ∈ Step.visits code steps r.cursor, Agreed code r'.bindings e) ∧
    ∀ (t : Template) (k : Matcher), ∀ w ∈ (k.attempt code t).1,
      ∃ n p atEnd, t.ComesTo code k w n p atEnd (k.attempt code t).2.reading.bindings ∧
        ∀ e, e ∈ Step.visits code (t.handler n) k.reading.cursor ∨
          e ∈ Step.visits code (t.block n) (some p) →
            Agreed code (k.attempt code t).2.reading.bindings e := by
  refine ⟨⟨Step.le_after_read code, Step.le_after_readAll code, le_attempt code⟩, ?_, ?_, ?_⟩
  · intro r
    exact ⟨fun n => Step.after_read_of_names_eq_nil rfl r, Step.after_read_of_names_eq_nil rfl r⟩
  · intro steps r r' h
    exact Step.agreed_of_readAll h
  · intro t k w hw
    obtain ⟨r, hr⟩ := Matcher.attempt_eq_some_iff.1 hw
    have hbindings : (k.attempt code t).2.reading.bindings = r.bindings := by
      rw [Matcher.attempt, hr]
    obtain ⟨n, p, atEnd, h⟩ := exists_comesTo hr
    rw [hbindings]
    exact ⟨n, p, atEnd, h, h.agreed.2.2⟩

/-- The handler of the second statement of `twoStatements`, in part and as a whole. -/
theorem bindings_persist_agree_twoStatements :
    let r : Reading := ⟨some 23, {}⟩
    let k := ({} : Matcher).restart 22
    let b := (k.attempt twoStatements .ecj).2.reading.bindings
    (∃ r', Step.readAll twoStatements (Ecj.closeAndThrow 0) r = .ok r' ∧
      ∀ e ∈ Step.visits twoStatements (Ecj.closeAndThrow 0) r.cursor,
        Agreed twoStatements r'.bindings e) ∧
    (k.attempt twoStatements .ecj).1 = some ⟨⟨16, 21⟩, ⟨23, 46⟩⟩ ∧
      ∃ n p atEnd, Template.ecj.ComesTo twoStatements k ⟨⟨16, 21⟩, ⟨23, 46⟩⟩ n p atEnd b ∧
        ∀ e, e ∈ Step.visits twoStatements (Template.ecj.handler n) k.reading.cursor ∨
          e ∈ Step.visits twoStatements (Template.ecj.block n) (some p) →
            Agreed twoStatements b e := by
  intro r k b
  obtain ⟨-, -, hsteps, htemplates⟩ := bindings_persist_agree twoStatements
  have hattempt : (k.attempt twoStatements .ecj).1 = some ⟨⟨16, 21⟩, ⟨23, 46⟩⟩ := by
    decide +kernel
  have hread : ∃ r', Step.readAll twoStatements (Ecj.closeAndThrow 0) r = .ok r' :=
    exists_eq_ok_of_isOk (by decide +kernel)
  obtain ⟨r', hr'⟩ := hread
  exact ⟨⟨r', hr', (hsteps _ _ _ hr').2⟩, hattempt, htemplates .ecj k _ hattempt⟩

end TryResources
