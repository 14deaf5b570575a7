import Mathlib.Data.List.Nodup
import Mathlib.Logic.Encodable.Basic
import Mathlib.Tactic.DeriveEncodable
import TryResources.Method
import TryResources.Proofs.Ecj
import TryResources.Proofs.Javac
import TryResources.Proofs.Nodes
import TryResources.Range

/-!
# Methods that compilers emit

The code that compilers emit for statements, node by node, with line numbers and stack frames
where they put them. Javac emits a statement in one of four shapes, ecj one that closes any number
of resources, in two ways: the body may end normally, or it always returns. A method may consist
of any number of statements; they use the same labels by name, so each gets numbers of its own.

* `Statement.segments`, `Statement.table`: the nodes and the exception table of one statement.
* `methodOf`: statements one behind the other.
* `rangesOf`: the ranges that are to be found there.
* `nodup_labels_nodesOf`: no label is defined twice.
-/

namespace TryResources.Compiled

open Matching

deriving instance Encodable for Matching.Path

deriving instance Encodable for Matching.Merge

/-! ## Nodes -/

/-- The labels that a statement defines. -/
inductive Label
  /-- Around the body. -/
  | tryStart | tryEnd
  /-- Behind the statement. -/
  | exit
  /-- Where the statement's handlers start, from the outermost on. -/
  | handler (i : Nat) | lastHandler
  /-- Around the call that closes the resource, where what it throws is suppressed, where it is
  closed without a primary exception, and behind it all: on either path of javac. -/
  | closeStart (path : Path) | closeEnd (path : Path)
  | suppress (path : Path) | plain (path : Path) | done (path : Path)
  /-- Behind the closing of a resource by ecj, where the statement goes on and where it throws. -/
  | skipped (i : Nat) | closed (i : Nat)
  /-- Where there is a primary exception already, and behind the merge with it. -/
  | present (site : Merge) | merged (site : Merge)
  deriving DecidableEq, Encodable

@[simp] def load (s : Slot) : Node Label := .insn ⟨.aload, .slot s⟩

@[simp] def store (s : Slot) : Node Label := .insn ⟨.astore, .slot s⟩

@[simp] def jump (op : Opcode) (l : Label) : Node Label := .insn ⟨op, .target l⟩

@[simp] def bare (op : Opcode) : Node Label := .insn ⟨op, .none⟩

@[simp] def call (op : Opcode) (owner name desc : String) : Node Label :=
  .insn ⟨op, .member ⟨owner, name, desc⟩⟩

/-- Opens a resource. -/
def opening (s : Slot) : List (Node Label) :=
  [.line 10, call .invokestatic "Fixture" "open" "()Ljava/io/Reader;", store s]

/-- The body of a statement uses its first resource. -/
def body (s : Slot) : List (Node Label) :=
  [.label .tryStart, .line 11, load s,
    call .invokestatic "Fixture" "consume" "(Ljava/io/Reader;)V", .label .tryEnd]

def close (s : Slot) (owner : String) : List (Node Label) :=
  [load s, call .invokevirtual owner "close" "()V"]

def addSuppressed (primary s : Slot) : List (Node Label) :=
  [load primary, load s,
    call .invokevirtual "java/lang/Throwable" "addSuppressed" "(Ljava/lang/Throwable;)V"]

/-! ## Segments -/

/-- The nodes of a statement: the normal path and the handlers, and what stands around them. -/
structure Segments where
  before : List (Node Label)
  normal : List (Node Label)
  between : List (Node Label)
  handler : List (Node Label)
  after : List (Node Label)
  before_pos : 0 < before.length
  /-- The normal path starts with an instruction. -/
  normal_head : ∃ i rest, normal = .insn i :: rest
  handler_pos : 0 < handler.length

namespace Segments

theorem normal_pos (g : Segments) : 0 < g.normal.length := by
  obtain ⟨i, rest, h⟩ := g.normal_head
  rw [h]
  exact Nat.succ_pos _

def nodes (g : Segments) : List (Node Label) :=
  g.before ++ (g.normal ++ (g.between ++ (g.handler ++ g.after)))

/-- The normal path of a statement whose first node is at position `d`. -/
def normalRange (g : Segments) (d : Nat) : Range where
  first := d + g.before.length
  last := d + g.before.length + g.normal.length - 1
  first_le_last := by
    have := g.normal_pos
    omega

/-- The handlers of a statement whose first node is at position `d`. -/
def handlerRange (g : Segments) (d : Nat) : Range where
  first := d + g.before.length + g.normal.length + g.between.length
  last := d + g.before.length + g.normal.length + g.between.length + g.handler.length - 1
  first_le_last := by
    have := g.handler_pos
    omega

end Segments

/-! ## Statements of javac -/

section

variable (x : Javac.Locals) (suppressed : Slot) (path : Path)

def ifNull : List (Node Label) :=
  [load x.resource, jump .ifnull (.done path)]

def byHelper : List (Node Label) :=
  [load x.primary, load x.resource,
    call .invokestatic "Fixture" "$closeResource"
      "(Ljava/lang/Throwable;Ljava/lang/AutoCloseable;)V"]

/-- The handler for what the call that closes the resource throws. -/
def suppressing : List (Node Label) :=
  [.label (.suppress path), .frame, store suppressed] ++ addSuppressed x.primary suppressed

def inPlace : List (Node Label) :=
  [load x.primary, jump .ifnull (.plain path), .label (.closeStart path)] ++
    close x.resource x.owner ++ [.label (.closeEnd path), jump .goto (.done path)] ++
  suppressing x suppressed path ++
  ([jump .goto (.done path), .label (.plain path), .frame] ++ close x.resource x.owner)

/-- Closes the resource. -/
def closing : Javac.Shape → List (Node Label)
  | .optimal => byHelper x
  | .full => ifNull x path ++ inPlace x suppressed path
  | .omittedNullCheck => inPlace x suppressed path
  | .method => ifNull x path ++ byHelper x

/-- The second handler of a statement closes the resource and throws on. -/
def rethrowing (suppressed : Slot) (shape : Javac.Shape) : List (Node Label) :=
  [.label (.handler 1), .frame, store x.rethrown] ++
    closing x suppressed .exceptional shape ++
    [.label (.done .exceptional), .frame, load x.rethrown, bare .athrow]

end

/-- A statement of javac. -/
def javac (shape : Javac.Shape) (x : Javac.Locals) (suppressed : Path → Slot) : Segments where
  before := opening x.resource ++ [bare .aconstNull, store x.primary] ++ body x.resource
  normal := closing x (suppressed .normal) .normal shape ++
    [.label (.done .normal), .frame, jump .goto .exit]
  between := [.label (.handler 0)]
  handler :=
    [.frame, store x.caught, load x.caught, store x.primary, load x.caught, bare .athrow] ++
    rethrowing x (suppressed .exceptional) shape
  after := [.label .exit, .frame, .line 13, bare .returnVoid]
  before_pos := by simp
  normal_head := by cases shape <;> exact ⟨_, _, rfl⟩
  handler_pos := by simp

/-- Where the resource is closed in place, the call is protected. -/
def closeTable (path : Path) : Javac.Shape → List (Block Label)
  | .full | .omittedNullCheck =>
    [⟨.closeStart path, .closeEnd path, .suppress path, some throwable⟩]
  | .optimal | .method => []

def javacTable (shape : Javac.Shape) : List (Block Label) :=
  closeTable .normal shape ++ closeTable .exceptional shape ++
    [⟨.tryStart, .tryEnd, .handler 0, some throwable⟩, ⟨.tryStart, .handler 1, .handler 1, none⟩]

/-! ## Statements of ecj -/

/-- The resources of a statement: the variables that hold them, all different, and the types that
declare their `close` methods. -/
structure Resources where
  count : Nat
  count_pos : 1 ≤ count
  slot : Nat → Slot
  owner : Nat → String
  slot_inj : ∀ i < count, ∀ j < count, slot i = slot j → i = j

section

variable (r : Resources) (primary : Slot) (merged : Merge → Slot)

def openings : List (Node Label) :=
  (List.range' 0 r.count).flatMap (fun i => opening (r.slot i)) ++ body (r.slot 0)

/-- Closes a resource unless it is null. -/
def closingOf (i : Nat) (target : Label) : List (Node Label) :=
  [load (r.slot i), jump .ifnull target] ++ close (r.slot i) (r.owner i)

/-- Closes a resource unless it is null, and throws the primary exception. -/
def closingAndThrowing (i : Nat) : List (Node Label) :=
  closingOf r i (.closed i) ++ [.label (.closed i), .frame, load primary, bare .athrow]

/-- Merges what is caught into the primary exception. -/
def merging (site : Merge) : List (Node Label) :=
  [.frame, store (merged site), load primary, jump .ifnonnull (.present site),
    load (merged site), store primary, jump .goto (.merged site),
    .label (.present site), .frame,
    load primary, load (merged site), jump .ifAcmpeq (.merged site)] ++
  addSuppressed primary (merged site) ++
  [.label (.merged site)]

/-- A resource behind the first one is closed inside the handler, whose closing is protected by a
handler in turn. -/
def closingNext (i : Nat) : List (Node Label) :=
  closingOf r i .exit ++ [jump .goto .exit] ++
    .label (.handler i) :: merging primary merged (.before i) ++
    .frame :: closingAndThrowing r primary i

/-- A statement of ecj whose body may end normally. -/
def ecj : Segments where
  before := openings r
  normal := closingOf r 0 (.skipped 0) ++ [.label (.skipped 0), jump .goto .exit]
  between := [.label (.handler 0)]
  handler := [.frame, store primary] ++ closingAndThrowing r primary 0 ++
    ((List.range' 1 (r.count - 1)).flatMap (closingNext r primary merged) ++
      (.label .lastHandler :: merging primary merged .last ++
        [.frame, load primary, bare .athrow]))
  after := [.label .exit, .frame, bare .returnVoid]
  before_pos := by simp [openings, body]
  normal_head := ⟨_, _, rfl⟩
  handler_pos := by simp

def ecjTable : List (Block Label) :=
  ⟨.tryStart, .tryEnd, .handler 0, none⟩ ::
    (List.range' 1 (r.count - 1)).map (fun i => ⟨.tryStart, .handler i, .handler i, none⟩) ++
    [⟨.tryStart, .lastHandler, .lastHandler, none⟩]

/-- The handlers of a resource, where the body never ends normally: one that closes it, and one for
what closing it throws. -/
def handlersOf (i : Nat) : List (Node Label) :=
  closingAndThrowing r primary i ++
    .label (.handler (i + 1)) :: merging primary merged (.before i) ++ [.frame]

/-- A statement of ecj whose body always returns. The label behind the closing of the last resource
is no longer part of the normal path. -/
def ecjNoFlowOut (result : Slot) : Segments where
  before := openings r ++ [bare .aconstNull, store result]
  normal := closingOf r 0 (.skipped 0) ++ (List.range' 1 (r.count - 1)).flatMap
    fun i => .label (.skipped (i - 1)) :: closingOf r i (.skipped i)
  between := [.label (.skipped (r.count - 1)), .frame, load result, bare .areturn]
  handler := [.label (.handler 0), .frame, store primary] ++
    ((List.range' 0 r.count).flatMap (handlersOf r primary merged) ++
      [load primary, bare .athrow])
  after := []
  before_pos := by simp
  normal_head := ⟨_, _, rfl⟩
  handler_pos := by simp

def ecjNoFlowOutTable : List (Block Label) :=
  ⟨.tryStart, .tryEnd, .handler 0, none⟩ ::
    (List.range' 1 r.count).map fun i => ⟨.tryStart, .handler i, .handler i, none⟩

end

/-! ## Methods -/

/-- A statement as some compiler emits it. -/
inductive Statement
  | javac (shape : Javac.Shape) (x : Javac.Locals) (suppressed : Path → Slot)
  | ecj (r : Resources) (primary : Slot) (merged : Merge → Slot)
  | ecjNoFlowOut (r : Resources) (primary : Slot) (merged : Merge → Slot) (result : Slot)

namespace Statement

def segments : Statement → Segments
  | javac shape x suppressed => Compiled.javac shape x suppressed
  | ecj r primary merged => Compiled.ecj r primary merged
  | ecjNoFlowOut r primary merged result => Compiled.ecjNoFlowOut r primary merged result

def table : Statement → List (Block Label)
  | javac shape _ _ => javacTable shape
  | ecj r _ _ => ecjTable r
  | ecjNoFlowOut r _ _ _ => ecjNoFlowOutTable r

end Statement

/-- The nodes of statements one behind the other. The labels of the first get the numbers that
`number 0` gives, those of the second the ones that `number 1` gives, and so on. -/
def nodesOf (number : Nat → Label → LabelId) : List Statement → List (Node LabelId)
  | [] => []
  | st :: sts => st.segments.nodes.map (Node.map (number 0)) ++ nodesOf (number <| · + 1) sts

/-- Their exception table. -/
def tableOf (number : Nat → Label → LabelId) : List Statement → List (Block LabelId)
  | [] => []
  | st :: sts => st.table.map (Block.map (number 0)) ++ tableOf (number <| · + 1) sts

/-- A method that consists of statements. -/
def methodOf (number : Nat → Label → LabelId) (name desc : String) (sts : List Statement) :
    Method where
  name := name
  desc := desc
  code := .ofList (nodesOf number sts)
  blocks := tableOf number sts

/-- The labels that statements define, each with the number of its statement. -/
def labelsIn (sts : List Statement) : Set (Nat × Label) :=
  {a | ∃ st, sts[a.1]? = some st ∧ a.2 ∈ labelsOf st.segments.nodes}

/-- A number for any label of any statement. -/
def numbering (j : Nat) (l : Label) : LabelId :=
  ⟨Encodable.encode (j, l)⟩

theorem numbering_injective : (Function.uncurry numbering).Injective := by
  intro a b h
  exact Encodable.encode_injective (LabelId.mk.inj h)

/-- The ranges that belong to statements the first of which starts at position `d`. -/
def rangesOf : Nat → List Statement → List Range
  | _, [] => []
  | d, st :: sts => [st.segments.normalRange d, st.segments.handlerRange d] ++
      rangesOf (d + st.segments.nodes.length) sts

/-! ## Labels -/

theorem nodup_labels_javac (shape : Javac.Shape) (x : Javac.Locals) (suppressed : Path → Slot) :
    (labelsOf (javac shape x suppressed).nodes).Nodup := by
  cases shape <;> simp [Segments.nodes, javac, rethrowing, opening, body, closing, ifNull, byHelper,
    inPlace, suppressing, close, addSuppressed]

section

variable (r : Resources) (primary : Slot) (merged : Merge → Slot) (i : Nat)

theorem labelsOf_openings : labelsOf (openings r) = [.tryStart, .tryEnd] := by
  simp [openings, opening, body]

theorem labelsOf_closingOf (target : Label) : labelsOf (closingOf r i target) = [] := by
  simp [closingOf, close]

theorem labelsOf_closingAndThrowing : labelsOf (closingAndThrowing r primary i) = [.closed i] := by
  simp [closingAndThrowing, labelsOf_closingOf]

theorem labelsOf_merging (site : Merge) :
    labelsOf (merging primary merged site) = [.present site, .merged site] := by
  simp [merging, addSuppressed]

theorem labelsOf_closingNext : labelsOf (closingNext r primary merged i) =
    [.handler i, .present (.before i), .merged (.before i), .closed i] := by
  simp [closingNext, labelsOf_closingOf, labelsOf_merging, labelsOf_closingAndThrowing]

theorem labelsOf_handlersOf : labelsOf (handlersOf r primary merged i) =
    [.closed i, .handler (i + 1), .present (.before i), .merged (.before i)] := by
  simp [handlersOf, labelsOf_merging, labelsOf_closingAndThrowing]

/-- What is numbered differently is different. -/
theorem nodup_flatMap_range' {α : Type} {f : Nat → List α} {a : Nat} (n : Nat)
    (hf : ∀ i, (f i).Nodup) (hdisjoint : ∀ i j, a ≤ i → i < j → (f i).Disjoint (f j)) :
    ((List.range' a n).flatMap f).Nodup := by
  refine List.nodup_flatMap.2 ⟨fun i _ => hf i, ?_⟩
  exact List.Pairwise.imp_of_mem (fun hi _ hij => hdisjoint _ _ (List.mem_range'_1.1 hi).1 hij)
    (List.pairwise_lt_range' (s := a) (n := n))

theorem labelsOf_ecj : labelsOf (ecj r primary merged).nodes =
    [.tryStart, .tryEnd, .skipped 0, .handler 0, .closed 0] ++
      ((List.range' 1 (r.count - 1)).flatMap (fun i =>
        [Label.handler i, .present (.before i), .merged (.before i), .closed i]) ++
      [.lastHandler, .present .last, .merged .last, .exit]) := by
  simp [Segments.nodes, ecj, labelsOf_openings, labelsOf_closingOf, labelsOf_merging,
    labelsOf_closingNext, labelsOf_closingAndThrowing]

theorem nodup_labels_ecj : (labelsOf (ecj r primary merged).nodes).Nodup := by
  have hnext : ((List.range' 1 (r.count - 1)).flatMap fun i =>
      [Label.handler i, .present (.before i), .merged (.before i), .closed i]).Nodup := by
    refine nodup_flatMap_range' _ (fun i => by simp) fun i j _ hij => ?_
    simp [List.Disjoint, hij.ne]
  -- the labels of the last merge are named unlike all others
  have hlast (l : Label) (i : Nat) (hl : l = .handler i ∨ l = .present (.before i) ∨
      l = .merged (.before i) ∨ l = .closed i) :
      l ≠ .lastHandler ∧ l ≠ .present .last ∧ l ≠ .merged .last ∧ l ≠ .exit := by
    rcases hl with rfl | rfl | rfl | rfl <;> simp
  rw [labelsOf_ecj]
  simpa [List.nodup_append, hnext] using fun l i _ _ => hlast l i

theorem labelsOf_ecjNoFlowOut (result : Slot) :
    labelsOf (ecjNoFlowOut r primary merged result).nodes =
      [.tryStart, .tryEnd] ++
        ((List.range' 1 (r.count - 1)).flatMap (fun i => [Label.skipped (i - 1)]) ++
        ([.skipped (r.count - 1), .handler 0] ++ (List.range' 0 r.count).flatMap fun i =>
          [Label.closed i, .handler (i + 1), .present (.before i), .merged (.before i)])) := by
  simp [Segments.nodes, ecjNoFlowOut, labelsOf_openings, labelsOf_closingOf, labelsOf_handlersOf]

theorem nodup_labels_ecjNoFlowOut (result : Slot) :
    (labelsOf (ecjNoFlowOut r primary merged result).nodes).Nodup := by
  have hskipped :
      ((List.range' 1 (r.count - 1)).flatMap fun i => [Label.skipped (i - 1)]).Nodup := by
    refine nodup_flatMap_range' _ (fun i => by simp) fun i j hi hij => ?_
    simp only [List.disjoint_singleton, List.mem_singleton, Label.skipped.injEq]
    omega
  have hhandlers : ((List.range' 0 r.count).flatMap fun i =>
      [Label.closed i, .handler (i + 1), .present (.before i), .merged (.before i)]).Nodup := by
    refine nodup_flatMap_range' _ (fun i => by simp) fun i j _ hij => ?_
    simp [List.Disjoint, hij.ne]
  -- the label behind closing a resource is numbered, and nothing else is named like it
  have hother (l : Label) (i : Nat) (hi : 1 ≤ i) (hin : i < 1 + (r.count - 1))
      (hl : l = .skipped (i - 1)) :
      l ≠ .skipped (r.count - 1) ∧ l ≠ .handler 0 ∧ ∀ (l' : Label) (j : Nat), j < r.count →
        l' = .closed j ∨ l' = .handler (j + 1) ∨ l' = .present (.before j) ∨
          l' = .merged (.before j) → l ≠ l' := by
    subst hl
    refine ⟨?_, by simp, fun l' j _ hl' => ?_⟩
    · simp only [ne_eq, Label.skipped.injEq]
      omega
    · rcases hl' with rfl | rfl | rfl | rfl <;> simp
  rw [labelsOf_ecjNoFlowOut]
  simpa [List.nodup_append, hskipped, hhandlers] using hother

end

theorem Statement.nodup_labels (st : Statement) : (labelsOf st.segments.nodes).Nodup := by
  cases st with
  | javac shape x suppressed => exact nodup_labels_javac shape x suppressed
  | ecj r primary merged => exact nodup_labels_ecj r primary merged
  | ecjNoFlowOut r primary merged result => exact nodup_labels_ecjNoFlowOut r primary merged result

section

variable {number : Nat → Label → LabelId} {st : Statement} {sts : List Statement} {l : Label}

theorem mem_labelsIn_head (h : l ∈ labelsOf st.segments.nodes) : (0, l) ∈ labelsIn (st :: sts) :=
  ⟨st, rfl, h⟩

theorem mem_labelsIn_tail {k : Nat} (h : (k, l) ∈ labelsIn sts) :
    (k + 1, l) ∈ labelsIn (st :: sts) :=
  h

theorem exists_of_mem_labelsOf_nodesOf {m : LabelId} (h : m ∈ labelsOf (nodesOf number sts)) :
    ∃ k l, (k, l) ∈ labelsIn sts ∧ number k l = m := by
  induction sts generalizing number with
  | nil => cases h
  | cons st sts ih =>
    rw [nodesOf, labelsOf_append, labelsOf_map, List.mem_append] at h
    rcases h with h | h
    · obtain ⟨l, hl, rfl⟩ := List.mem_map.1 h
      exact ⟨0, l, mem_labelsIn_head hl, rfl⟩
    · obtain ⟨k, l, hl, rfl⟩ := ih h
      exact ⟨k + 1, l, mem_labelsIn_tail hl, rfl⟩

/-- If different labels get different numbers, no label is defined twice. -/
theorem nodup_labels_nodesOf (hnumber : (labelsIn sts).InjOn (Function.uncurry number)) :
    (labelsOf (nodesOf number sts)).Nodup := by
  induction sts generalizing number with
  | nil => exact List.nodup_nil
  | cons st sts ih =>
    rw [nodesOf, labelsOf_append, labelsOf_map, List.nodup_append]
    refine ⟨st.nodup_labels.map_on fun l hl l' hl' h => ?_, ih fun a ha b hb h => ?_, ?_⟩
    · exact (Prod.mk.inj (hnumber (mem_labelsIn_head hl) (mem_labelsIn_head hl') h)).2
    · have := Prod.mk.inj (hnumber (mem_labelsIn_tail ha) (mem_labelsIn_tail hb) h)
      exact Prod.ext (Nat.succ.inj this.1) this.2
    · -- the statements behind the first one have other numbers
      rintro m hm _ hm' rfl
      obtain ⟨l, hl, rfl⟩ := List.mem_map.1 hm
      obtain ⟨k, l', hl', h⟩ := exists_of_mem_labelsOf_nodesOf hm'
      have := Prod.mk.inj (hnumber (mem_labelsIn_tail hl') (mem_labelsIn_head hl) h)
      exact absurd this.1 (Nat.succ_ne_zero k)

end

end TryResources.Compiled
