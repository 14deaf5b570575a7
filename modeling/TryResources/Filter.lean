import TryResources.Method
import TryResources.Template

/-!
# Filtering methods

The filter walks the exception table of a method. Where a handler catches everything it tries the
templates of ecj, where it catches `java/lang/Throwable` those of javac, and it reports both
ranges of the first template that fits. What it found, and what it tried in vain, is logged.

One matcher serves the whole table; it is started anew for every template.

* `Trial.accepted_run`: what a trial accepts, without the matcher that goes through it.
* `Options.findings_eq_map`: what is found at an entry does not depend on the entries before it.
-/

namespace TryResources

open Matching

/-- Which compilers the filter recognises. -/
structure Options where
  javac : Bool := true
  ecj : Bool := true
  deriving Repr, DecidableEq

/-- The templates to try at a handler, by what the handler catches. -/
def Options.templates (o : Options) : Option String → List Template
  | none => if o.ecj then [.ecj, .ecjNoFlowOut] else []
  | some type => if type = throwable ∧ o.javac then Javac.Shape.all.map .javac else []

/-! ## The log -/

/-- How important a record is. -/
inductive Level
  | warn | debug | trace
  deriving Repr, DecidableEq

/-- The name of a level. -/
def Level.name : Level → String
  | warn => "WARN"
  | debug => "DEBUG"
  | trace => "TRACE"

/-- Something that the filter has to say about an entry of the exception table. -/
inductive Record
  /-- The label of the handler is defined nowhere. -/
  | undefinedHandler (label : LabelId)
  /-- A shape of javac does not fit the handler. -/
  | mismatch (shape : Javac.Shape) (handler : Nat)
  /-- A template fits the handler. -/
  | recognised (template : Template) (handler : Nat) (sighting : Sighting)
  deriving Repr, DecidableEq

namespace Record

/-- The level at which a record is logged. -/
def level : Record → Level
  | undefinedHandler _ => .warn
  | mismatch _ _ => .trace
  | recognised _ _ _ => .debug

/-- The text of a record about a method. -/
def text (m : Method) : Record → String
  | undefinedHandler label =>
    m.signature ++ ": handler label " ++ label.render ++ " is not defined"
  | mismatch shape handler =>
    shape.name ++ " does not match handler at " ++ Position.render handler
  | recognised template handler sighting =>
    m.signature ++ ": " ++ template.name ++ " at " ++ Position.render handler ++ ", ignoring " ++
      sighting.normal.render ++ " and " ++ sighting.handler.render

end Record

/-! ## Entries of the exception table -/

/-- What trying templates at a handler came to. -/
structure Trial where
  /-- The templates that do not fit. -/
  rejected : List Template := []
  /-- The template that fits, and what it recognised. -/
  accepted : Option (Template × Sighting) := none
  deriving Repr, DecidableEq

/-- Tries templates at a handler in order, up to the first that fits. -/
def Trial.run (code : Code) (handler : Nat) : List Template → Matcher → Trial × Matcher
  | [], k => ({}, k)
  | t :: ts, k =>
    match (k.restart handler).attempt code t with
    | (some s, k) => ({ accepted := some (t, s) }, k)
    | (none, k) =>
      let (trial, k) := Trial.run code handler ts k
      ({ trial with rejected := t :: trial.rejected }, k)

/-- What a trial comes to does not depend on what the matcher did before. -/
theorem Trial.run_fst_eq (code : Code) (handler : Nat) (ts : List Template) (k k' : Matcher) :
    (Trial.run code handler ts k).1 = (Trial.run code handler ts k').1 := by
  cases ts with
  | nil => rfl
  | cons t ts =>
    have : k.restart handler = k'.restart handler := rfl
    simp only [Trial.run, this]

/-- A trial accepts the first template that fits a handler, as a fresh matcher finds it. -/
theorem Trial.accepted_run (code : Code) (handler : Nat) (ts : List Template) (k : Matcher) :
    (Trial.run code handler ts k).1.accepted =
      ts.findSome? fun t => ((({} : Matcher).restart handler).attempt code t).1.map (t, ·) := by
  induction ts generalizing k with
  | nil => rfl
  | cons t ts ih =>
    have hfresh : k.restart handler = ({} : Matcher).restart handler := rfl
    rw [List.findSome?_cons, ← ih ((k.restart handler).attempt code t).2, ← hfresh, Trial.run]
    rcases (k.restart handler).attempt code t with ⟨_ | w, k'⟩ <;> rfl

/-- What the filter finds at one entry of the exception table. -/
inductive Finding
  /-- The label of the handler is defined nowhere. -/
  | undefinedHandler (label : LabelId)
  /-- Templates were tried at the handler. -/
  | tried (handler : Nat) (trial : Trial)
  deriving Repr, DecidableEq

namespace Finding

/-- The records of an entry: one for each shape of javac that does not fit, then one for the
template that does. -/
def records : Finding → List Record
  | undefinedHandler label => [.undefinedHandler label]
  | tried handler trial =>
    (trial.rejected.filterMap Template.shape?).map (.mismatch · handler) ++
      trial.accepted.toList.map fun (t, s) => .recognised t handler s

/-- The ranges of an entry: two if a template fits, none otherwise. -/
def ranges : Finding → Except Fault (List Range)
  | tried _ ⟨_, some (_, s)⟩ => do
    let (normal, handler) ← s.ranges
    return [normal, handler]
  | _ => return []

end Finding

/-! ## Whole methods -/

namespace Options

/-- Looks at one entry of the exception table. -/
def examine (o : Options) (m : Method) (b : Block LabelId) (k : Matcher) : Finding × Matcher :=
  match m.handlerPosition? b with
  | none => (.undefinedHandler b.handler, k)
  | some handler =>
    let (trial, k) := Trial.run m.code handler (o.templates b.catchType) k
    (.tried handler trial, k)

/-- Looks at entries of the exception table in order. -/
def examineAll (o : Options) (m : Method) : List (Block LabelId) → Matcher → List Finding
  | [], _ => []
  | b :: bs, k =>
    let (finding, k) := o.examine m b k
    finding :: o.examineAll m bs k

/-- What is found at each entry of the exception table of a method. -/
def findings (o : Options) (m : Method) : List Finding :=
  o.examineAll m m.blocks {}

theorem examine_fst_eq (o : Options) (m : Method) (b : Block LabelId) (k k' : Matcher) :
    (o.examine m b k).1 = (o.examine m b k').1 := by
  unfold examine
  cases m.handlerPosition? b with
  | none => rfl
  | some handler => simp only [Trial.run_fst_eq m.code handler _ k k']

/-- What is found at an entry does not depend on the entries before it. -/
theorem findings_eq_map (o : Options) (m : Method) :
    o.findings m = m.blocks.map fun b => (o.examine m b {}).1 := by
  have (bs : List (Block LabelId)) (k : Matcher) :
      o.examineAll m bs k = bs.map fun b => (o.examine m b {}).1 := by
    induction bs generalizing k with
    | nil => rfl
    | cons b bs ih => simp only [examineAll, List.map_cons, ih, o.examine_fst_eq m b k {}]
  exact this m.blocks {}

/-- The ranges of a method that belong to recognised statements, in the order of the exception
table. -/
def ignoredRanges (o : Options) (m : Method) : Except Fault (List Range) := do
  let ranges ← (o.findings m).mapM Finding.ranges
  return ranges.flatten

/-- What is logged while a method is filtered. -/
def log (o : Options) (m : Method) : List Record :=
  (o.findings m).flatMap Finding.records

end Options

end TryResources
