import TryResources.Listing.Line
import TryResources.Method.TableBuilder

/-!
# Listings

A listing describes methods in text: for each its name and descriptor, its lines of code and its
exception table, with labels by name.

* `MethodListing.toMethod` reads the lines in order and builds the method; a malformed line is
  reported before any fault of the whole.
* `MethodListing.toTableMethod` does it by a builder with tables.
* `MethodListing.tell_bind`: they might as well read all lines before they carry out the first.
-/

namespace TryResources

/-- The description of one method. -/
structure MethodListing where
  name : String
  desc : String := "()V"
  code : List String
  table : List (Block String) := []
  deriving Repr, DecidableEq

/-- Has a builder carry out what a line of code says, if it says anything. -/
def Line.carryOut {β : Type} (apply : β → Directive → β) (b : β) (line : String) :
    Except MethodError β := do
  match ← Line.read line with
  | some n => return apply b (.emit n)
  | none => return b

namespace MethodListing

/-- Tells a listing to a builder, of which `apply` is how it carries out a directive: first the lines
of code, one after the other up to the first that is malformed, then the exception table. -/
def tell {β : Type} (apply : β → Directive → β) (l : MethodListing) (b : β) :
    Except MethodError β := do
  let b ← l.code.foldlM (Line.carryOut apply) b
  return l.table.foldl (fun b e => apply b (.protect e)) b

/-- A method that has a name and a descriptor but nothing else yet. -/
def blank (l : MethodListing) : Builder :=
  { name := l.name, desc := l.desc }

/-- The method that a listing describes. -/
def toMethod (l : MethodListing) : Except MethodError Method := do
  let b ← l.tell Builder.apply l.blank
  b.build

/-- The method that a listing describes, if names are put in some order before it is checked that
each has been placed. -/
def toMethodInOrder (l : MethodListing) (arrange : List String → List String) :
    Except MethodError Method := do
  let b ← l.tell Builder.apply l.blank
  b.buildInOrder (arrange b.names)

/-- The method that a listing describes, if the builder keeps tables and their entries are put in
some order before it is checked that each name has been placed. -/
def toTableMethod (l : MethodListing)
    (arrange : List (String × LabelId) → List (String × LabelId)) :
    Except MethodError TableMethod := do
  let t ← l.tell TableBuilder.apply { name := l.name, desc := l.desc }
  t.buildInOrder (arrange t.labels)

/-- The directives for the lines of code, without those that are blank. -/
def codeDirectives (l : MethodListing) : Except MethodError (List Directive) := do
  let nodes ← l.code.mapM Line.read
  return nodes.filterMap fun n => n.map .emit

/-- The directives for the exception table. -/
def tableDirectives (l : MethodListing) : List Directive :=
  l.table.map .protect

/-- It makes no difference whether a line is carried out before the next one is read, or all lines
are read first. -/
theorem foldlM_carryOut {β : Type} (apply : β → Directive → β) (lines : List String) (b : β) :
    lines.foldlM (Line.carryOut apply) b =
      (lines.mapM Line.read).map fun nodes =>
        (nodes.filterMap fun n => n.map Directive.emit).foldl apply b := by
  induction lines generalizing b with
  | nil => rfl
  | cons line lines ih =>
    rw [List.foldlM_cons, List.mapM_cons, Line.carryOut]
    cases Line.read line with
    | error e => rfl
    | ok held =>
      cases held with
      | none =>
        show lines.foldlM (Line.carryOut apply) b = _
        rw [ih]
        cases lines.mapM Line.read <;> rfl
      | some n =>
        show lines.foldlM (Line.carryOut apply) (apply b (.emit n)) = _
        rw [ih]
        cases lines.mapM Line.read <;> rfl

/-- What is done with a builder that has been told a listing may wait until all lines are read. -/
theorem tell_bind {β γ : Type} (apply : β → Directive → β) (l : MethodListing) (b : β)
    (finish : β → Except MethodError γ) :
    (l.tell apply b >>= finish) = l.codeDirectives >>= fun ds =>
      finish ((ds ++ l.tableDirectives).foldl apply b) := by
  rw [tell, foldlM_carryOut, codeDirectives]
  cases l.code.mapM Line.read with
  | error e => rfl
  | ok nodes =>
    show finish (l.table.foldl _ ((nodes.filterMap _).foldl apply b)) = finish _
    rw [List.foldl_append, tableDirectives, List.foldl_map]

end MethodListing

/-- A whole listing. -/
structure Listing where
  methods : List MethodListing
  deriving Repr, DecidableEq

/-- The methods that a listing describes, unless one of them is faulty. -/
def Listing.toMethods (l : Listing) : Except MethodError (List Method) :=
  l.methods.mapM MethodListing.toMethod

end TryResources
