import TryResources.Proofs.Blockwise
import TryResources.Proofs.Exclusion

/-!
# What the log tells

The filter logs each entry of the exception table apart: that its handler is undefined, or which
shapes of javac were tried in vain and which template fits. What is logged for an entry agrees with
what is reported for it, so that the log and the ranges of a method can be read side by side.

* `Trial.run_of_none`, `Trial.run_of_some`: what comes of templates that are tried in order.
* `Options.entryLog`, `log_eq_flatMap`: the log, entry by entry.
* `Record.Announces`: a record that tells of a pair of ranges.
* `announces_entryLog`: an entry has such a record for the pair that it contributes.
* `log_entrywise`: the log of any method.
-/

namespace TryResources

open Matching

/-! ## Trials -/

/-- What a template recognises at a handler, whatever the matcher did before. -/
def Template.sightingAt? (code : Code) (s : Nat) (t : Template) : Option Sighting :=
  ((({} : Matcher).restart s).attempt code t).1

namespace Trial

variable {code : Code} {s : Nat} {t : Template} {w : Sighting} {before after ts : List Template}

/-- A template that does not fit is rejected, and the next ones are tried. -/
theorem run_cons_of_none (h : t.sightingAt? code s = none) (ts : List Template) (k : Matcher) :
    (run code s (t :: ts) k).1 =
      { (run code s ts {}).1 with rejected := t :: (run code s ts {}).1.rejected } := by
  have hattempt : ((k.restart s).attempt code t).1 = none := h
  rw [run]
  rcases hresult : (k.restart s).attempt code t with ⟨_ | w, k'⟩
  · show { (run code s ts k').1 with rejected := t :: (run code s ts k').1.rejected } = _
    rw [run_fst_eq code s ts k' {}]
  · rw [hresult] at hattempt
    cases hattempt

/-- A template that fits is accepted, and no other one is tried. -/
theorem run_cons_of_some (h : t.sightingAt? code s = some w) (ts : List Template) (k : Matcher) :
    (run code s (t :: ts) k).1 = { accepted := some (t, w) } := by
  have hattempt : ((k.restart s).attempt code t).1 = some w := h
  rw [run]
  rcases hresult : (k.restart s).attempt code t with ⟨_ | w', k'⟩
  · rw [hresult] at hattempt
    cases hattempt
  · rw [hresult] at hattempt
    cases hattempt
    rfl

/-- If no template fits, all are rejected. -/
theorem run_of_none (h : ∀ t ∈ ts, t.sightingAt? code s = none) (k : Matcher) :
    (run code s ts k).1 = { rejected := ts } := by
  induction ts generalizing k with
  | nil => rfl
  | cons t ts ih =>
    obtain ⟨ht, hts⟩ := List.forall_mem_cons.1 h
    rw [run_cons_of_none ht, ih hts]

/-- Those in front of the first that fits are rejected. -/
theorem run_of_some (hbefore : ∀ t ∈ before, t.sightingAt? code s = none)
    (ht : t.sightingAt? code s = some w) (after : List Template) (k : Matcher) :
    (run code s (before ++ t :: after) k).1 = ⟨before, some (t, w)⟩ := by
  induction before generalizing k with
  | nil => exact run_cons_of_some ht after k
  | cons t' before ih =>
    obtain ⟨ht', hbefore⟩ := List.forall_mem_cons.1 hbefore
    rw [List.cons_append, run_cons_of_none ht', ih hbefore]

end Trial

/-! ## Entries -/

/-- A record announces a pair of ranges: it names the template that recognises them at some handler,
that handler, and where both ranges start and end. -/
structure Record.Announces (m : Method) (r : Record) (pair : Range × Range) : Prop where
  exists_recognised : ∃ t s w, r = .recognised t s w ∧ t.sightingAt? m.code s = some w ∧
    w.ranges = .ok pair ∧
    r.text m = m.signature ++ ": " ++ t.name ++ " at " ++ Position.render s ++ ", ignoring " ++
      pair.1.render ++ " and " ++ pair.2.render

namespace Options

variable {o : Options} {m : Method} {b : Block LabelId} {s : Nat}

/-- What is logged for an entry of the exception table. -/
def entryLog (o : Options) (m : Method) (b : Block LabelId) : List Record :=
  (o.examine m b {}).1.records

/-- The log of a method is what is logged for its entries, in the order of the table. -/
theorem log_eq_flatMap (o : Options) (m : Method) : o.log m = m.blocks.flatMap (o.entryLog m) := by
  rw [log, findings_eq_map, List.flatMap_map]
  rfl

theorem entryLog_of_eq_none (h : m.handlerPosition? b = none) :
    o.entryLog m b = [.undefinedHandler b.handler] := by
  rw [entryLog, examine, h]
  rfl

theorem entryLog_of_eq_some (h : m.handlerPosition? b = some s) :
    o.entryLog m b =
      (Finding.tried s (Trial.run m.code s (o.templates b.catchType) {}).1).records := by
  rw [entryLog, examine, h]

/-- Where templates are tried in vain, the shapes of javac among them are logged. -/
theorem entryLog_of_none (h : m.handlerPosition? b = some s)
    (hnone : ∀ t ∈ o.templates b.catchType, t.sightingAt? m.code s = none) :
    o.entryLog m b =
      ((o.templates b.catchType).filterMap Template.shape?).map (.mismatch · s) := by
  rw [entryLog_of_eq_some h, Trial.run_of_none hnone]
  exact List.append_nil _

/-- Where a template fits, those in front of it are logged like this, and then that it fits. -/
theorem entryLog_of_some {before after : List Template} {t : Template} {w : Sighting}
    (h : m.handlerPosition? b = some s)
    (htemplates : o.templates b.catchType = before ++ t :: after)
    (hbefore : ∀ t ∈ before, t.sightingAt? m.code s = none)
    (ht : t.sightingAt? m.code s = some w) :
    o.entryLog m b =
      (before.filterMap Template.shape?).map (.mismatch · s) ++ [.recognised t s w] := by
  rw [entryLog_of_eq_some h, htemplates, Trial.run_of_some hbefore ht]
  rfl

theorem filterMap_shape?_map (shapes : List Javac.Shape) :
    (shapes.map Template.javac).filterMap Template.shape? = shapes := by
  rw [List.filterMap_map]
  exact List.filterMap_some

/-! ## Records and ranges -/

theorem recognise_eq_none_iff {code : Code} {catchType : Option String} :
    o.recognise code s catchType = none ↔
      ∀ t ∈ o.templates catchType, t.sightingAt? code s = none := by
  simp only [recognise, List.findSome?_eq_none_iff, Option.map_eq_none_iff, Template.sightingAt?]

theorem recognise_eq_some_iff {code : Code} {catchType : Option String} {t : Template}
    {w : Sighting} : o.recognise code s catchType = some (t, w) ↔
      ∃ before after, o.templates catchType = before ++ t :: after ∧
        t.sightingAt? code s = some w ∧ ∀ t' ∈ before, t'.sightingAt? code s = none := by
  simp only [recognise, List.findSome?_eq_some_iff, Option.map_eq_none_iff, Option.map_eq_some_iff,
    Prod.mk.injEq, Template.sightingAt?]
  constructor
  · rintro ⟨before, _, after, htemplates, ⟨_, ht, rfl, rfl⟩, hbefore⟩
    exact ⟨before, after, htemplates, ht, hbefore⟩
  · rintro ⟨before, after, htemplates, ht, hbefore⟩
    exact ⟨before, t, after, htemplates, ⟨w, ht, rfl, rfl⟩, hbefore⟩

theorem filter_mismatch (shapes : List Javac.Shape) (s : Nat) :
    (shapes.map (Record.mismatch · s)).filter (·.level = .debug) = [] := by
  rw [List.filter_eq_nil_iff]
  intro r hr
  obtain ⟨shape, -, rfl⟩ := List.mem_map.1 hr
  simp [Record.level]

/-- What recognises a pair of ranges announces it. -/
theorem announces_of_sightingAt? {t : Template} {w : Sighting} {pair : Range × Range}
    (ht : t.sightingAt? m.code s = some w) (hranges : w.ranges = .ok pair) :
    Record.Announces m (.recognised t s w) pair := by
  refine ⟨t, s, w, rfl, ht, hranges, ?_⟩
  obtain ⟨normal, hnormal, hrest⟩ := bind_eq_ok_iff.1 hranges
  obtain ⟨handler, hhandler, hpair⟩ := bind_eq_ok_iff.1 hrest
  cases hpair
  obtain ⟨hfirst, hlast⟩ := Range.between_eq_ok_iff.1 hnormal
  obtain ⟨hfirst', hlast'⟩ := Range.between_eq_ok_iff.1 hhandler
  rw [Range.render, Range.render, hfirst, hlast, hfirst', hlast']
  rfl

/-- Of what is logged for an entry, a record of level `debug` announces the pair of ranges that the
entry contributes, if it contributes one. -/
theorem announces_entryLog (o : Options) (m : Method) (b : Block LabelId) :
    List.Forall₂ (Record.Announces m) ((o.entryLog m b).filter (·.level = .debug))
      (o.statement? m.code (m.handlerPosition? b) b.catchType).toList := by
  cases h : m.handlerPosition? b with
  | none =>
    rw [entryLog_of_eq_none h]
    exact .nil
  | some s =>
    cases hfound : o.recognise m.code s b.catchType with
    | none =>
      rw [entryLog_of_none h (recognise_eq_none_iff.1 hfound), filter_mismatch]
      simp [statement?, hfound]
    | some found =>
      obtain ⟨t, w⟩ := found
      obtain ⟨before, after, htemplates, ht, hbefore⟩ := recognise_eq_some_iff.1 hfound
      obtain ⟨-, -, pair, hranges⟩ := of_recognise_eq_some hfound
      have hstatement : o.statement? m.code (some s) b.catchType = some pair := by
        simp [statement?, hfound, hranges, Except.toOption]
      rw [entryLog_of_some h htemplates hbefore ht, List.filter_append, filter_mismatch, hstatement]
      exact .cons (announces_of_sightingAt? ht hranges) .nil

/-- The records of level `debug` announce the pairs of ranges of a method, in order. -/
theorem announces_log (o : Options) (m : Method) :
    List.Forall₂ (Record.Announces m) ((o.log m).filter (·.level = .debug))
      (o.statements m m.blocks) := by
  rw [log_eq_flatMap, List.filter_flatMap, statements, List.filterMap_eq_flatMap_toList]
  induction m.blocks with
  | nil => exact .nil
  | cons b bs ih => exact List.rel_append (o.announces_entryLog m b) ih

/-! ## Families of compilers -/

theorem templates_throwable (hjavac : o.javac = true) :
    o.templates (some throwable) = Javac.Shape.all.map .javac := by
  simp [templates, hjavac]

theorem templates_none (hecj : o.ecj = true) : o.templates none = [.ecj, .ecjNoFlowOut] := by
  simp [templates, hecj]

theorem templates_eq_nil {catchType : Option String}
    (hjavac : catchType = some throwable → o.javac = false)
    (hecj : catchType = none → o.ecj = false) : o.templates catchType = [] := by
  cases catchType with
  | none => simp [templates, hecj rfl]
  | some type =>
    by_cases htype : type = throwable
    · simp [templates, hjavac (congrArg some htype)]
    · simp [templates, htype]

/-- A handler of javac: the shapes in front of the one that fits, and this one. -/
theorem entryLog_of_shape {before after : List Javac.Shape} {shape : Javac.Shape} {w : Sighting}
    (h : m.handlerPosition? b = some s) (hcatch : b.catchType = some throwable)
    (hjavac : o.javac = true) (hall : Javac.Shape.all = before ++ shape :: after)
    (hbefore : ∀ other ∈ before, (Template.javac other).sightingAt? m.code s = none)
    (hshape : (Template.javac shape).sightingAt? m.code s = some w) :
    o.entryLog m b = before.map (.mismatch · s) ++ [.recognised (.javac shape) s w] := by
  have htemplates : o.templates b.catchType =
      before.map .javac ++ .javac shape :: after.map .javac := by
    rw [hcatch, templates_throwable hjavac, hall, List.map_append, List.map_cons]
  rw [entryLog_of_some h htemplates (List.forall_mem_map.2 hbefore) hshape, filterMap_shape?_map]

/-- A handler of javac that no shape fits. -/
theorem entryLog_of_no_shape (h : m.handlerPosition? b = some s)
    (hcatch : b.catchType = some throwable) (hjavac : o.javac = true)
    (hnone : ∀ shape, (Template.javac shape).sightingAt? m.code s = none) :
    o.entryLog m b = Javac.Shape.all.map (.mismatch · s) := by
  have htemplates : o.templates b.catchType = Javac.Shape.all.map .javac := by
    rw [hcatch, templates_throwable hjavac]
  have hall : ∀ t ∈ o.templates b.catchType, t.sightingAt? m.code s = none := by
    rw [htemplates]
    exact List.forall_mem_map.2 fun shape _ => hnone shape
  rw [entryLog_of_none h hall, htemplates, filterMap_shape?_map]

theorem length_flatMap_both (pairs : List (Range × Range)) :
    (pairs.flatMap both).length = 2 * pairs.length := by
  induction pairs with
  | nil => rfl
  | cons pair pairs ih =>
    obtain ⟨normal, handler⟩ := pair
    rw [List.flatMap_cons, List.length_append, ih, List.length_cons]
    show 2 + _ = _
    omega

/-- **The log tells what happened.** What is logged for a method is logged entry by entry, in the
order of the exception table:

1. for an entry whose handler is undefined, whatever it catches and whatever the options are, that
   its handler is undefined (level `warn`);
2. for an entry that catches `java/lang/Throwable`, if javac is recognised, which shapes were tried
   in vain (level `trace`), in order up to the first that fits, and then that this one fits (level
   `debug`); if none fits, all shapes;
3. for an entry that catches everything, if ecj is recognised, that a template fits, and nothing if
   none does;
4. nothing for any other entry.

The records of level `debug` announce the pairs of ranges that are reported, one by one and in
order, so there are twice as many ranges. -/
theorem log_entrywise (o : Options) (m : Method) :
    o.log m = m.blocks.flatMap (o.entryLog m) ∧
    (∀ b, m.handlerPosition? b = none → o.entryLog m b = [.undefinedHandler b.handler]) ∧
    (∀ b s, m.handlerPosition? b = some s →
      let fits (t : Template) := t.sightingAt? m.code s
      (b.catchType = some throwable → o.javac = true →
        (∀ before shape after w, Javac.Shape.all = before ++ shape :: after →
          (∀ other ∈ before, fits (.javac other) = none) → fits (.javac shape) = some w →
            o.entryLog m b = before.map (.mismatch · s) ++ [.recognised (.javac shape) s w]) ∧
        ((∀ shape, fits (.javac shape) = none) →
          o.entryLog m b = Javac.Shape.all.map (.mismatch · s))) ∧
      (b.catchType = none → o.ecj = true →
        (∀ w, fits .ecj = some w → o.entryLog m b = [.recognised .ecj s w]) ∧
        (∀ w, fits .ecj = none → fits .ecjNoFlowOut = some w →
          o.entryLog m b = [.recognised .ecjNoFlowOut s w]) ∧
        (fits .ecj = none → fits .ecjNoFlowOut = none → o.entryLog m b = [])) ∧
      ((b.catchType = some throwable → o.javac = false) → (b.catchType = none → o.ecj = false) →
        o.entryLog m b = [])) ∧
    ∃ pairs, o.ignoredRanges m = .ok (pairs.flatMap both) ∧
      List.Forall₂ (Record.Announces m) ((o.log m).filter (·.level = .debug)) pairs ∧
      (pairs.flatMap both).length = 2 * (o.log m).countP (·.level = .debug) := by
  refine ⟨o.log_eq_flatMap m, fun b h => entryLog_of_eq_none h, ?_, ?_⟩
  · intro b s h fits
    refine ⟨fun hcatch hjavac => ⟨?_, ?_⟩, fun hcatch hecj => ?_, fun hjavac hecj => ?_⟩
    · intro before shape after w hall hbefore hshape
      exact entryLog_of_shape h hcatch hjavac hall hbefore hshape
    · exact entryLog_of_no_shape h hcatch hjavac
    · have htemplates : o.templates b.catchType = [.ecj, .ecjNoFlowOut] := by
        rw [hcatch, templates_none hecj]
      have hfirst : o.templates b.catchType = [] ++ .ecj :: [.ecjNoFlowOut] := htemplates
      have hsecond : o.templates b.catchType = [.ecj] ++ .ecjNoFlowOut :: [] := htemplates
      refine ⟨fun w hw => ?_, fun w hnone hw => ?_, fun hnone hnone' => ?_⟩
      · exact entryLog_of_some h hfirst (by simp) hw
      · exact entryLog_of_some h hsecond (by simpa using hnone) hw
      · have hall : ∀ t ∈ o.templates b.catchType, fits t = none := by
          rw [htemplates]
          simpa using ⟨hnone, hnone'⟩
        rw [entryLog_of_none h hall, htemplates]
        rfl
    · have htemplates := templates_eq_nil hjavac hecj
      rw [entryLog_of_none h (by simp [htemplates]), htemplates]
      rfl
  · have hannounces := o.announces_log m
    refine ⟨_, o.ignoredRanges_eq_statements m, hannounces, ?_⟩
    rw [length_flatMap_both, List.countP_eq_length_filter, hannounces.length_eq]

/-- Entries whose handler is undefined, is of no shape of javac, or is recognised. -/
theorem log_entrywise_twoStatements :
    let undefined : Block LabelId := ⟨⟨0⟩, ⟨1⟩, ⟨9⟩, some "java/io/IOException"⟩
    let shapeless : Block LabelId := ⟨⟨0⟩, ⟨1⟩, ⟨3⟩, some throwable⟩
    let javac : Block LabelId := ⟨⟨0⟩, ⟨1⟩, ⟨1⟩, some throwable⟩
    let ecj : Block LabelId := ⟨⟨1⟩, ⟨3⟩, ⟨3⟩, none⟩
    let table := [undefined, shapeless, javac, ecj]
    let m : Method := { name := "m", desc := "()V", code := twoStatements, blocks := table }
    let log := entryLog {} m
    (m.handlerPosition? undefined = none ∧ log undefined = [.undefinedHandler ⟨9⟩]) ∧
    (m.handlerPosition? shapeless = some 22 ∧
      (∀ shape, (Template.javac shape).sightingAt? m.code 22 = none) ∧
      log shapeless = Javac.Shape.all.map (.mismatch · 22)) ∧
    (m.handlerPosition? javac = some 4 ∧
      (Template.javac .optimal).sightingAt? m.code 4 = some ⟨⟨1, 3⟩, ⟨5, 15⟩⟩ ∧
      log javac = [.recognised (.javac .optimal) 4 ⟨⟨1, 3⟩, ⟨5, 15⟩⟩]) ∧
    m.handlerPosition? ecj = some 22 ∧
      Template.ecj.sightingAt? m.code 22 = some ⟨⟨16, 21⟩, ⟨23, 46⟩⟩ ∧
      log ecj = [.recognised .ecj 22 ⟨⟨16, 21⟩, ⟨23, 46⟩⟩] := by
  intro undefined shapeless javac ecj table m log
  obtain ⟨-, hundefined, hentry, -⟩ := log_entrywise {} m
  have hposition : m.handlerPosition? undefined = none ∧ m.handlerPosition? shapeless = some 22 ∧
      m.handlerPosition? javac = some 4 ∧ m.handlerPosition? ecj = some 22 := by decide +kernel
  obtain ⟨hnone, hshapeless, hjavac, hecj⟩ := hposition
  have hmismatch : ∀ shape, (Template.javac shape).sightingAt? m.code 22 = none := by
    intro shape
    cases shape <;> decide +kernel
  have hoptimal : (Template.javac .optimal).sightingAt? m.code 4 = some ⟨⟨1, 3⟩, ⟨5, 15⟩⟩ := by
    decide +kernel
  have hflow : Template.ecj.sightingAt? m.code 22 = some ⟨⟨16, 21⟩, ⟨23, 46⟩⟩ := by decide +kernel
  refine ⟨⟨hnone, hundefined _ hnone⟩, ⟨hshapeless, hmismatch, ?_⟩, ⟨hjavac, hoptimal, ?_⟩,
    hecj, hflow, ?_⟩
  · exact ((hentry _ _ hshapeless).1 rfl rfl).2 hmismatch
  · exact ((hentry _ _ hjavac).1 rfl rfl).1 [] .optimal _ _ rfl (by simp) hoptimal
  · exact ((hentry _ _ hecj).2.1 rfl rfl).1 _ hflow

end Options

end TryResources
