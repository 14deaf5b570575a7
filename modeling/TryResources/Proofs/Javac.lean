import TryResources.Proofs.Layout

/-!
# The shape of statements compiled by javac

What the javac templates recognise, as code patterns over any choice of local variables. The
handler stores what it catches, rethrows it, closes the resource in one of the four shapes and
throws on; in front of the handler, the same resource is closed in the same shape. Variables may
coincide, and jump targets are free.

* `handling`, `closings`: the patterns.
* `Sighted`: code that contains a statement, and where.
* `exists_sight_eq_ok_iff`: the template of a shape succeeds exactly on such code.
* `attempt_iff_shape`: the same of an attempt, and when there is any statement at all.
-/

namespace TryResources.Javac

open Matching

/-! ## Patterns -/

/-- What a statement uses: local variables, and the type that declares the `close` method. -/
structure Locals where
  caught : Slot
  primary : Slot
  rethrown : Slot
  resource : Slot
  owner : String

def ifNull (x : Locals) : List Token :=
  [.slot .aload x.resource, .op .ifnull]

def byHelper (x : Locals) : List Token :=
  [.slot .aload x.primary, .slot .aload x.resource, .closeHelper]

/-- The resource is closed with or without a primary exception, and what closing it throws is
kept in the variable `suppressed` until the primary exception has it. -/
def inPlace (x : Locals) (suppressed : Slot) : List Token :=
  [.slot .aload x.primary, .op .ifnull,
    .slot .aload x.resource, .close x.owner, .op .goto,
    .slot .astore suppressed,
    .slot .aload x.primary, .slot .aload suppressed, .addSuppressed, .op .goto,
    .slot .aload x.resource, .close x.owner]

/-- The resource is closed. -/
def closing (x : Locals) (suppressed : Slot) : Shape → List Token
  | .optimal => byHelper x
  | .full => ifNull x ++ inPlace x suppressed
  | .omittedNullCheck => inPlace x suppressed
  | .method => ifNull x ++ byHelper x

/-- The resource is closed, with any variable for what closing it throws. -/
def closings (x : Locals) (shape : Shape) : Set (List Token) :=
  {ts | ∃ suppressed, closing x suppressed shape = ts}

/-- The two handlers. -/
def handling (x : Locals) (suppressed : Slot) (shape : Shape) : List Token :=
  [.slot .astore x.caught,
    .slot .aload x.caught, .slot .astore x.primary, .slot .aload x.caught, .op .athrow,
    .slot .astore x.rethrown] ++
  closing x suppressed shape ++
  [.slot .aload x.rethrown, .op .athrow]

/-! ## Statements -/

/-- A block that ends in front of `q` belongs to the statement up to `l`: up to the next
instruction if that is a jump that never falls through, up to its own last one otherwise. -/
def EndsAt (code : Code) (q l : Nat) : Prop :=
  (∃ i, code.FirstInsn q l i ∧ i.opcode.isUnconditionalJump = true) ∨
    (l + 1 = q ∧ ∀ m i, code.FirstInsn q m i → i.opcode.isUnconditionalJump = false)

theorem exists_endsAt (code : Code) {q : Nat} (hq : 1 ≤ q) : ∃ l, EndsAt code q l := by
  by_cases hjump : ∃ l i, code.FirstInsn q l i ∧ i.opcode.isUnconditionalJump = true
  · obtain ⟨l, hl⟩ := hjump
    exact ⟨l, .inl hl⟩
  · refine ⟨q - 1, .inr ⟨by omega, fun m i hi => ?_⟩⟩
    by_contra hi'
    exact hjump ⟨m, i, hi, by simpa using hi'⟩

/-- The code contains a statement that uses `x` and whose handler starts at `s`, and `w` says
where: the handler, and the last block in front of it that closes the resource. -/
structure Sighted (code : Code) (shape : Shape) (s : Nat) (x : Locals) (w : Sighting) : Prop where
  handler : ∃ e, Reads code s (handling x e shape) (w.handler.last + 1)
  handlerFirst : w.handler.first = s + 1
  normalFirst : IsGreatest (code.blocksBefore (closings x shape) s) w.normal.first
  normalLast : ∃ ts ∈ closings x shape, ∃ q,
    Reads code w.normal.first ts q ∧ EndsAt code q w.normal.last

/-! ## Templates and patterns -/

/-- What a valuation gives the statement. -/
def Locals.of (v : Valuation) : Locals where
  caught := v (.slot .caught)
  primary := v (.slot .primary)
  rethrown := v (.slot .rethrown)
  resource := v (.slot (.resource .only))
  owner := v (.owner .only)

/-- A valuation that gives the statement `x`, and `suppressed` in its handler. -/
def Locals.valuation (x : Locals) (suppressed : Slot) : Valuation
  | .slot .caught => x.caught
  | .slot .primary => x.primary
  | .slot .rethrown => x.rethrown
  | .slot (.resource _) => x.resource
  | .slot _ => suppressed
  | .label _ => ⟨0⟩
  | .owner _ => x.owner

variable {code : Code} {shape : Shape} {x : Locals} {s p q l : Nat} {b : Bindings} {v : Valuation}

theorem map_token_close (v : Valuation) (path : Path) (shape : Shape) :
    (close path shape).map (Step.token v) =
      closing (Locals.of v) (v (.slot (.suppressed path))) shape := by
  cases shape <;> rfl

theorem map_token_handlers (v : Valuation) (shape : Shape) :
    (handlers shape).map (Step.token v) =
      handling (Locals.of v) (v (.slot (.suppressed .exceptional))) shape := by
  cases shape <;> rfl

theorem grounded_handlers (shape : Shape) : Step.Grounded [] (handlers shape) := by
  cases shape <;> simp [Step.Grounded, handlers, close, nullCheck, closeByHelper, closeInPlace,
    loadPrimary, loadResource]

theorem grounded_close (path : Path) (shape : Shape) : Step.Grounded [] (close path shape) := by
  cases shape <;> simp [Step.Grounded, close, nullCheck, closeByHelper, closeInPlace,
    loadPrimary, loadResource]

theorem close_eq_cons (path : Path) (shape : Shape) :
    ∃ s rest, close path shape = s :: rest ∧ ∀ n, s ≠ .label n := by
  cases shape <;> exact ⟨_, _, rfl, by simp [loadPrimary, loadResource]⟩

theorem names_handlers (shape : Shape) :
    let names := (handlers shape).flatMap Step.names
    (.slot .primary ∈ names ∧ .slot (.resource .only) ∈ names) ∧
      (shape = .full ∨ shape = .omittedNullCheck → .owner .only ∈ names) ∧
      .slot (.suppressed .normal) ∉ names := by
  cases shape <;> decide

/-- After the handlers have been read, a block may differ from them in the variable for what
closing throws only. -/
theorem instances_close (hlearns : ({} : Bindings).Learns ((handlers shape).flatMap Step.names) b)
    (hv : b.Agrees v) :
    b.instances (close .normal shape) = closings (Locals.of v) shape := by
  obtain ⟨⟨hprimary, hresource⟩, howner, hsuppressed⟩ := names_handlers shape
  ext ts
  constructor
  · -- two valuations that agree with the bindings agree on all that the handlers met
    rintro ⟨v', hv', rfl⟩
    refine ⟨v' (.slot (.suppressed .normal)), ?_⟩
    have same (n : Name) (hn : n ∈ (handlers shape).flatMap Step.names) : v n = v' n :=
      hv.eq_of_knows hv' (hlearns.knows_iff_of_empty.2 hn)
    have hp := same _ hprimary
    have hr := same _ hresource
    have ho (h : shape = .full ∨ shape = .omittedNullCheck) := same _ (howner h)
    rw [map_token_close]
    cases shape with
    | optimal => simp [closing, byHelper, Locals.of, hp, hr]
    | full => simp [closing, ifNull, inPlace, Locals.of, hp, hr, ho]
    | omittedNullCheck => simp [closing, inPlace, Locals.of, hp, hr, ho]
    | method => simp [closing, ifNull, byHelper, Locals.of, hp, hr]
  · -- the variable for what closing throws has not been met yet
    rintro ⟨e, rfl⟩
    refine ⟨Function.update v (.slot (.suppressed .normal)) e, hv.congr fun n hn => ?_, ?_⟩
    · refine Function.update_of_ne ?_ _ _
      rintro rfl
      exact hsuppressed (hlearns.knows_iff_of_empty.1 hn)
    · rw [map_token_close]
      cases shape <;> rfl

/-- The handler starts by storing what it catches, so no block starts there. -/
theorem not_reads_closing_of_handling {suppressed : Slot} {ts : List Token}
    (hs : Reads code s (handling x suppressed shape) p) (hts : ts ∈ closings x shape) :
    ¬ Reads code s ts q := by
  obtain ⟨e, rfl⟩ := hts
  obtain ⟨r, rest, hclose⟩ : ∃ r rest, closing x e shape = .slot .aload r :: rest := by
    cases shape <;> exact ⟨_, _, rfl⟩
  rw [hclose]
  exact hs.not_reads trivial trivial (by simp [Token.opcodes])

theorem absorbJump_cursor_eq_some_iff :
    (absorbJump code ⟨some p, b⟩).cursor = some l ↔ EndsAt code (p + 1) l := by
  unfold absorbJump EndsAt
  split
  · rename_i hjump
    obtain ⟨m, i, hi, hi'⟩ := onUnconditionalJump_advance_iff.1 hjump
    rw [advance_cursor_eq_some_iff]
    constructor
    · rintro ⟨i', hl⟩
      obtain ⟨rfl, rfl⟩ := hi.unique hl
      exact .inl ⟨i, hl, hi'⟩
    · rintro (⟨i', hl, -⟩ | ⟨-, hnone⟩)
      · exact ⟨i', hl⟩
      · simp [hnone m i hi] at hi'
  · rename_i hjump
    have hnone : ∀ m i, code.FirstInsn (p + 1) m i → i.opcode.isUnconditionalJump = false := by
      intro m i hi
      by_contra hi'
      exact hjump (onUnconditionalJump_advance_iff.2 ⟨m, i, hi, by simpa using hi'⟩)
    constructor
    · intro hl
      exact .inr ⟨by rw [Option.some.inj hl], hnone⟩
    · rintro (⟨i, hl, hi⟩ | ⟨hl, -⟩)
      · simp [hnone l i hl] at hi
      · rw [Nat.add_right_cancel hl]

/-! ## Attempts -/

theorem layout (shape : Shape) :
    Layout (handlers shape) (close .normal shape) fun v => closings (Locals.of v) shape where
  handler_ne_nil := by simp [handlers]
  handler_grounded := grounded_handlers shape
  block_head := close_eq_cons .normal shape
  block_grounded := grounded_close .normal shape
  instances := instances_close
  disjoint := by
    intro code v s p q ts hhandler hts
    rw [map_token_handlers] at hhandler
    exact not_reads_closing_of_handling hhandler hts

/-- The template of a shape succeeds exactly on code that contains a statement of the shape. -/
theorem exists_sight_eq_ok_iff {k : Matcher} {w : Sighting} :
    (∃ r, sight code shape (k.restart s) = .ok (w, r)) ↔ ∃ x, Sighted code shape s x w := by
  constructor
  · -- the bindings at the end, completed, give the statement
    rintro ⟨r, h⟩
    obtain ⟨atEnd, hread, h⟩ := bind_eq_ok_iff.1 h
    obtain ⟨⟨before, closed⟩, hsearch, h⟩ := bind_eq_ok_iff.1 h
    obtain ⟨hfirst, hlast, hfirst', hlast', -⟩ := Verdict.between_eq_ok_iff.1 h
    obtain ⟨e, b, q, b', rfl, rfl, -, -, hcode⟩ := (layout shape).of_search_eq_ok hread hsearch
    obtain ⟨hhandler, hgreatest, ts, hts, hblock⟩ := hcode _ b'.agrees_complete
    rw [map_token_handlers] at hhandler
    have he : w.handler.last = e := (Option.some.inj hlast').symm
    have hp : w.normal.first = before + 1 := (Code.next?_eq_some_iff.1 hfirst).1
    exact ⟨Locals.of b'.complete, ⟨_, he ▸ hhandler⟩, (Code.next?_eq_some_iff.1 hfirst').1,
      hp ▸ hgreatest, ts, hts, q + 1, hp ▸ hblock, absorbJump_cursor_eq_some_iff.1 hlast⟩
  · -- the valuation that gives the statement its variables reads it
    rintro ⟨x, ⟨e, hhandler⟩, hfirst', hgreatest, ts, hts, q, hblock, hends⟩
    have hreads : Reads code s ((handlers shape).map (Step.token (x.valuation e)))
        (w.handler.last + 1) := by
      rw [map_token_handlers]
      exact hhandler
    obtain ⟨c, l, b, b', hafter, rfl, hread, hsearch, -⟩ :=
      (layout shape).exists_search_eq_ok k hreads hgreatest hts hblock
    have hafter' : code.next? s = some w.handler.first :=
      hfirst' ▸ hhandler.next?_eq_some (by simp [handling])
    exact ⟨_, bind_eq_ok_iff.2 ⟨_, hread, bind_eq_ok_iff.2 ⟨_, hsearch,
      Verdict.between_eq_ok_iff.2
        ⟨hafter, absorbJump_cursor_eq_some_iff.2 hends, hafter', rfl, rfl⟩⟩⟩⟩

theorem attempt_eq_some_iff {k : Matcher} {w : Sighting} :
    ((k.restart s).attempt code (.javac shape)).1 = some w ↔ ∃ x, Sighted code shape s x w :=
  Matcher.attempt_eq_some_iff.trans exists_sight_eq_ok_iff

/-- Wherever the handler and some block are, a statement is sighted: the last block counts. -/
theorem exists_sighted_iff :
    (∃ w, Sighted code shape s x w) ↔
      ∃ e stop, Reads code s (handling x e shape) stop ∧
        (code.blocksBefore (closings x shape) s).Nonempty := by
  constructor
  · rintro ⟨w, ⟨e, hhandler⟩, -, hgreatest, -⟩
    exact ⟨e, _, hhandler, w.normal.first, hgreatest.1⟩
  · rintro ⟨e, stop, hhandler, hblocks⟩
    obtain ⟨f, hf⟩ := exists_isGreatest_blocksBefore hblocks
    obtain ⟨-, -, -, ts, hts, q, hblock⟩ := hf.1
    have hq : 1 ≤ q := by
      have := hf.1.1
      have := hblock.length_le
      omega
    obtain ⟨l, hl⟩ := exists_endsAt code hq
    have hstop : stop - 1 + 1 = stop := by
      have := hhandler.length_le
      simp only [handling, List.length_append, List.length_cons] at this
      omega
    exact ⟨⟨⟨f, l⟩, ⟨s + 1, stop - 1⟩⟩, ⟨e, hstop.symm ▸ hhandler⟩, rfl, hf, ts, hts, q, hblock, hl⟩

/-- **The shape of statements.** Started at any handler, the template of a shape succeeds exactly
if the code from the handler on is the handler of a statement and, somewhere in front of it, the
statement's resource is closed. It then reports the last such block, with the jump behind it if
there is one, and the handler. -/
theorem attempt_iff_shape (code : Code) (shape : Shape) (k : Matcher) (s : Nat) :
    ((∃ w, ((k.restart s).attempt code (.javac shape)).1 = some w) ↔
      ∃ x e stop, Reads code s (handling x e shape) stop ∧
        (code.blocksBefore (closings x shape) s).Nonempty) ∧
    ∀ w, ((k.restart s).attempt code (.javac shape)).1 = some w ↔
      ∃ x, Sighted code shape s x w := by
  have hattempt (w : Sighting) : ((k.restart s).attempt code (.javac shape)).1 = some w ↔
      ∃ x, Sighted code shape s x w :=
    Matcher.attempt_eq_some_iff.trans exists_sight_eq_ok_iff
  refine ⟨?_, hattempt⟩
  simp only [hattempt]
  rw [exists_comm]
  exact exists_congr fun x => exists_sighted_iff

end TryResources.Javac
