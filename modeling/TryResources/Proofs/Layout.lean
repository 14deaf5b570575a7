import TryResources.Proofs.Search
import TryResources.Template

/-!
# How templates are laid out

All templates go about in one way: they read a handler, search for a block in front of it, and
report where both are. A `Layout` holds what the two parts have to satisfy for that;
`Layout.of_search_eq_ok` and `Layout.exists_search_eq_ok` then say what code a template finds, in
both directions.
-/

namespace TryResources.Matching

variable {code : Code} {b : Bindings} {steps : List Step} {p q : Nat} {r r' : Reading}

/-! ## Templates at a handler -/

section

variable {k : Matcher} {start : Nat} {v : Valuation}

/-- What a template reads first starts at the handler, with no name met. There is nothing to read
at the very first position. -/
theorem reads_of_readAll_restart (hne : steps ≠ [])
    (h : Step.readAll code steps (k.restart start).reading = .ok r) :
    1 ≤ start ∧ ∃ q b, r = ⟨some q, b⟩ ∧ ({} : Bindings).Learns (steps.flatMap Step.names) b ∧
      ∀ v, b.Agrees v → Reads code start (steps.map (Step.token v)) (q + 1) := by
  cases start with
  | zero =>
    obtain ⟨p, -, hp, -⟩ := Step.advances_of_readAll hne h
    cases hp
  | succ p =>
    obtain ⟨q, b, rfl, hlearns, hreads⟩ := reads_of_readAll h
    exact ⟨by omega, q, b, rfl, hlearns, hreads⟩

theorem readAll_restart_of_reads (k : Matcher) (hstart : 1 ≤ start) (hg : Step.Grounded [] steps)
    (h : Reads code start (steps.map (Step.token v)) (q + 1)) :
    ∃ b, Step.readAll code steps (k.restart start).reading = .ok ⟨some q, b⟩ ∧
      ({} : Bindings).Learns (steps.flatMap Step.names) b ∧ b.Agrees v := by
  obtain ⟨p, rfl⟩ : ∃ p, start = p + 1 := ⟨start - 1, by omega⟩
  obtain ⟨b, hb, hv⟩ := readAll_of_reads hg (by simp) (Bindings.agrees_empty v) h
  obtain ⟨q', b', hr, hlearns, -⟩ := reads_of_readAll hb
  obtain ⟨rfl, rfl⟩ : q = q' ∧ b = b' := by simpa using hr
  exact ⟨b, hb, hlearns, hv⟩

end

/-- The two parts of a template: its handler, read first, and the block searched for in front of
it. Once the handler has been read under a valuation, the `patterns` are what the block may look
like, and none of them starts where the handler does. -/
structure Layout (handler block : List Step) (patterns : Valuation → Set (List Token)) :
    Prop where
  handler_ne_nil : handler ≠ []
  handler_grounded : Step.Grounded [] handler
  block_head : ∃ s rest, block = s :: rest ∧ ∀ n, s ≠ .label n
  block_grounded : Step.Grounded [] block
  instances : ∀ {b : Bindings} {v : Valuation},
    ({} : Bindings).Learns (handler.flatMap Step.names) b → b.Agrees v →
      b.instances block = patterns v
  disjoint : ∀ {code : Code} {v : Valuation} {s p q : Nat} {ts : List Token},
    Reads code s (handler.map (Step.token v)) p → ts ∈ patterns v → ¬ Reads code s ts q

namespace Layout

variable {handler block : List Step} {patterns : Valuation → Set (List Token)} {k : Matcher}
  {s e : Nat} {v : Valuation}

/-- After the handler, the search finds the last block in front of it, as the handler wants it. -/
theorem search_eq_ok_iff (layout : Layout handler block patterns)
    (hlearns : ({} : Bindings).Learns (handler.flatMap Step.names) b) (hv : b.Agrees v)
    (hhandler : Reads code s (handler.map (Step.token v)) e) :
    findBackward (Step.readAll code block) s ⟨some q, b⟩ = .ok (p, r) ↔
      IsGreatest (code.blocksBefore (patterns v) s) (p + 1) ∧
        Step.readAll code block ⟨some p, b⟩ = .ok r := by
  have hinstances := layout.instances hlearns hv
  rw [Matching.search_eq_ok_iff layout.block_head layout.block_grounded (by simp)
    (fun ts hts q => layout.disjoint hhandler (hinstances ▸ hts)) rfl, hinstances]

/-- What a handler and a successful search say about the code. -/
theorem of_search_eq_ok (layout : Layout handler block patterns)
    (hread : Step.readAll code handler (k.restart s).reading = .ok r)
    (hsearch : findBackward (Step.readAll code block) s r = .ok (p, r')) :
    ∃ e b q b', r = ⟨some e, b⟩ ∧ r' = ⟨some q, b'⟩ ∧
      ({} : Bindings).Learns (handler.flatMap Step.names) b ∧
      b.Learns (block.flatMap Step.names) b' ∧
      ∀ v, b'.Agrees v → Reads code s (handler.map (Step.token v)) (e + 1) ∧
        IsGreatest (code.blocksBefore (patterns v) s) (p + 1) ∧
        ∃ ts ∈ patterns v, Reads code (p + 1) ts (q + 1) := by
  obtain ⟨-, e, b, rfl, hlearns, hhandler⟩ := reads_of_readAll_restart layout.handler_ne_nil hread
  have hblock : Step.readAll code block ⟨some p, b⟩ = .ok r' :=
    ((layout.search_eq_ok_iff hlearns b.agrees_complete
      (hhandler _ b.agrees_complete)).1 hsearch).2
  obtain ⟨q, b', rfl, hlearns', hreads⟩ := reads_of_readAll hblock
  refine ⟨e, b, q, b', rfl, rfl, hlearns, hlearns', fun v hv => ?_⟩
  have hb := hlearns'.agrees hv
  refine ⟨hhandler v hb, ((layout.search_eq_ok_iff hlearns hb (hhandler v hb)).1 hsearch).1, ?_⟩
  rw [← layout.instances hlearns hb]
  exact ⟨_, ⟨v, hb, rfl⟩, hreads v hv⟩

/-- Where the code has a handler and a block in front of it, both are found: the block behind some
position `p`, with its last node at `l`. -/
theorem exists_search_eq_ok (layout : Layout handler block patterns) (k : Matcher) {f : Nat}
    {ts : List Token} (hhandler : Reads code s (handler.map (Step.token v)) (e + 1))
    (hgreatest : IsGreatest (code.blocksBefore (patterns v) s) f) (hts : ts ∈ patterns v)
    (hblock : Reads code f ts q) :
    ∃ p l b b', code.next? p = some f ∧ q = l + 1 ∧
      Step.readAll code handler (k.restart s).reading = .ok ⟨some e, b⟩ ∧
      findBackward (Step.readAll code block) s ⟨some e, b⟩ = .ok (p, ⟨some l, b'⟩) ∧
      ({} : Bindings).Learns (handler.flatMap Step.names) b ∧ b.Agrees v ∧
      b.Learns (block.flatMap Step.names) b' := by
  have hf := hgreatest.1.1
  have hs := hgreatest.1.2.1
  obtain ⟨p, rfl⟩ : ∃ p, f = p + 1 := ⟨f - 1, by omega⟩
  obtain ⟨l, rfl⟩ : ∃ l, q = l + 1 := ⟨q - 1, by
    have := hblock.length_le
    omega⟩
  obtain ⟨b, hb, hlearns, hv⟩ :=
    readAll_restart_of_reads k (by omega) layout.handler_grounded hhandler
  rw [← layout.instances hlearns hv] at hts
  obtain ⟨b', hb'⟩ := (readAll_eq_ok_iff layout.block_grounded (by simp)).2 ⟨ts, hts, hblock⟩
  obtain ⟨l', b₁, hr, hlearns', -⟩ := reads_of_readAll hb'
  obtain ⟨rfl, rfl⟩ : l = l' ∧ b' = b₁ := by simpa using hr
  exact ⟨p, l, b, b', next?_of_mem_blocksBefore hgreatest.1, rfl, hb,
    (layout.search_eq_ok_iff hlearns hv hhandler).2 ⟨hgreatest, hb'⟩, hlearns, hv, hlearns'⟩

end Layout

/-! ## Jumps behind a block -/

theorem advance_cursor_eq_some_iff :
    (Reading.advance code ⟨some p, b⟩).cursor = some q ↔ ∃ i, code.FirstInsn (p + 1) q i :=
  Code.nextInsn?_eq_some_iff

theorem onUnconditionalJump_advance_iff :
    (Reading.advance code ⟨some p, b⟩).onUnconditionalJump code = true ↔
      ∃ q i, code.FirstInsn (p + 1) q i ∧ i.opcode.isUnconditionalJump = true := by
  simp only [Reading.advance, Reading.onUnconditionalJump, Option.bind_some]
  constructor
  · intro hjump
    cases hq : code.nextInsn? p with
    | none => simp [hq] at hjump
    | some q =>
      obtain ⟨i, hi⟩ := Code.nextInsn?_eq_some_iff.1 hq
      rw [hq, Option.bind_some, hi.insn?] at hjump
      exact ⟨q, i, hi, hjump⟩
  · rintro ⟨q, i, hi, hjump⟩
    rw [Code.nextInsn?_eq_some_iff.2 ⟨i, hi⟩, Option.bind_some, hi.insn?]
    exact hjump

/-! ## Verdicts -/

theorem Verdict.between_eq_ok_iff {w : Sighting} {first last first' last' : Option Nat} :
    Verdict.between first last first' last' r = .ok (w, r') ↔
      first = some w.normal.first ∧ last = some w.normal.last ∧
        first' = some w.handler.first ∧ last' = some w.handler.last ∧ r = r' := by
  obtain ⟨⟨a, b⟩, ⟨c, d⟩⟩ := w
  unfold Verdict.between Sighting.between?
  cases first <;> cases last <;> cases first' <;> cases last' <;> simp [and_assoc]

theorem Matcher.attempt_eq_some_iff {m : Matcher} {t : Template} {w : Sighting} :
    (m.attempt code t).1 = some w ↔ ∃ r, t.sight code m = .ok (w, r) := by
  unfold Matcher.attempt
  cases t.sight code m with
  | error e => simp
  | ok result => simp [Prod.ext_iff, eq_comm]

end TryResources.Matching
