import TryResources.Proofs.Reading
import TryResources.Matching.Matcher

/-!
# What a search finds

A backward search tries a template behind every node in front of a handler, markers included. Read
from there, the template skips markers, so what is found is the last instruction in front of the
handler at which an instance of the template starts (`search_eq_ok_iff`), unless the handler itself
starts with such an instance.
-/

namespace TryResources.Matching

/-- The outcome of a search: the reader accepts what lies behind `p`, and nothing later. -/
theorem findBackward_eq_ok_iff {reader : Reader} {start p : Nat} {r r' : Reading} :
    findBackward reader start r = .ok (p, r') ↔
      p < start ∧ reader ⟨some p, r.bindings⟩ = .ok r' ∧
        ∀ q, p < q → q < start → ∀ r'', reader ⟨some q, r.bindings⟩ ≠ .ok r'' := by
  constructor
  · intro h
    obtain ⟨hp, hr, hlater⟩ := findBackward_eq_ok h
    refine ⟨hp, hr, ?_⟩
    intro q hpq hq r'' hr''
    obtain ⟨e, he⟩ := hlater q hpq hq
    rw [he] at hr''
    cases hr''
  · rintro ⟨hp, hr, hlater⟩
    cases h : findBackward reader start r with
    | error e =>
      obtain ⟨e, he⟩ := (findBackward_eq_error h).2 p hp
      rw [he] at hr
      cases hr
    | ok found =>
      obtain ⟨p', r₁⟩ := found
      obtain ⟨hp', hr₁, hlater'⟩ := findBackward_eq_ok h
      rcases Nat.lt_trichotomy p p' with hlt | rfl | hgt
      · exact absurd hr₁ (hlater p' hlt hp' r₁)
      · rw [hr] at hr₁
        rw [Except.ok.inj hr₁]
      · obtain ⟨e, he⟩ := hlater' p hgt hp
        rw [he] at hr
        cases hr

/-! ## Instances of a template -/

/-- The patterns that a template stands for while its names may still take any value that agrees
with the bindings. -/
def Bindings.instances (b : Bindings) (steps : List Step) : Set (List Token) :=
  {ts | ∃ v, b.Agrees v ∧ steps.map (Step.token v) = ts}

variable {code : Code} {b : Bindings} {steps : List Step} {p q f : Nat} {r r' : Reading}

/-- A template is read exactly where one of its instances stands. -/
theorem readAll_eq_ok_iff {known : List Name} (hg : Step.Grounded known steps)
    (hknown : ∀ n ∈ known, b.Knows n) :
    (∃ b', Step.readAll code steps ⟨some p, b⟩ = .ok ⟨some q, b'⟩) ↔
      ∃ ts ∈ b.instances steps, Reads code (p + 1) ts (q + 1) := by
  constructor
  · rintro ⟨b', h⟩
    obtain ⟨q', b₁, hr, hlearns, hreads⟩ := reads_of_readAll h
    obtain ⟨rfl, rfl⟩ : q = q' ∧ b' = b₁ := by simpa using hr
    have hv := b'.agrees_complete
    exact ⟨_, ⟨b'.complete, hlearns.agrees hv, rfl⟩, hreads _ hv⟩
  · rintro ⟨_, ⟨v, hv, rfl⟩, hreads⟩
    obtain ⟨b', hb', -⟩ := readAll_of_reads hg hknown hv hreads
    exact ⟨b', hb'⟩

section

variable {start : Nat} {known : List Name} (hs : ∃ s rest, steps = s :: rest ∧ ∀ n, s ≠ .label n)
  (hg : Step.Grounded known steps) (hknown : ∀ n ∈ known, b.Knows n)
  (hstart : ∀ ts ∈ b.instances steps, ∀ q, ¬ Reads code start ts q)

include hs hstart in
/-- A template that is read from some place in front of the handler starts in front of it: the way
to its first instruction does not lead into the handler. -/
theorem exists_mem_blocks_of_readAll (hp : p < start)
    (h : Step.readAll code steps ⟨some p, b⟩ = .ok r) :
    ∃ f ∈ code.blocksBefore (b.instances steps) start, p < f := by
  obtain ⟨s, rest, rfl, hs⟩ := hs
  obtain ⟨q, b', rfl, hlearns, hreads⟩ := reads_of_readAll h
  have hv := b'.agrees_complete
  have hmem : (s :: rest).map (Step.token b'.complete) ∈ b.instances (s :: rest) :=
    ⟨b'.complete, hlearns.agrees hv, rfl⟩
  have hinsn : (s.token b'.complete).IsInsn := Step.isInsn_token hs
  obtain ⟨f, hf, hrest⟩ := reads_cons_iff.1 (hreads _ hv)
  obtain ⟨i, hi, -⟩ := (Token.standsAt_iff hinsn).1 hf
  have hle := hi.le
  have hfrom (m : Nat) (hpm : p + 1 ≤ m) (hmf : m ≤ f) :
      Reads code m ((s :: rest).map (Step.token b'.complete)) (q + 1) :=
    reads_cons_iff.2 ⟨f, hf.of_le hinsn hpm hmf, hrest⟩
  have hlt : f < start := by
    -- otherwise only markers lie between, and the handler starts with the template
    by_contra hge
    exact hstart _ hmem _ (hfrom start (by omega) (by omega))
  exact ⟨f, ⟨by omega, hlt, ⟨i, hi.insn?⟩, _, hmem, _, hfrom f hle (le_refl f)⟩, hle⟩

include hg hknown in
theorem exists_readAll_of_mem_blocks (hf : f ∈ code.blocksBefore (b.instances steps) start) :
    ∃ r, Step.readAll code steps ⟨some (f - 1), b⟩ = .ok r := by
  obtain ⟨hpos, -, -, ts, hts, q, hreads⟩ := hf
  have hq : f + ts.length ≤ q := hreads.length_le
  have hf₁ : f - 1 + 1 = f := by omega
  have hq₁ : q - 1 + 1 = q := by omega
  rw [← hf₁, ← hq₁] at hreads
  obtain ⟨b', hb'⟩ := (readAll_eq_ok_iff hg hknown).2 ⟨ts, hts, hreads⟩
  exact ⟨_, hb'⟩

include hs hg hknown hstart in
/-- The position found is the one in front of the last block before the handler. -/
theorem search_eq_ok_iff (hb : r.bindings = b) :
    findBackward (Step.readAll code steps) start r = .ok (p, r') ↔
      IsGreatest (code.blocksBefore (b.instances steps) start) (p + 1) ∧
        Step.readAll code steps ⟨some p, b⟩ = .ok r' := by
  subst hb
  rw [findBackward_eq_ok_iff]
  constructor
  · rintro ⟨hp, hr, hlater⟩
    -- a block further on would have been read first
    have hbound : ∀ f ∈ code.blocksBefore (r.bindings.instances steps) start, f ≤ p + 1 := by
      intro f hf
      by_contra hlt
      obtain ⟨r₁, hr₁⟩ := exists_readAll_of_mem_blocks hg hknown hf
      exact hlater (f - 1) (by omega) (by have := hf.2.1; omega) r₁ hr₁
    -- and the one that is read from `p` starts right behind it, for there is none further on
    obtain ⟨f, hf, hpf⟩ := exists_mem_blocks_of_readAll hs hstart hp hr
    obtain rfl : f = p + 1 := by
      have := hbound f hf
      omega
    exact ⟨⟨hf, hbound⟩, hr⟩
  · rintro ⟨⟨hmem, hbound⟩, hr⟩
    refine ⟨by have := hmem.2.1; omega, hr, ?_⟩
    intro q hpq hq r₁ hr₁
    obtain ⟨f, hf, hqf⟩ := exists_mem_blocks_of_readAll hs hstart hq hr₁
    have := hbound hf
    omega

end

end TryResources.Matching
