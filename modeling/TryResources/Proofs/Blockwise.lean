import TryResources.Proofs.Placement

/-!
# Entry by entry

One matcher goes through the whole exception table, and each template that is tried leaves it in
some state. Nothing of that reaches the next template: the ranges of a method are put together from
what each entry contributes, and an entry contributes what fresh matchers find at its handler.

* `Options.contribution`: what a handler contributes, two ranges or none.
* `Options.ranges_examine`: an entry contributes the same whatever the matcher did before.
* `Options.ignoredRanges_eq_flatMap`: all contributions, in the order of the table.
* `Options.contribution_families`: a handler is looked at for one family of compilers at most.
* `Options.ignoredRanges_blockwise`: what follows for tables that are cut, permuted or repeat
  themselves.
-/

namespace TryResources

open Matching

namespace Options

variable {o : Options} {code : Code} {s : Nat} {t : Template} {w : Sighting}

/-! ## Contributions -/

/-- The first template that fits a handler, as fresh matchers find it. -/
def recognise (o : Options) (code : Code) (s : Nat) (catchType : Option String) :
    Option (Template × Sighting) :=
  (o.templates catchType).findSome? fun t =>
    ((({} : Matcher).restart s).attempt code t).1.map (t, ·)

/-- The ranges of the statement that is recognised at a handler, the normal path first. -/
def statement? (o : Options) (code : Code) (handler : Option Nat) (catchType : Option String) :
    Option (Range × Range) := do
  let s ← handler
  let (_, w) ← o.recognise code s catchType
  w.ranges.toOption

/-- The ranges of a statement in the order in which they are reported. -/
def both : Range × Range → List Range
  | (normal, handler) => [normal, handler]

/-- What a handler contributes to the ranges of a method. -/
def contribution (o : Options) (code : Code) (handler : Option Nat) (catchType : Option String) :
    List Range :=
  (o.statement? code handler catchType).toList.flatMap both

/-- The statements that are recognised at the entries of an exception table. -/
def statements (o : Options) (m : Method) (bs : List (Block LabelId)) : List (Range × Range) :=
  bs.filterMap fun b => o.statement? m.code (m.handlerPosition? b) b.catchType

/-- The positions that the ranges of a method contain. -/
def ignoredPositions (o : Options) (m : Method) : Set Nat :=
  {p | ∃ rs, o.ignoredRanges m = .ok rs ∧ ∃ r ∈ rs, r.contains p = true}

/-- A template that is recognised was to be tried, and succeeds whatever the matcher did before;
what it recognises are two ranges. -/
theorem of_recognise_eq_some {catchType : Option String}
    (h : o.recognise code s catchType = some (t, w)) :
    t ∈ o.templates catchType ∧ (∀ k : Matcher, ((k.restart s).attempt code t).1 = some w) ∧
      ∃ pair, w.ranges = .ok pair := by
  obtain ⟨ht, hattempt⟩ := attempt_of_findSome? h
  obtain ⟨normal, handler, hranges, -⟩ := (wellPlaced_of_attempt (hattempt {})).exists_ranges
  exact ⟨ht, hattempt, _, hranges⟩

theorem contribution_of_recognise {catchType : Option String} {pair : Range × Range}
    (h : o.recognise code s catchType = some (t, w)) (hranges : w.ranges = .ok pair) :
    o.contribution code (some s) catchType = both pair := by
  simp [contribution, statement?, h, hranges, Except.toOption]

theorem contribution_of_recognise_eq_none {catchType : Option String}
    (h : o.recognise code s catchType = none) : o.contribution code (some s) catchType = [] := by
  simp [contribution, statement?, h]

/-- What an entry of the exception table contributes does not depend on what the matcher did
before. -/
theorem ranges_examine (o : Options) (m : Method) (b : Block LabelId) (k : Matcher) :
    (o.examine m b k).1.ranges =
      .ok (o.contribution m.code (m.handlerPosition? b) b.catchType) := by
  cases hhandler : m.handlerPosition? b with
  | none =>
    rw [examine, hhandler]
    rfl
  | some s =>
    obtain ⟨⟨rejected, accepted⟩, htrial, haccepted⟩ := exists_trial hhandler o k
    have haccepted : accepted = o.recognise m.code s b.catchType := haccepted
    rw [htrial]
    cases accepted with
    | none =>
      rw [contribution_of_recognise_eq_none haccepted.symm]
      rfl
    | some found =>
      obtain ⟨t, w⟩ := found
      obtain ⟨-, -, pair, hranges⟩ := of_recognise_eq_some haccepted.symm
      rw [contribution_of_recognise haccepted.symm hranges]
      exact bind_eq_ok_iff.2 ⟨_, hranges, rfl⟩

/-- A handler contributes nothing, or both ranges of what some template recognises there. -/
theorem contribution_eq_nil_or (o : Options) (code : Code) (handler : Option Nat)
    (catchType : Option String) :
    o.contribution code handler catchType = [] ∨
      ∃ s t w normal exceptional, handler = some s ∧ t ∈ o.templates catchType ∧
        (∀ k : Matcher, ((k.restart s).attempt code t).1 = some w) ∧
        w.ranges = .ok (normal, exceptional) ∧
        o.contribution code handler catchType = [normal, exceptional] := by
  cases handler with
  | none => exact .inl rfl
  | some s =>
    cases h : o.recognise code s catchType with
    | none => exact .inl (contribution_of_recognise_eq_none h)
    | some found =>
      obtain ⟨t, w⟩ := found
      obtain ⟨ht, hattempt, ⟨normal, exceptional⟩, hranges⟩ := of_recognise_eq_some h
      exact .inr ⟨s, t, w, normal, exceptional, rfl, ht, hattempt, hranges,
        contribution_of_recognise h hranges⟩

/-! ## Tables -/

/-- The ranges of a method are the contributions of its entries, in the order of the table. -/
theorem ignoredRanges_eq_flatMap (o : Options) (m : Method) :
    o.ignoredRanges m =
      .ok (m.blocks.flatMap fun b =>
        o.contribution m.code (m.handlerPosition? b) b.catchType) := by
  have hmapM (bs : List (Block LabelId)) :
      (bs.map fun b => (o.examine m b {}).1).mapM Finding.ranges =
        .ok (bs.map fun b => o.contribution m.code (m.handlerPosition? b) b.catchType) := by
    induction bs with
    | nil => rfl
    | cons b bs ih =>
      rw [List.map_cons, List.mapM_cons, ranges_examine, ih]
      rfl
  rw [ignoredRanges, findings_eq_map, hmapM, List.flatMap_def]
  rfl

theorem ignoredRanges_eq_statements (o : Options) (m : Method) :
    o.ignoredRanges m = .ok ((o.statements m m.blocks).flatMap both) := by
  rw [ignoredRanges_eq_flatMap, statements, List.filterMap_eq_flatMap_toList, List.flatMap_assoc]
  rfl

theorem mem_ignoredPositions_iff (o : Options) (m : Method) (p : Nat) :
    p ∈ o.ignoredPositions m ↔ ∃ b ∈ m.blocks,
      ∃ r ∈ o.contribution m.code (m.handlerPosition? b) b.catchType, r.contains p = true := by
  have hmem : p ∈ o.ignoredPositions m ↔
      ∃ rs, o.ignoredRanges m = .ok rs ∧ ∃ r ∈ rs, r.contains p = true := Iff.rfl
  simp only [hmem, ignoredRanges_eq_flatMap, Except.ok.injEq, exists_eq_left', List.mem_flatMap]
  constructor
  · rintro ⟨r, ⟨b, hb, hr⟩, hp⟩
    exact ⟨b, hb, r, hr, hp⟩
  · rintro ⟨b, hb, r, hr, hp⟩
    exact ⟨r, ⟨b, hb, hr⟩, hp⟩

/-- The templates of javac are tried where a type is caught, those of ecj where none is. So what
both options together find at a handler is what one of them finds, and the other finds nothing. -/
theorem contribution_families (code : Code) (handler : Option Nat) (catchType : Option String) :
    let javac : Options := ⟨true, false⟩
    let ecj : Options := ⟨false, true⟩
    let all : Options := ⟨true, true⟩
    (javac.contribution code handler catchType = [] ∨
      ecj.contribution code handler catchType = []) ∧
    all.contribution code handler catchType =
      javac.contribution code handler catchType ++ ecj.contribution code handler catchType := by
  intro javac ecj all
  have hnothing {o : Options} (h : o.templates catchType = []) :
      o.contribution code handler catchType = [] := by
    cases handler <;> simp [contribution, statement?, recognise, h]
  have hsame {o o' : Options} (h : o.templates catchType = o'.templates catchType) :
      o.contribution code handler catchType = o'.contribution code handler catchType := by
    simp only [contribution, statement?, recognise, h]
  cases catchType with
  | none =>
    have hjavac : javac.contribution code handler none = [] := hnothing rfl
    have hall : all.contribution code handler none = ecj.contribution code handler none := hsame rfl
    rw [hjavac, hall]
    exact ⟨.inl rfl, rfl⟩
  | some type =>
    have hecj : ecj.contribution code handler (some type) = [] :=
      hnothing (by simp [templates, ecj])
    have hall : all.contribution code handler (some type) =
        javac.contribution code handler (some type) := hsame rfl
    rw [hecj, hall, List.append_nil]
    exact ⟨.inr rfl, rfl⟩

/-- **A method is filtered entry by entry.** With any exception table, the ranges of a method are
what its entries contribute, in order, and

1. an entry contributes nothing, or both ranges of what some template recognises at its handler;
2. whatever the matcher did before, the entry comes to what it contributes, and where its code
   starts and stops does not matter;
3. a table that is cut in two gives the ranges of both parts, one after the other;
4. the entries of a table may be permuted, which permutes the pairs of ranges;
5. only which entries there are decides about the positions that are ignored;
6. with both families of compilers, each entry gives what it gives with javac only and then what it
   gives with ecj only, and one of these is nothing. -/
theorem ignoredRanges_blockwise (o : Options) (m : Method) :
    let withTable (bs : List (Block LabelId)) : Method := { m with blocks := bs }
    let entry (o : Options) (b : Block LabelId) : List Range :=
      o.contribution m.code (m.handlerPosition? b) b.catchType
    (∀ bs, o.ignoredRanges (withTable bs) = .ok (bs.flatMap (entry o))) ∧
    (∀ b, entry o b = [] ∨ ∃ s t w normal handler, m.handlerPosition? b = some s ∧
      t ∈ o.templates b.catchType ∧
      (∀ k : Matcher, ((k.restart s).attempt m.code t).1 = some w) ∧
      w.ranges = .ok (normal, handler) ∧ entry o b = [normal, handler]) ∧
    (∀ b start stop k,
      (o.examine m { b with start := start, stop := stop } k).1.ranges = .ok (entry o b)) ∧
    (∀ bs cs, ∃ xs ys, o.ignoredRanges (withTable bs) = .ok xs ∧
      o.ignoredRanges (withTable cs) = .ok ys ∧
      o.ignoredRanges (withTable (bs ++ cs)) = .ok (xs ++ ys)) ∧
    (∀ bs, o.ignoredRanges (withTable bs) = .ok ((o.statements m bs).flatMap both) ∧
      ∀ cs, bs.Perm cs → (o.statements m bs).Perm (o.statements m cs)) ∧
    (∀ bs cs, (∀ b, b ∈ bs ↔ b ∈ cs) →
      o.ignoredPositions (withTable bs) = o.ignoredPositions (withTable cs)) ∧
    ∀ bs, (⟨true, true⟩ : Options).ignoredRanges (withTable bs) =
        .ok (bs.flatMap fun b => entry ⟨true, false⟩ b ++ entry ⟨false, true⟩ b) ∧
      ∀ b, entry ⟨true, false⟩ b = [] ∨ entry ⟨false, true⟩ b = [] := by
  intro withTable entry
  have hall (o : Options) (bs : List (Block LabelId)) :
      o.ignoredRanges (withTable bs) = .ok (bs.flatMap (entry o)) :=
    o.ignoredRanges_eq_flatMap (withTable bs)
  refine ⟨hall o, fun b => o.contribution_eq_nil_or _ _ _, fun b start stop k => ?_,
    fun bs cs => ?_, fun bs => ⟨o.ignoredRanges_eq_statements _, fun cs h => h.filterMap _⟩,
    fun bs cs h => ?_, fun bs => ⟨?_, fun b => ?_⟩⟩
  · exact o.ranges_examine m { b with start := start, stop := stop } k
  · exact ⟨_, _, hall o bs, hall o cs, by rw [hall, List.flatMap_append]⟩
  · ext p
    rw [mem_ignoredPositions_iff, mem_ignoredPositions_iff]
    exact exists_congr fun b => and_congr_left' (h b)
  · rw [hall]
    congr 2
    funext b
    exact (contribution_families _ _ _).2
  · exact (contribution_families _ _ _).1

/-- The table of `closingTwice`, with a second entry for the handler inside its first handler. -/
theorem ignoredRanges_blockwise_closingTwice :
    let b : Block LabelId := ⟨⟨0⟩, ⟨1⟩, ⟨1⟩, some throwable⟩
    let c : Block LabelId := ⟨⟨0⟩, ⟨2⟩, ⟨2⟩, none⟩
    let o : Options := {}
    ([b, c, b].Perm [c, b, b] ∧
      (o.statements closingTwice [b, c, b]).Perm (o.statements closingTwice [c, b, b])) ∧
    (∀ x, x ∈ [b, c] ↔ x ∈ [c, b, b]) ∧
      o.ignoredPositions { closingTwice with blocks := [b, c] } =
        o.ignoredPositions { closingTwice with blocks := [c, b, b] } := by
  intro b c o
  obtain ⟨-, -, -, -, hperm, hpositions, -⟩ := ignoredRanges_blockwise o closingTwice
  have hswap : [b, c, b].Perm [c, b, b] := .swap c b [b]
  have hmem : ∀ x, x ∈ [b, c] ↔ x ∈ [c, b, b] := by
    intro x
    simp only [List.mem_cons, List.not_mem_nil, or_false]
    tauto
  exact ⟨⟨hswap, (hperm _).2 _ hswap⟩, hmem, hpositions _ _ hmem⟩

end Options

end TryResources
