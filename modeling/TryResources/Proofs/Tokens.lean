import Mathlib.Data.List.TakeWhile
import TryResources.Proofs.Words

/-!
# Texts, taken apart

What the readers of texts look for, told without how they go about it: a text between blanks, words
with gaps between them, digits behind an optional sign. Each text is taken apart in one way only, so
it is the way in which the reader takes it apart.

* `IsCore`, `trim_eq_iff`: the text between the blanks at both ends.
* `Spaced`, `words_eq_iff`: words with gaps between them.
* `IsNumeral`, `numeral?_eq_some_iff`: numbers that are not too large.
-/

namespace TryResources.Text

/-- Nothing but blanks. -/
def Blanks (cs : List Char) : Prop :=
  ∀ c ∈ cs, isBlank c = true

/-- A text without the blanks at its ends. -/
structure IsCore (text cs : List Char) : Prop where
  trimmed : Trimmed text
  exists_blanks : ∃ front back, Blanks front ∧ Blanks back ∧ cs = front ++ (text ++ back)

/-- Words in a text, with blanks between them and perhaps in front and behind. -/
inductive Spaced : List (List Char) → List Char → Prop
  | nil {gap : List Char} : Blanks gap → Spaced [] gap
  | last {gap w : List Char} : Blanks gap → IsWord w → Spaced [w] (gap ++ w)
  | cons {gap w cs : List Char} {c : Char} {ws : List (List Char)} : Blanks gap → IsWord w →
      isBlank c = true → Spaced ws cs → Spaced (w :: ws) (gap ++ (w ++ c :: cs))

/-- A number up to `bound` in digits, which a plus sign may precede. -/
structure IsNumeral (bound : Nat) (w : List Char) (n : Nat) : Prop where
  exists_digits : ∃ digits, digits ≠ [] ∧ (∀ c ∈ digits, c.isDigit = true) ∧
    (w = digits ∨ w = '+' :: digits) ∧ Nat.ofDigitChars 10 digits 0 = n
  le_bound : n ≤ bound

variable {c : Char} {cs text gap xs ys w : List Char} {ws vs : List (List Char)} {bound n : Nat}

theorem Blanks.append (hx : Blanks xs) (hy : Blanks ys) : Blanks (xs ++ ys) :=
  List.forall_mem_append.2 ⟨hx, hy⟩

theorem Blanks.concat (h : Blanks gap) (hc : isBlank c = true) : Blanks (gap ++ [c]) :=
  h.append (List.forall_mem_singleton.2 hc)

/-! ## Between the blanks -/

theorem trimEnd_append_of_isBlank (hgap : Blanks gap) (cs : List Char) :
    trimEnd (cs ++ gap) = trimEnd cs := by
  have hback : ∀ c ∈ gap.reverse, isBlank c = true := fun c hc => hgap c (List.mem_reverse.1 hc)
  rw [trimEnd, trimEnd, List.reverse_append, List.dropWhile_append_of_pos hback]

/-- Blanks at the end are cut off. -/
theorem trim_append_blanks (h : Trimmed text) (hgap : Blanks gap) : trim (text ++ gap) = text := by
  cases text with
  | nil =>
    have hnothing : gap.dropWhile isBlank = [] := List.dropWhile_eq_nil_iff.2 hgap
    rw [List.nil_append, trim, hnothing]
    rfl
  | cons c cs =>
    have hfront : ((c :: cs) ++ gap).dropWhile isBlank = (c :: cs) ++ gap :=
      dropWhile_eq_self (by simpa using h.head)
    calc trim ((c :: cs) ++ gap)
        _ = trimEnd ((c :: cs) ++ gap) := by rw [trim, hfront]
        _ = trimEnd (c :: cs) := trimEnd_append_of_isBlank hgap _
        _ = trim (c :: cs) := by rw [trim, dropWhile_eq_self h.head]
        _ = c :: cs := trim_eq_self h

theorem isCore_trim (cs : List Char) : IsCore (trim cs) cs := by
  refine ⟨trimmed_trim cs, cs.takeWhile isBlank, _, fun c => List.mem_takeWhile_imp, ?_,
    (List.takeWhile_append_dropWhile.symm.trans (congrArg _ (trim_append_cut cs).symm))⟩
  intro c hc
  exact List.mem_takeWhile_imp (List.mem_reverse.1 hc)

/-- There is one text between the blanks. -/
theorem trim_eq_iff : trim cs = text ↔ IsCore text cs := by
  constructor
  · rintro rfl
    exact isCore_trim cs
  · rintro ⟨htext, front, back, hfront, hback, rfl⟩
    rw [trim_append_of_isBlank hfront, trim_append_blanks htext hback]

/-! ## Words and gaps -/

/-- A gap may be as long as one likes. -/
theorem Spaced.pad (hgap : Blanks gap) (h : Spaced ws cs) : Spaced ws (gap ++ cs) := by
  cases h with
  | nil hfront => exact .nil (hgap.append hfront)
  | last hfront hw =>
    rw [← List.append_assoc]
    exact .last (hgap.append hfront) hw
  | cons hfront hw hc h =>
    rw [← List.append_assoc]
    exact .cons (hgap.append hfront) hw hc h

/-- Behind a blank, more words may follow. -/
theorem Spaced.append (h : Spaced ws xs) (hc : isBlank c = true) (h' : Spaced vs ys) :
    Spaced (ws ++ vs) (xs ++ c :: ys) := by
  induction h with
  | @nil gap hgap =>
    have hmore := h'.pad (hgap.concat hc)
    rwa [List.append_assoc] at hmore
  | last hgap hw =>
    rw [List.append_assoc]
    exact .cons hgap hw hc h'
  | cons hgap hw hb _ ih =>
    rw [List.append_assoc, List.append_assoc]
    exact .cons hgap hw hb ih

theorem Spaced.isWord (h : Spaced ws cs) : ∀ w ∈ ws, IsWord w := by
  induction h with
  | nil => simp
  | last _ hw => simpa using hw
  | cons _ hw _ _ ih => exact List.forall_mem_cons.2 ⟨hw, ih⟩

/-- A text without words that has no blank at its ends is empty. -/
theorem Trimmed.eq_nil_of_spaced (h : Trimmed cs) (hcs : Spaced [] cs) : cs = [] := by
  cases hcs with
  | nil hgap =>
    cases cs with
    | nil => rfl
    | cons c cs => exact absurd (hgap c List.mem_cons_self) (by simp [h.head c rfl])

theorem spaced_words_of_notMem (h : ∀ c ∈ cs, isBlank c = false) : Spaced (words cs) cs := by
  cases cs with
  | nil => exact .nil (by simp [Blanks])
  | cons c cs =>
    have hw : IsWord (c :: cs) := ⟨List.cons_ne_nil _ _, h⟩
    have hnogap : Blanks [] := by simp [Blanks]
    rw [words_of_isWord hw]
    exact .last hnogap hw

theorem spaced_words (cs : List Char) : Spaced (words cs) cs := by
  rcases exists_last_blank cs with hnone | ⟨xs, b, ys, hcs, hb, hys⟩
  · exact spaced_words_of_notMem hnone
  · have hshorter : xs.length < cs.length := by
      rw [hcs, List.length_append, List.length_cons]
      omega
    rw [hcs, words_append_blank hb]
    exact (spaced_words xs).append hb (spaced_words_of_notMem hys)
termination_by cs.length
decreasing_by exact hshorter

theorem words_nil : words [] = [] := rfl

theorem words_append_of_isBlank (hgap : Blanks gap) (cs : List Char) :
    words (gap ++ cs) = words cs := by
  induction gap with
  | nil => rfl
  | cons c gap ih =>
    obtain ⟨hc, hgap⟩ := List.forall_mem_cons.1 hgap
    have hempty : words ([] ++ c :: (gap ++ cs)) = words (gap ++ cs) := words_append_blank hc _ _
    exact hempty.trans (ih hgap)

/-- A text has one row of words. -/
theorem words_eq_iff : words cs = ws ↔ Spaced ws cs := by
  constructor
  · rintro rfl
    exact spaced_words cs
  · intro h
    induction h with
    | @nil gap hgap => rw [← List.append_nil gap, words_append_of_isBlank hgap, words_nil]
    | last hgap hw => rw [words_append_of_isBlank hgap, words_of_isWord hw]
    | cons hgap hw hc _ ih =>
      rw [words_append_of_isBlank hgap, words_append_blank hc, words_of_isWord hw, ih]
      rfl

theorem map_ofList_words_eq_iff {ws : List String} :
    (words cs).map String.ofList = ws ↔ Spaced (ws.map String.toList) cs := by
  rw [← words_eq_iff]
  constructor
  · rintro rfl
    simp [Function.comp_def]
  · intro h
    simp [h, Function.comp_def]

/-! ## Numbers -/

theorem isDigit_of_digit?_eq_some {k : Nat} (h : digit? c = some k) : c.isDigit = true := by
  unfold digit? at h
  split at h
  · rename_i hc
    exact isDigit_iff.2 hc
  · cases h

theorem digitsAfter_eq_some_iff {value : Nat} : digitsAfter value cs = some n ↔
    (∀ c ∈ cs, c.isDigit = true) ∧ Nat.ofDigitChars 10 cs value = n := by
  constructor
  · intro h
    have hdigits : ∀ c ∈ cs, c.isDigit = true := by
      induction cs generalizing value with
      | nil => simp
      | cons c cs ih =>
        obtain ⟨k, hk, hrest⟩ := Option.bind_eq_some_iff.1 h
        exact List.forall_mem_cons.2 ⟨isDigit_of_digit?_eq_some hk, ih hrest⟩
    exact ⟨hdigits, Option.some.inj ((digitsAfter_of_isDigit hdigits value).symm.trans h)⟩
  · rintro ⟨hdigits, rfl⟩
    exact digitsAfter_of_isDigit hdigits value

theorem digits?_eq_some_iff : digits? cs = some n ↔
    cs ≠ [] ∧ (∀ c ∈ cs, c.isDigit = true) ∧ Nat.ofDigitChars 10 cs 0 = n := by
  cases cs with
  | nil => simp [digits?]
  | cons c cs =>
    rw [digits?, digitsAfter_eq_some_iff]
    simp

/-- A plus sign in front is passed over. -/
theorem numeral?_cases (bound : Nat) (w : List Char) :
    (∃ ds, w = '+' :: ds ∧ numeral? bound w = (digits? ds).filter (· ≤ bound)) ∨
      (∀ ds, w ≠ '+' :: ds) ∧ numeral? bound w = (digits? w).filter (· ≤ bound) := by
  unfold numeral?
  split
  · exact .inl ⟨_, rfl, rfl⟩
  · rename_i hplus
    exact .inr ⟨hplus, rfl⟩

/-- A numeral is read, and nothing else. -/
theorem numeral?_eq_some_iff : numeral? bound w = some n ↔ IsNumeral bound w n := by
  obtain ⟨ds, rfl, heq⟩ | ⟨hplus, heq⟩ := numeral?_cases bound w
  · rw [heq, Option.filter_eq_some_iff, digits?_eq_some_iff, decide_eq_true_eq]
    constructor
    · rintro ⟨⟨hne, hdigits, hn⟩, hle⟩
      exact ⟨⟨ds, hne, hdigits, .inr rfl, hn⟩, hle⟩
    · rintro ⟨⟨digits, hne, hdigits, rfl | h, hn⟩, hle⟩
      · -- a plus sign is no digit
        exact absurd (hdigits '+' List.mem_cons_self) (by decide)
      · obtain rfl := (List.cons.inj h).2
        exact ⟨⟨hne, hdigits, hn⟩, hle⟩
  · rw [heq, Option.filter_eq_some_iff, digits?_eq_some_iff, decide_eq_true_eq]
    constructor
    · rintro ⟨⟨hne, hdigits, hn⟩, hle⟩
      exact ⟨⟨w, hne, hdigits, .inl rfl, hn⟩, hle⟩
    · rintro ⟨⟨digits, hne, hdigits, rfl | h, hn⟩, hle⟩
      · exact ⟨⟨hne, hdigits, hn⟩, hle⟩
      · exact absurd h (hplus digits)

end TryResources.Text
