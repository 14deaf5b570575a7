import Mathlib.Data.List.Basic
import TryResources.Text.Blank
import TryResources.Text.Numeral

/-!
# Rows of words

Text that is put together from words can be taken apart again. A row of words with single spaces
between them is cut nowhere by `trim`, and `words` gives the words back; a number that is written
in decimal is read as that number.

* `trim_eq_self`, `trimmed_trim`: what `trim` leaves alone, and that it leaves nothing else.
* `words_append_blank`: words may be looked for in front of a blank and behind it.
* `lastChar?_words`: a trimmed text ends like its last word.
* `words_unwords`: a row of words is taken apart into its words.
* `numeral?_toString`: decimals are read back.
-/

namespace TryResources.Text

/-! ## Trimming -/

/-- A text with no blank at either end. -/
structure Trimmed (cs : List Char) : Prop where
  head : ∀ c ∈ cs.head?, isBlank c = false
  last : ∀ c ∈ cs.getLast?, isBlank c = false

variable {c : Char} {cs pad w : List Char} {ws : List (List Char)}

theorem dropWhile_eq_self {p : Char → Bool} (h : ∀ c ∈ cs.head?, p c = false) :
    cs.dropWhile p = cs := by
  cases cs with
  | nil => rfl
  | cons c cs => exact List.dropWhile_cons_of_neg (by simp [h c rfl])

/-- There is nothing to cut off. -/
theorem trim_eq_self (h : Trimmed cs) : trim cs = cs := by
  have hlast : ∀ c ∈ cs.reverse.head?, isBlank c = false := by
    rw [List.head?_reverse]
    exact h.last
  rw [trim, trimEnd, dropWhile_eq_self h.head, dropWhile_eq_self hlast, List.reverse_reverse]

/-- Blanks in front are cut off. -/
theorem trim_append_of_isBlank (hpad : ∀ c ∈ pad, isBlank c = true) (cs : List Char) :
    trim (pad ++ cs) = trim cs := by
  rw [trim, trim, List.dropWhile_append_of_pos hpad]

theorem head?_dropWhile (p : Char → Bool) (cs : List Char) :
    ∀ c ∈ (cs.dropWhile p).head?, p c = false := by
  intro c hc
  have h := List.head?_dropWhile_not p cs
  rw [hc] at h
  exact h

/-- What is cut off at the end. -/
theorem trim_append_cut (cs : List Char) :
    trim cs ++ ((cs.dropWhile isBlank).reverse.takeWhile isBlank).reverse = cs.dropWhile isBlank := by
  rw [trim, trimEnd, ← List.reverse_append, List.takeWhile_append_dropWhile, List.reverse_reverse]

theorem trimmed_trim (cs : List Char) : Trimmed (trim cs) := by
  constructor
  · intro c hc
    -- what is cut off at the end does not change how the text starts
    apply head?_dropWhile isBlank cs
    rw [← trim_append_cut, List.head?_append, hc]
    rfl
  · intro c hc
    rw [trim, trimEnd, List.getLast?_reverse] at hc
    exact head?_dropWhile isBlank _ c hc

/-! ## Words -/

/-- A word has a character, and none of its characters is a blank. -/
def IsWord (w : List Char) : Prop :=
  w ≠ [] ∧ ∀ c ∈ w, isBlank c = false

theorem IsWord.trimmed (h : IsWord w) : Trimmed w :=
  ⟨fun c hc => h.2 c (List.mem_of_head? hc), fun c hc => h.2 c (List.mem_of_getLast? hc)⟩

theorem consWord_append (w : List Char) (ws vs : List (List Char)) :
    consWord w ws ++ vs = consWord w (ws ++ vs) := by
  cases w <;> rfl

/-- Words are looked for in front of a blank and behind it. -/
theorem words_append_blank (hc : isBlank c = true) (xs ys : List Char) :
    words (xs ++ c :: ys) = words xs ++ words ys := by
  have hsplit : splitWord (xs ++ c :: ys) = ((splitWord xs).1, (splitWord xs).2 ++ words ys) := by
    induction xs with
    | nil => simp [splitWord, hc, words]
    | cons x xs ih =>
      rw [List.cons_append, splitWord, splitWord, ih]
      split
      · rw [consWord_append]
      · rfl
  calc words (xs ++ c :: ys)
      _ = consWord (splitWord xs).1 ((splitWord xs).2 ++ words ys) := by rw [words, hsplit]
      _ = words xs ++ words ys := (consWord_append _ _ _).symm

theorem words_of_isWord (h : IsWord w) : words w = [w] := by
  obtain ⟨hne, hnot⟩ := h
  have hsplit : splitWord w = (w, []) := by
    clear hne
    induction w with
    | nil => rfl
    | cons c w ih =>
      rw [splitWord, ih fun c hc => hnot c (List.mem_cons_of_mem _ hc),
        if_neg (by simp [hnot c List.mem_cons_self])]
  rw [words, hsplit]
  cases w with
  | nil => exact absurd rfl hne
  | cons c w => rfl

/-- The last character of the last word. -/
def lastChar? (ws : List (List Char)) : Option Char :=
  ws.getLast?.bind List.getLast?

/-- A text has no blank, or there is a last one. -/
theorem exists_last_blank (cs : List Char) :
    (∀ c ∈ cs, isBlank c = false) ∨
      ∃ xs b ys, cs = xs ++ b :: ys ∧ isBlank b = true ∧ ∀ c ∈ ys, isBlank c = false := by
  induction cs with
  | nil => exact .inl (by simp)
  | cons c cs ih =>
    rcases ih with hnone | ⟨xs, b, ys, rfl, hb, hys⟩
    · cases hc : isBlank c with
      | false => exact .inl (by simpa [hc] using hnone)
      | true => exact .inr ⟨[], c, cs, rfl, hc, hnone⟩
    · exact .inr ⟨c :: xs, b, ys, rfl, hb, hys⟩

/-- A text that does not end in a blank ends like its last word. -/
theorem lastChar?_words (h : Trimmed cs) : lastChar? (words cs) = cs.getLast? := by
  cases hlast : cs.getLast? with
  | none =>
    obtain rfl := List.getLast?_eq_none_iff.1 hlast
    rfl
  | some c =>
    have hc := h.last c hlast
    obtain ⟨init, rfl⟩ := List.getLast?_eq_some_iff.1 hlast
    rcases exists_last_blank init with hnone | ⟨xs, b, ys, rfl, hb, hys⟩
    · have hword : IsWord (init ++ [c]) := by
        refine ⟨by simp, ?_⟩
        simpa [or_imp, forall_and, hc] using hnone
      simp [lastChar?, words_of_isWord hword]
    · have hword : IsWord (ys ++ [c]) := by
        refine ⟨by simp, ?_⟩
        simpa [or_imp, forall_and, hc] using hys
      rw [List.append_assoc, List.cons_append, words_append_blank hb, words_of_isWord hword]
      simp [lastChar?]

/-! ## Rows -/

/-- Words in a row, with single spaces between them. -/
def unwords (ws : List (List Char)) : List Char :=
  [' '].intercalate ws

@[simp] theorem unwords_singleton (w : List Char) : unwords [w] = w :=
  List.intercalate_singleton

@[simp] theorem unwords_cons_cons (w v : List Char) (ws : List (List Char)) :
    unwords (w :: v :: ws) = w ++ ' ' :: unwords (v :: ws) := by
  simp [unwords, List.intercalate_cons_cons]

/-- A row is taken apart into the words that it is made of. -/
theorem words_unwords (h : ∀ w ∈ ws, IsWord w) : words (unwords ws) = ws := by
  induction ws with
  | nil => rfl
  | cons w ws ih =>
    have hw := words_of_isWord (h w List.mem_cons_self)
    cases ws with
    | nil => rw [unwords_singleton, hw]
    | cons v ws =>
      rw [unwords_cons_cons, words_append_blank (by decide), hw,
        ih fun w hw => h w (List.mem_cons_of_mem _ hw)]
      rfl

theorem getLast?_unwords (h : ∀ w ∈ ws, IsWord w) : (unwords ws).getLast? = lastChar? ws := by
  induction ws with
  | nil => rfl
  | cons w ws ih =>
    cases ws with
    | nil => simp [lastChar?]
    | cons v ws =>
      have hv := (h v (by simp)).1
      have hne : unwords (v :: ws) ≠ [] := by
        cases ws with
        | nil => simpa using hv
        | cons => simp
      obtain ⟨c, hc⟩ := Option.ne_none_iff_exists'.1 (mt List.getLast?_eq_none_iff.1 hne)
      have ih' := ih fun w hw => h w (List.mem_cons_of_mem _ hw)
      rw [unwords_cons_cons, List.getLast?_append, List.getLast?_cons, hc, Option.getD_some,
        Option.some_or, ← hc, ih', lastChar?, lastChar?, List.getLast?_cons_cons]

/-- There is no blank at the ends of a row. -/
theorem trimmed_unwords (h : ∀ w ∈ ws, IsWord w) : Trimmed (unwords ws) := by
  constructor
  · intro c hc
    cases ws with
    | nil => cases hc
    | cons w ws =>
      have hw := h w List.mem_cons_self
      have hhead : (unwords (w :: ws)).head? = w.head? := by
        cases ws with
        | nil => rw [unwords_singleton]
        | cons v ws =>
          obtain ⟨d, ds, rfl⟩ := List.exists_cons_of_ne_nil hw.1
          simp
      exact hw.trimmed.head c (hhead ▸ hc)
  · intro c hc
    rw [getLast?_unwords h, lastChar?, Option.mem_def, Option.bind_eq_some_iff] at hc
    obtain ⟨w, hw, hc⟩ := hc
    exact (h w (List.mem_of_getLast? hw)).trimmed.last c hc

theorem isDigit_iff : c.isDigit = true ↔ 48 ≤ c.toNat ∧ c.toNat ≤ 57 := by
  simp only [Char.isDigit, Bool.and_eq_true, decide_eq_true_eq, ge_iff_le, UInt32.le_iff_toNat_le]
  rfl

theorem digit?_of_isDigit (h : c.isDigit = true) : digit? c = some (c.toNat - '0'.toNat) :=
  if_pos (isDigit_iff.1 h)

theorem isBlank_of_isDigit (h : c.isDigit = true) : isBlank c = false := by
  obtain ⟨hge, hle⟩ := isDigit_iff.1 h
  by_contra hblank
  simp [isBlank] at hblank
  omega

theorem digitsAfter_of_isDigit (h : ∀ c ∈ cs, c.isDigit = true) (value : Nat) :
    digitsAfter value cs = some (Nat.ofDigitChars 10 cs value) := by
  induction cs generalizing value with
  | nil => rfl
  | cons c cs ih =>
    rw [digitsAfter, digit?_of_isDigit (h c List.mem_cons_self), Option.bind_some,
      ih fun c hc => h c (List.mem_cons_of_mem _ hc)]
    rfl

theorem isDigit_of_mem_toString {n : Nat} (h : c ∈ (toString n).toList) : c.isDigit = true := by
  rw [Nat.toString_eq_repr, Nat.toList_repr] at h
  exact Nat.isDigit_of_mem_toDigits (by decide) (by decide) h

/-- A number is a word. -/
theorem isWord_toString (n : Nat) : IsWord (toString n).toList := by
  constructor
  · rw [Nat.toString_eq_repr, Nat.toList_repr]
    exact Nat.toDigits_ne_nil
  · intro c hc
    exact isBlank_of_isDigit (isDigit_of_mem_toString hc)

/-- A number is read back, if it is not too large. -/
theorem numeral?_toString {bound n : Nat} (h : n ≤ bound) :
    numeral? bound (toString n).toList = some n := by
  have hdigits : ∀ c ∈ (toString n).toList, c.isDigit = true := fun c => isDigit_of_mem_toString
  have hvalue : digitsAfter 0 (toString n).toList = some n := by
    rw [digitsAfter_of_isDigit hdigits, Nat.toString_eq_repr, Nat.toList_repr,
      Nat.ofDigitChars_ten_toDigits]
  obtain ⟨d, ds, heq⟩ := List.exists_cons_of_ne_nil (isWord_toString n).1
  rw [heq] at hdigits hvalue ⊢
  have hplus : d ≠ '+' := by
    rintro rfl
    exact absurd (hdigits _ List.mem_cons_self) (by decide)
  unfold numeral?
  split
  · rename_i h'
    exact absurd (List.cons.inj h').1 hplus
  · rw [digits?, hvalue]
    simp [h]

end TryResources.Text
