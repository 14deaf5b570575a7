import TryResources.Proofs.Lines

/-!
# Labels in lines

A line names a label in one of two places. In front of a final colon it defines the label, and any
name without blanks at its ends may stand there; behind the mnemonic of a jump it refers to the
label, and only a single word may stand there. The name can be replaced in its place, with the rest
of the line left as it is. What the line holds is then the same, under the new name.

* `Text.replaceCore`, `Text.replaceWord`: a text or a word in the place of another one.
* `Line.Referable`, `read_goto_iff`: the names that a jump can refer to.
* `Line.defined?`, `Line.target?`: the label that a line names.
* `Line.relabel`, `read_relabel`: a line under another name is read as its node under that name.
-/

namespace TryResources

/-! ## Texts in the places of others -/

namespace Text

variable {c : Char} {cs gap rest v w : List Char} {n : Nat}

instance (w : List Char) : Decidable (IsWord w) :=
  decidable_of_iff (w ≠ [] ∧ w.all (!isBlank ·) = true) (by simp [IsWord])

instance (cs : List Char) : Decidable (Trimmed cs) :=
  decidable_of_iff (trim cs = cs) ⟨fun h => h ▸ trimmed_trim cs, trim_eq_self⟩

/-- Puts a text in the place of the one that stands between blanks. -/
def replaceCore (v cs : List Char) : List Char :=
  cs.takeWhile isBlank ++ (v ++ ((cs.dropWhile isBlank).reverse.takeWhile isBlank).reverse)

theorem blanks_takeWhile (cs : List Char) : Blanks (cs.takeWhile isBlank) :=
  fun _ => List.mem_takeWhile_imp

theorem exists_replaceCore (cs : List Char) : ∃ front back, Blanks front ∧ Blanks back ∧
    ∀ v, replaceCore v cs = front ++ (v ++ back) :=
  ⟨_, _, blanks_takeWhile cs, fun c hc => blanks_takeWhile _ c (List.mem_reverse.1 hc),
    fun _ => rfl⟩

/-- The first word of a text. -/
def firstWord (cs : List Char) : List Char :=
  (cs.dropWhile isBlank).takeWhile (!isBlank ·)

/-- What stands behind the first word. -/
def behindWord (cs : List Char) : List Char :=
  (cs.dropWhile isBlank).dropWhile (!isBlank ·)

/-- Puts a word in the place of that number. -/
def replaceWord : Nat → List Char → List Char → List Char
  | 0, v, cs => cs.takeWhile isBlank ++ (v ++ behindWord cs)
  | n + 1, v, cs => cs.takeWhile isBlank ++ (firstWord cs ++ replaceWord n v (behindWord cs))

theorem takeWhile_append_word (cs : List Char) :
    cs.takeWhile isBlank ++ (firstWord cs ++ behindWord cs) = cs := by
  rw [firstWord, behindWord, List.takeWhile_append_dropWhile, List.takeWhile_append_dropWhile]

theorem isBlank_head?_behindWord (cs : List Char) :
    ∀ c ∈ (behindWord cs).head?, isBlank c = true := by
  intro c hc
  simpa using head?_dropWhile (!isBlank ·) _ c hc

/-- A word is followed by the end or by a blank, and then by the other words. -/
theorem words_gap_append (hgap : Blanks gap) (hw : IsWord w)
    (hrest : ∀ c ∈ rest.head?, isBlank c = true) :
    words (gap ++ (w ++ rest)) = w :: words rest := by
  rw [words_append_of_isBlank hgap]
  cases rest with
  | nil => rw [List.append_nil, words_of_isWord hw, words_nil]
  | cons c rest =>
    have hc : isBlank c = true := hrest c rfl
    have hskip : words (c :: rest) = words rest :=
      words_append_of_isBlank (List.forall_mem_singleton.2 hc) rest
    rw [words_append_blank hc, words_of_isWord hw, hskip]
    rfl

/-- A text that has words has a first one. -/
theorem words_eq_cons (h : words cs ≠ []) : words cs = firstWord cs :: words (behindWord cs) := by
  have hword : IsWord (firstWord cs) := by
    refine ⟨fun hnil => ?_, fun c hc => by simpa using List.mem_takeWhile_imp hc⟩
    -- without a first word there are only blanks
    cases hdrop : cs.dropWhile isBlank with
    | nil =>
      have hblanks : Blanks cs := List.dropWhile_eq_nil_iff.1 hdrop
      exact h (words_eq_iff.2 (.nil hblanks))
    | cons c rest =>
      have hc : isBlank c = false := head?_dropWhile isBlank cs c (by rw [hdrop]; rfl)
      rw [firstWord, hdrop, List.takeWhile_cons_of_pos (by simp [hc])] at hnil
      cases hnil
  calc words cs
      _ = words (cs.takeWhile isBlank ++ (firstWord cs ++ behindWord cs)) := by
        rw [takeWhile_append_word]
      _ = firstWord cs :: words (behindWord cs) :=
        words_gap_append (blanks_takeWhile cs) hword (isBlank_head?_behindWord cs)

theorem head?_replaceWord (hc : isBlank c = true) (n : Nat) (v rest : List Char) :
    (replaceWord n v (c :: rest)).head? = some c := by
  cases n <;> simp [replaceWord, List.takeWhile_cons_of_pos hc]

/-- One word is replaced, and the others are not. -/
theorem words_replaceWord (hv : IsWord v) (h : n < (words cs).length) :
    words (replaceWord n v cs) = (words cs).set n v := by
  have hne : words cs ≠ [] := by
    rintro hnil
    simp [hnil] at h
  induction n generalizing cs with
  | zero =>
    rw [words_eq_cons hne, List.set_cons_zero]
    exact words_gap_append (blanks_takeWhile cs) hv (isBlank_head?_behindWord cs)
  | succ n ih =>
    have hcons := words_eq_cons hne
    rw [hcons, List.length_cons, Nat.add_lt_add_iff_right] at h
    have hmore : words (behindWord cs) ≠ [] := List.ne_nil_of_length_pos (Nat.zero_lt_of_lt h)
    have hword : IsWord (firstWord cs) :=
      (spaced_words cs).isWord _ (hcons ▸ List.mem_cons_self)
    have hblank : ∀ c ∈ (replaceWord n v (behindWord cs)).head?, isBlank c = true := by
      intro c hc
      cases hbehind : behindWord cs with
      | nil => exact absurd (hbehind ▸ words_nil) hmore
      | cons d rest =>
        have hd : isBlank d = true := isBlank_head?_behindWord cs d (by rw [hbehind]; rfl)
        rw [hbehind, head?_replaceWord hd] at hc
        exact Option.some.inj hc ▸ hd
    rw [hcons, List.set_cons_succ, ← ih h hmore]
    exact words_gap_append (blanks_takeWhile cs) hword hblank

/-- Blanks at the ends are not between words. -/
theorem words_trim (cs : List Char) : words (trim cs) = words cs := by
  obtain ⟨-, front, back, hfront, hback, hcs⟩ := isCore_trim cs
  have hend : ∀ xs, words (xs ++ back) = words xs := by
    intro xs
    cases back with
    | nil => rw [List.append_nil]
    | cons c back =>
      obtain ⟨hc, hback⟩ := List.forall_mem_cons.1 hback
      rw [words_append_blank hc, words_eq_iff.2 (.nil hback), List.append_nil]
  calc words (trim cs)
      _ = words (front ++ (trim cs ++ back)) := by rw [words_append_of_isBlank hfront, hend]
      _ = words cs := by rw [← hcs]

theorem getLast?_trim (cs : List Char) : (trim cs).getLast? = lastChar? (words cs) := by
  rw [← lastChar?_words (trimmed_trim cs), words_trim]

end Text

namespace Line

variable {x y line : String} {ws rest : List String} {op : Opcode} {f : String → String}

/-! ## The label that a line names -/

/-- The words of a line. -/
def words (line : String) : List String :=
  (Text.words line.toList).map String.ofList

/-- The label that a line defines, if it ends in a colon. -/
def defined? (line : String) : Option String :=
  let text := Text.trim line.toList
  if text.getLast? = some ':' then some (String.ofList (Text.trim text.dropLast)) else none

/-- The word behind the mnemonic of a jump, whether other words follow or not. -/
def jumpTarget? : List String → Option String
  | word :: x :: _ => do
    let op ← Opcode.ofMnemonic? word
    if op.operandKind = .target then some x else none
  | _ => none

/-- The label that a line goes by as a jump. -/
def target? (line : String) : Option String :=
  match defined? line with
  | some _ => none
  | none => jumpTarget? (words line)

/-- A line that defines no label is a row of words. -/
theorem read_eq (line : String) : read line =
    match defined? line with
    | some x => .ok (some (.label x))
    | none => ofWords (words line) := by
  unfold read defined?
  dsimp only
  split
  · rfl
  · rw [Text.words_trim]
    rfl

theorem map_toList_words (line : String) :
    (words line).map String.toList = Text.words line.toList := by
  simp [words, Function.comp_def]

theorem isWord_of_mem_words (h : x ∈ words line) : Text.IsWord x.toList := by
  refine (Text.spaced_words line.toList).isWord _ ?_
  rw [← map_toList_words]
  exact List.mem_map_of_mem h

theorem defined?_eq_none_iff :
    defined? line = none ↔ Text.lastChar? ((words line).map String.toList) ≠ some ':' := by
  rw [map_toList_words, ← Text.getLast?_trim]
  unfold defined?
  dsimp only
  split <;> simp_all

theorem jumpTarget?_eq_some_iff : jumpTarget? ws = some x ↔
    ∃ (op : Opcode) (rest : List String),
      op.operandKind = .target ∧ ws = op.mnemonic :: x :: rest := by
  constructor
  · intro h
    unfold jumpTarget? at h
    split at h
    · rename_i word y rest
      obtain ⟨op, hop, h⟩ := Option.bind_eq_some_iff.1 h
      split at h
      · rename_i hkind
        obtain rfl := Option.some.inj h
        exact ⟨op, rest, hkind, by rw [Opcode.mnemonic_of_ofMnemonic? hop]⟩
      · cases h
    · cases h
  · rintro ⟨op, rest, hkind, rfl⟩
    simp [jumpTarget?, hkind]

/-- A jump is read, unless words are left over. -/
theorem ofWords_jump (h : op.operandKind = .target) (x : String) (rest : List String) :
    ofWords (op.mnemonic :: x :: rest) =
      match rest with
      | [] => .ok (some (.insn ⟨op, .target x⟩))
      | extra :: _ => .error (.invalidOperand op.mnemonic extra) := by
  have hoperand : operand op (x :: rest) = .ok (.target x, rest) := by
    rw [operand, h]
    rfl
  rw [ofWords, node_mnemonic, hoperand]
  cases rest <;> rfl

/-- Only a jump goes by a label in a row of words. -/
theorem map_of_ofWords {n : Node String} (h : ofWords ws = .ok (some n))
    (hnone : jumpTarget? ws = none) (f : String → String) : n.map f = n := by
  cases ofWords_eq_ok_iff.1 h with
  | line | frame => rfl
  | @insn op o ws ho =>
    generalize hkind : op.operandKind = kind at ho
    cases ho with
    | target x => cases hnone.symm.trans (jumpTarget?_eq_some_iff.2 ⟨op, [], hkind, rfl⟩)
    | none | slot | type | member => rfl

theorem jumpTarget?_of_ofWords {n : Node String} (h : ofWords ws = .ok (some n))
    (hx : x ∈ n.labels) : jumpTarget? ws = some x := by
  cases ofWords_eq_ok_iff.1 h with
  | line | frame => cases hx
  | @insn op o ws ho =>
    generalize hkind : op.operandKind = kind at ho
    cases ho with
    | target y =>
      obtain rfl := List.mem_singleton.1 hx
      exact jumpTarget?_eq_some_iff.2 ⟨op, [], hkind, rfl⟩
    | none | slot | type | member => cases hx

theorem target?_eq_some_iff : target? line = some x ↔
    defined? line = none ∧ jumpTarget? (words line) = some x := by
  unfold target?
  cases defined? line <;> simp

/-- A node mentions the label that its line names. -/
theorem defined?_or_target?_of_read {n : Node String} (h : read line = .ok (some n))
    (hx : x ∈ n.labels) : defined? line = some x ∨ target? line = some x := by
  rw [read_eq] at h
  cases hdefined : defined? line with
  | some y =>
    rw [hdefined] at h
    obtain rfl : .label y = n := Option.some.inj (Except.ok.inj h)
    exact .inl (congrArg some (List.mem_singleton.1 hx).symm)
  | none =>
    rw [hdefined] at h
    exact .inr (target?_eq_some_iff.2 ⟨hdefined, jumpTarget?_of_ofWords h hx⟩)

/-! ## Names that can be referred to -/

/-- A name that can stand behind the mnemonic of a jump: a single word that does not end in a
colon. -/
structure Referable (x : String) : Prop where
  isWord : Text.IsWord x.toList
  getLast?_ne : x.toList.getLast? ≠ some ':'

instance (x : String) : Decidable (Referable x) :=
  decidable_of_iff (Text.IsWord x.toList ∧ x.toList.getLast? ≠ some ':')
    ⟨fun h => ⟨h.1, h.2⟩, fun h => ⟨h.isWord, h.getLast?_ne⟩⟩

/-- A jump can go to a name if and only if its line is read as that jump. -/
theorem read_goto_iff :
    read ("goto " ++ x) = .ok (some (.insn ⟨.goto, .target x⟩)) ↔ Referable x := by
  constructor
  · intro h
    rw [read_eq] at h
    split at h
    · cases h
    · rename_i hnone
      have hwords : words ("goto " ++ x) = ["goto", x] := by
        generalize words ("goto " ++ x) = ws at h
        cases ofWords_eq_ok_iff.1 h with
        | insn op ho =>
          cases ho
          rfl
      refine ⟨isWord_of_mem_words (hwords ▸ List.mem_cons_of_mem _ List.mem_cons_self), ?_⟩
      rw [defined?_eq_none_iff, hwords] at hnone
      exact hnone
  · intro h
    have hwords : ∀ w ∈ [Opcode.goto.mnemonic.toList, x.toList], Text.IsWord w := by
      rintro w (_ | ⟨_, _ | ⟨_, ⟨⟩⟩⟩)
      · decide
      · exact h.isWord
    have hpad : ∀ c ∈ "".toList, Text.isBlank c = true := by simp
    have hread := read_of_words (n := .insn ⟨.goto, .target x⟩) hpad hwords h.getLast?_ne
      (.insn .goto (.target x))
    rw [String.empty_append] at hread
    exact hread

/-! ## Other names -/

/-- A line with its label renamed in its place. -/
def relabel (f : String → String) (line : String) : String :=
  match defined? line, target? line with
  | some x, _ =>
    let name := Text.replaceCore (f x).toList (Text.trim line.toList).dropLast
    String.ofList (Text.replaceCore (name ++ [':']) line.toList)
  | none, some x => String.ofList (Text.replaceWord 1 (f x).toList line.toList)
  | none, none => line

/-- A label is read whatever blanks stand around its name. -/
theorem read_label_of_blanks {front gap back name : List Char} (hfront : Text.Blanks front)
    (hgap : Text.Blanks gap) (hback : Text.Blanks back) (hname : Text.Trimmed name)
    (hline : line.toList = front ++ (name ++ gap ++ [':'] ++ back)) :
    read line = .ok (some (.label (String.ofList name))) := by
  have hcolon : Text.Trimmed ([] ++ [':']) := trimmed_append_colon ⟨by simp, by simp⟩
  rw [read_eq_ok_iff]
  cases name with
  | nil =>
    -- with an empty name, the gap is in front of all that is left
    have hcore : Text.IsCore ([] ++ [':']) line.toList :=
      ⟨hcolon, front ++ gap, back, hfront.append hgap, hback, by simp [hline]⟩
    exact .label hcore (Text.isCore_trim [])
  | cons c cs =>
    have hcore : Text.IsCore (c :: cs ++ gap ++ [':']) line.toList := by
      refine ⟨⟨by simpa using hname.head, ?_⟩, front, back, hfront, hback, hline⟩
      rw [List.getLast?_concat]
      exact hcolon.last
    exact .label hcore ⟨hname, [], gap, by simp [Text.Blanks], hgap, rfl⟩

theorem read_relabel_of_defined (h : defined? line = some x) (hx : Text.Trimmed (f x).toList) :
    read (relabel f line) = .ok (some (.label (f x))) := by
  obtain ⟨front, back, hfront, hback, hreplace⟩ := Text.exists_replaceCore line.toList
  obtain ⟨front', back', hfront', hback', hreplace'⟩ :=
    Text.exists_replaceCore (Text.trim line.toList).dropLast
  have hline : (relabel f line).toList =
      (front ++ front') ++ ((f x).toList ++ back' ++ [':'] ++ back) := by
    rw [relabel, h]
    dsimp only
    rw [hreplace, hreplace']
    simp
  rw [read_label_of_blanks (hfront.append hfront') hback' hback hx hline, String.ofList_toList]

theorem words_relabel_of_target (h : target? line = some x) (hx : Text.IsWord (f x).toList) :
    words (relabel f line) = (words line).set 1 (f x) := by
  obtain ⟨hnone, hjump⟩ := target?_eq_some_iff.1 h
  obtain ⟨op, rest, -, hwords⟩ := jumpTarget?_eq_some_iff.1 hjump
  have hlength : 1 < (Text.words line.toList).length := by
    rw [← map_toList_words, hwords]
    simp
  rw [relabel, hnone, h]
  dsimp only
  rw [words, String.toList_ofList, Text.words_replaceWord hx hlength, List.map_set,
    String.ofList_toList]
  rfl

/-- A jump to another label is refused only for the words behind its label, as before. -/
theorem read_relabel_of_target (h : target? line = some x) (hx : Referable (f x)) :
    read (relabel f line) = (read line).map (Option.map (Node.map f)) := by
  have hset := words_relabel_of_target h hx.isWord
  obtain ⟨hnone, hjump⟩ := target?_eq_some_iff.1 h
  obtain ⟨op, rest, hkind, hwords⟩ := jumpTarget?_eq_some_iff.1 hjump
  rw [hwords] at hset
  have hnone' : defined? (relabel f line) = none := by
    rw [defined?_eq_none_iff] at hnone ⊢
    rw [hset]
    rw [hwords] at hnone
    cases rest with
    | nil => exact hx.getLast?_ne
    | cons w rest =>
      simp only [Text.lastChar?, List.set_cons_succ, List.set_cons_zero, List.map_cons,
        List.getLast?_cons_cons] at hnone ⊢
      exact hnone
  rw [read_eq, hnone', hset, read_eq line, hnone, hwords]
  show ofWords (op.mnemonic :: f x :: rest) = (ofWords (op.mnemonic :: x :: rest)).map _
  rw [ofWords_jump hkind, ofWords_jump hkind]
  cases rest <;> rfl

/-- **Lines are read under other names.** If the label that a line names is renamed in its place,
to a name that fits there, the line holds the same node under that name, or is refused for the same
reason. -/
theorem read_relabel (hdefined : ∀ x, defined? line = some x → Text.Trimmed (f x).toList)
    (htarget : ∀ x, target? line = some x → Referable (f x)) :
    read (relabel f line) = (read line).map (Option.map (Node.map f)) := by
  cases hx : defined? line with
  | some x =>
    rw [read_relabel_of_defined hx (hdefined x hx), read_eq, hx]
    rfl
  | none =>
    cases hy : target? line with
    | some y => exact read_relabel_of_target hy (htarget y hy)
    | none =>
      have hsame : relabel f line = line := by rw [relabel, hx, hy]
      have hjump : jumpTarget? (words line) = none := by
        unfold target? at hy
        rwa [hx] at hy
      rw [hsame, read_eq, hx]
      cases hwords : ofWords (words line) with
      | error e => rfl
      | ok held =>
        cases held with
        | none => rfl
        | some n =>
          have hn := map_of_ofWords hwords hjump f
          simp [Except.map, hn]

end Line

end TryResources
