import TryResources.Listing.Line
import TryResources.Proofs.Results
import TryResources.Proofs.Tokens

/-!
# The grammar of lines

Which lines hold a node, and why another line holds none. A line that ends in a colon defines a
label, whatever it looks like else; any other one is a row of words. Its first word says what is
due. If a word is wrong, that matters only if none is missing, and a word too many only if none is
wrong.

* `Operand.Spelled`, `Node.Spelled`: the words in which operands and nodes are written.
* `Line.Refused`: what is wrong with a row of words.
* `Line.WellFormed`, `Line.Malformed`: what a line holds, and what is wrong with it.
* `ofWords_eq_ok_iff`, `ofWords_eq_error_iff`: rows of words are read by this grammar.
* `read_eq_ok_iff`, `read_eq_error_iff`: so are lines, so each is well-formed or malformed in one
  way only.
-/

namespace TryResources

/-! ## What is written -/

/-- The words in which an operand of some shape is written. -/
inductive Operand.Spelled : OperandKind → Operand String → List String → Prop
  | none : Spelled .none .none []
  | slot {w : String} {s : Slot} : Text.IsNumeral Line.maxSlot w.toList s →
      Spelled .slot (.slot s) [w]
  | target (name : String) : Spelled .target (.target name) [name]
  | type (name : String) : Spelled .type (.type name) [name]
  /-- The last dot is the one between owner and name. -/
  | member {owner name : String} (desc : String) : '.' ∉ name.toList →
      Spelled .member (.member ⟨owner, name, desc⟩) [owner ++ "." ++ name, desc]

/-- The words in which a node is written that is no label. -/
inductive Node.Spelled : Node String → List String → Prop
  | line {w : String} {k : Nat} : Text.IsNumeral Line.maxLine w.toList k →
      Spelled (.line k) ["line", w]
  | frame : Spelled .frame ["frame"]
  | insn (op : Opcode) {o : Operand String} {ws : List String} :
      Operand.Spelled op.operandKind o ws → Spelled (.insn ⟨op, o⟩) (op.mnemonic :: ws)

/-- How many words an operand of some shape takes. -/
def OperandKind.arity : OperandKind → Nat
  | none => 0
  | slot | target | type => 1
  | member => 2

namespace Line

/-- How many words are due behind a first word. -/
inductive Due : String → Nat → Prop
  | line : Due "line" 1
  | frame : Due "frame" 0
  | insn (op : Opcode) : Due op.mnemonic op.operandKind.arity

/-- A first word behind which a number up to some bound is due. -/
inductive Counted : String → Nat → Prop
  | line : Counted "line" maxLine
  | insn {op : Opcode} : op.operandKind = .slot → Counted op.mnemonic maxSlot

/-- Why words do not make up a node: the first one is unknown, words are missing, a word is wrong,
or one is left over. -/
inductive Refused : List String → MethodError → Prop
  | unknown {word : String} {ws : List String} : (∀ k, ¬ Due word k) →
      Refused (word :: ws) (.unknownOpcode word)
  | missing {word : String} {ws : List String} {k : Nat} : Due word k → ws.length < k →
      Refused (word :: ws) (.missingOperand word)
  | number {word w : String} {ws : List String} {bound : Nat} : Counted word bound →
      (∀ k, ¬ Text.IsNumeral bound w.toList k) →
      Refused (word :: w :: ws) (.invalidOperand word w)
  | member {op : Opcode} {reference desc : String} {ws : List String} :
      op.operandKind = .member → '.' ∉ reference.toList →
      Refused (op.mnemonic :: reference :: desc :: ws) (.invalidMember reference)
  | extra {word w : String} {n : Node String} {used ws : List String} :
      n.Spelled (word :: used) → Refused (word :: (used ++ w :: ws)) (.invalidOperand word w)

/-- What a line holds: nothing, a label, or another node. -/
inductive WellFormed (line : String) : Option (Node String) → Prop
  | blank : Text.IsCore [] line.toList → WellFormed line none
  | label {text name : List Char} : Text.IsCore (text ++ [':']) line.toList →
      Text.IsCore name text → WellFormed line (some (.label (String.ofList name)))
  | node {text : List Char} {ws : List String} {n : Node String} :
      Text.IsCore text line.toList → text.getLast? ≠ some ':' →
      Text.Spaced (ws.map String.toList) text → n.Spelled ws → WellFormed line (some n)

/-- What is wrong with a line. -/
inductive Malformed (line : String) : MethodError → Prop
  | intro {text : List Char} {ws : List String} {e : MethodError} :
      Text.IsCore text line.toList → text.getLast? ≠ some ':' →
      Text.Spaced (ws.map String.toList) text → Refused ws e → Malformed line e

variable {op : Opcode} {o : Operand String} {n : Node String} {e : MethodError}
  {word line : String} {ws rest : List String} {bound : Nat}

/-! ## Operands -/

theorem required_eq_ok_iff {w : String} : required word ws = .ok (w, rest) ↔ ws = w :: rest := by
  cases ws with
  | nil => simp [required]
  | cons w ws => simp [required]

theorem required_eq_error_iff :
    required word ws = .error e ↔ ws = [] ∧ e = .missingOperand word := by
  cases ws with
  | nil => simp [required, eq_comm]
  | cons w ws => simp [required]

theorem number_eq_ok_iff {k : Nat} : number bound word ws = .ok (k, rest) ↔
    ∃ w, ws = w :: rest ∧ Text.IsNumeral bound w.toList k := by
  cases ws with
  | nil => simp [number, required, bind, Except.bind]
  | cons w ws =>
    simp only [number, required, bind, Except.bind, ← Text.numeral?_eq_some_iff]
    cases h : Text.numeral? bound w.toList with
    | none => simp [h]
    | some k' => simp [h, and_comm]

theorem number_eq_error_iff : number bound word ws = .error e ↔
    (ws = [] ∧ e = .missingOperand word) ∨
      ∃ w rest, ws = w :: rest ∧ (∀ k, ¬ Text.IsNumeral bound w.toList k) ∧
        e = .invalidOperand word w := by
  cases ws with
  | nil => simp [number, required, bind, Except.bind, eq_comm]
  | cons w ws =>
    simp only [number, required, bind, Except.bind, ← Text.numeral?_eq_some_iff]
    cases h : Text.numeral? bound w.toList with
    | none => simp [h, eq_comm]
    | some k => simp [h]

/-- Owner and name are told apart by the last dot. -/
theorem member_eq_ok_iff {reference desc : String} {m : Member} :
    member reference desc = .ok m ↔
      ∃ owner name, reference = owner ++ "." ++ name ∧ '.' ∉ name.toList ∧
        m = ⟨owner, name, desc⟩ := by
  constructor
  · intro h
    unfold member at h
    split at h
    · rename_i owner name hsplit
      obtain ⟨hreference, hname⟩ := splitAtLast_eq_some_iff.1 hsplit
      refine ⟨String.ofList owner, String.ofList name, ?_, by simpa using hname,
        (Except.ok.inj h).symm⟩
      rw [← String.toList_inj, hreference]
      simp
    · cases h
  · rintro ⟨owner, name, rfl, hname, rfl⟩
    have hsplit : splitAtLast '.' (owner ++ "." ++ name).toList =
        some (owner.toList, name.toList) :=
      splitAtLast_eq_some_iff.2 ⟨by simp, hname⟩
    rw [member, hsplit]
    simp

theorem member_eq_error_iff {reference desc : String} :
    member reference desc = .error e ↔ '.' ∉ reference.toList ∧ e = .invalidMember reference := by
  unfold member
  cases h : splitAtLast '.' reference.toList with
  | none => simp [splitAtLast_eq_none_iff.1 h, eq_comm]
  | some pair =>
    have hdot : ¬ '.' ∉ reference.toList := fun hnot => by
      simp [splitAtLast_eq_none_iff.2 hnot] at h
    simp [hdot]

/-- An operand is taken off the words in which it is written. -/
theorem operand_eq_ok_iff : operand op ws = .ok (o, rest) ↔
    ∃ used, ws = used ++ rest ∧ Operand.Spelled op.operandKind o used := by
  unfold operand
  cases op.operandKind with
  | none =>
    constructor
    · intro h
      cases h
      exact ⟨[], rfl, .none⟩
    · rintro ⟨_, rfl, ⟨⟩⟩
      rfl
  | slot =>
    constructor
    · intro h
      obtain ⟨⟨s, ws'⟩, hs, h⟩ := bind_eq_ok_iff.1 h
      cases h
      obtain ⟨w, rfl, hw⟩ := number_eq_ok_iff.1 hs
      exact ⟨[w], rfl, .slot hw⟩
    · rintro ⟨_, rfl, hw⟩
      cases hw with
      | slot hw => exact bind_eq_ok_iff.2 ⟨_, number_eq_ok_iff.2 ⟨_, rfl, hw⟩, rfl⟩
  | target =>
    constructor
    · intro h
      obtain ⟨⟨name, ws'⟩, hname, h⟩ := bind_eq_ok_iff.1 h
      cases h
      obtain rfl := required_eq_ok_iff.1 hname
      exact ⟨[name], rfl, .target name⟩
    · rintro ⟨_, rfl, ⟨⟩⟩
      rfl
  | type =>
    constructor
    · intro h
      obtain ⟨⟨name, ws'⟩, hname, h⟩ := bind_eq_ok_iff.1 h
      cases h
      obtain rfl := required_eq_ok_iff.1 hname
      exact ⟨[name], rfl, .type name⟩
    · rintro ⟨_, rfl, ⟨⟩⟩
      rfl
  | member =>
    constructor
    · intro h
      obtain ⟨⟨reference, ws'⟩, hreference, h⟩ := bind_eq_ok_iff.1 h
      obtain ⟨⟨desc, ws''⟩, hdesc, h⟩ := bind_eq_ok_iff.1 h
      obtain ⟨m, hm, h⟩ := bind_eq_ok_iff.1 h
      cases h
      obtain rfl := required_eq_ok_iff.1 hreference
      obtain rfl := required_eq_ok_iff.1 hdesc
      obtain ⟨owner, name, rfl, hname, rfl⟩ := member_eq_ok_iff.1 hm
      exact ⟨[_, desc], rfl, .member desc hname⟩
    · rintro ⟨_, rfl, hw⟩
      cases hw with
      | @member owner name desc hname =>
        have hm : member (owner ++ "." ++ name) desc = .ok ⟨owner, name, desc⟩ :=
          member_eq_ok_iff.2 ⟨owner, name, rfl, hname, rfl⟩
        exact bind_eq_ok_iff.2 ⟨_, rfl, bind_eq_ok_iff.2 ⟨_, rfl, bind_eq_ok_iff.2 ⟨_, hm, rfl⟩⟩⟩

/-- Taking an operand fails if words are missing, and else if a word is wrong. -/
theorem operand_eq_error_iff : operand op ws = .error e ↔
    (ws.length < op.operandKind.arity ∧ e = .missingOperand op.mnemonic) ∨
    (op.operandKind = .slot ∧ ∃ w rest, ws = w :: rest ∧
      (∀ k, ¬ Text.IsNumeral maxSlot w.toList k) ∧ e = .invalidOperand op.mnemonic w) ∨
    (op.operandKind = .member ∧ ∃ reference desc rest, ws = reference :: desc :: rest ∧
      '.' ∉ reference.toList ∧ e = .invalidMember reference) := by
  unfold operand
  cases op.operandKind with
  | none => simp [OperandKind.arity]
  | slot =>
    simp only [bind_eq_error_iff, number_eq_error_iff]
    simp [OperandKind.arity, List.length_eq_zero_iff, pure, Except.pure]
  | target =>
    simp only [bind_eq_error_iff, required_eq_error_iff]
    simp [OperandKind.arity, List.length_eq_zero_iff, pure, Except.pure]
  | type =>
    simp only [bind_eq_error_iff, required_eq_error_iff]
    simp [OperandKind.arity, List.length_eq_zero_iff, pure, Except.pure]
  | member =>
    rcases ws with _ | ⟨reference, _ | ⟨desc, rest⟩⟩
    · simp [required, bind, Except.bind, OperandKind.arity, eq_comm]
    · simp [required, bind, Except.bind, OperandKind.arity, eq_comm]
    · -- no word is missing, so only the reference can be wrong
      have hmember : (member reference desc >>= fun m =>
          (.ok (.member m, rest) : Except MethodError (Operand String × List String))) = .error e ↔
          member reference desc = .error e := by
        simp [bind_eq_error_iff]
      refine hmember.trans (member_eq_error_iff.trans ?_)
      constructor
      · rintro ⟨hdot, rfl⟩
        exact .inr (.inr ⟨rfl, reference, desc, rest, rfl, hdot, rfl⟩)
      · rintro (⟨hlt, -⟩ | ⟨hkind, -⟩ | ⟨-, reference', desc', rest', heq, hdot, rfl⟩)
        · exact absurd hlt (Nat.not_lt.2 (Nat.le_add_left 2 rest.length))
        · cases hkind
        · obtain ⟨rfl, -⟩ := List.cons.inj heq
          exact ⟨hdot, rfl⟩

/-! ## Nodes -/

/-- Behind a mnemonic, an operand is read. -/
theorem node_mnemonic (op : Opcode) (ws : List String) :
    node op.mnemonic ws = operand op ws >>= fun (o, rest) => .ok (.insn ⟨op, o⟩, rest) := by
  have hline : op.mnemonic ≠ "line" := by cases op <;> decide
  have hframe : op.mnemonic ≠ "frame" := by cases op <;> decide
  rw [node, if_neg hline, if_neg hframe, Opcode.ofMnemonic?_mnemonic]
  rfl

/-- A first word asks for a number, or for nothing, or for an operand, or is unknown. -/
theorem word_cases (word : String) :
    word = "line" ∨ word = "frame" ∨ (∃ op : Opcode, word = op.mnemonic) ∨
      (∀ k, ¬ Due word k) ∧ ∀ ws, node word ws = .error (.unknownOpcode word) := by
  by_cases hline : word = "line"
  · exact .inl hline
  by_cases hframe : word = "frame"
  · exact .inr (.inl hframe)
  cases hop : Opcode.ofMnemonic? word with
  | some op => exact .inr (.inr (.inl ⟨op, (Opcode.mnemonic_of_ofMnemonic? hop).symm⟩))
  | none =>
    refine .inr (.inr (.inr ⟨?_, fun ws => ?_⟩))
    · rintro k (_ | _ | op)
      · exact hline rfl
      · exact hframe rfl
      · simp at hop
    · rw [node, if_neg hline, if_neg hframe, hop]

theorem node_eq_ok_iff : node word ws = .ok (n, rest) ↔
    ∃ used, ws = used ++ rest ∧ n.Spelled (word :: used) := by
  constructor
  · intro h
    rcases word_cases word with rfl | rfl | ⟨op, rfl⟩ | ⟨-, hunknown⟩
    · obtain ⟨⟨k, ws'⟩, hk, h⟩ := bind_eq_ok_iff.1 (h : (number maxLine "line" ws >>= _) = _)
      cases h
      obtain ⟨w, rfl, hw⟩ := number_eq_ok_iff.1 hk
      exact ⟨[w], rfl, .line hw⟩
    · obtain ⟨rfl, rfl⟩ : .frame = n ∧ ws = rest := by simpa [node] using h
      exact ⟨[], rfl, .frame⟩
    · rw [node_mnemonic] at h
      obtain ⟨⟨o, ws'⟩, ho, h⟩ := bind_eq_ok_iff.1 h
      cases h
      obtain ⟨used, rfl, hused⟩ := operand_eq_ok_iff.1 ho
      exact ⟨used, rfl, .insn op hused⟩
    · rw [hunknown] at h
      cases h
  · rintro ⟨used, rfl, hn⟩
    cases hn with
    | line hw => exact bind_eq_ok_iff.2 ⟨_, number_eq_ok_iff.2 ⟨_, rfl, hw⟩, rfl⟩
    | frame => rfl
    | insn op hused =>
      rw [node_mnemonic]
      exact bind_eq_ok_iff.2 ⟨_, operand_eq_ok_iff.2 ⟨used, rfl, hused⟩, rfl⟩

theorem ofWords_eq_none_iff : ofWords ws = .ok none ↔ ws = [] := by
  cases ws with
  | nil => simp [ofWords]
  | cons word ws =>
    simp only [ofWords, reduceCtorEq, iff_false]
    intro h
    obtain ⟨⟨n, rest⟩, -, h⟩ := bind_eq_ok_iff.1 h
    cases rest <;> cases h

/-- A row of words holds the node that is written in them. -/
theorem ofWords_eq_ok_iff : ofWords ws = .ok (some n) ↔ n.Spelled ws := by
  cases ws with
  | nil => exact ⟨fun h => (by cases h), fun h => (by cases h)⟩
  | cons word ws =>
    constructor
    · intro h
      obtain ⟨⟨n', rest⟩, hn, h⟩ := bind_eq_ok_iff.1 h
      cases rest with
      | cons w rest => cases h
      | nil =>
        cases h
        obtain ⟨used, rfl, hused⟩ := node_eq_ok_iff.1 hn
        simpa using hused
    · intro h
      exact bind_eq_ok_iff.2 ⟨(n, []), node_eq_ok_iff.2 ⟨ws, (List.append_nil ws).symm, h⟩, rfl⟩

theorem refused_of_node_eq_error (h : node word ws = .error e) : Refused (word :: ws) e := by
  rcases word_cases word with rfl | rfl | ⟨op, rfl⟩ | ⟨hdue, hunknown⟩
  · rcases bind_eq_error_iff.1 (h : (number maxLine "line" ws >>= _) = _) with hnumber | ⟨_, -, h⟩
    · rcases number_eq_error_iff.1 hnumber with ⟨rfl, rfl⟩ | ⟨w, rest, rfl, hw, rfl⟩
      · exact .missing .line (by simp)
      · exact .number .line hw
    · cases h
  · simp [node] at h
  · rw [node_mnemonic] at h
    rcases bind_eq_error_iff.1 h with hoperand | ⟨_, -, h⟩
    · rcases operand_eq_error_iff.1 hoperand with ⟨hlt, rfl⟩ | ⟨hkind, w, rest, rfl, hw, rfl⟩ |
        ⟨hkind, reference, desc, rest, rfl, hdot, rfl⟩
      · exact .missing (.insn op) hlt
      · exact .number (.insn hkind) hw
      · exact .member hkind hdot
    · cases h
  · obtain rfl := Except.error.inj ((hunknown ws).symm.trans h)
    exact .unknown hdue

/-- A row of words holds no node for the reason that is found. -/
theorem ofWords_eq_error_iff : ofWords ws = .error e ↔ Refused ws e := by
  constructor
  · intro h
    cases ws with
    | nil => cases h
    | cons word ws =>
      rcases bind_eq_error_iff.1 h with hnode | ⟨⟨n, rest⟩, hn, h⟩
      · exact refused_of_node_eq_error hnode
      · cases rest with
        | nil => cases h
        | cons w rest =>
          cases h
          obtain ⟨used, rfl, hused⟩ := node_eq_ok_iff.1 hn
          exact .extra hused
  · intro h
    have hnode {word : String} {ws : List String} (h : node word ws = .error e) :
        ofWords (word :: ws) = .error e := bind_eq_error_iff.2 (.inl h)
    cases h with
    | @unknown word ws hdue =>
      rcases word_cases word with rfl | rfl | ⟨op, rfl⟩ | ⟨-, hunknown⟩
      · exact absurd .line (hdue 1)
      · exact absurd .frame (hdue 0)
      · exact absurd (.insn op) (hdue _)
      · exact hnode (hunknown ws)
    | @missing word ws k hdue hlt =>
      cases hdue with
      | line =>
        obtain rfl : ws = [] := List.length_eq_zero_iff.1 (by omega)
        rfl
      | frame => exact absurd hlt (Nat.not_lt_zero _)
      | insn op =>
        refine hnode ?_
        rw [node_mnemonic]
        exact bind_eq_error_iff.2 (.inl (operand_eq_error_iff.2 (.inl ⟨hlt, rfl⟩)))
    | @number word w ws bound hcounted hw =>
      cases hcounted with
      | line =>
        exact hnode (bind_eq_error_iff.2 (.inl (number_eq_error_iff.2 (.inr ⟨w, ws, rfl, hw, rfl⟩))))
      | insn hkind =>
        refine hnode ?_
        rw [node_mnemonic]
        exact bind_eq_error_iff.2
          (.inl (operand_eq_error_iff.2 (.inr (.inl ⟨hkind, w, ws, rfl, hw, rfl⟩))))
    | @member op reference desc ws hkind hdot =>
      refine hnode ?_
      rw [node_mnemonic]
      exact bind_eq_error_iff.2 (.inl (operand_eq_error_iff.2
        (.inr (.inr ⟨hkind, reference, desc, ws, rfl, hdot, rfl⟩))))
    | @extra word w n used ws hn =>
      exact bind_eq_error_iff.2 (.inr ⟨(n, w :: ws), node_eq_ok_iff.2 ⟨used, rfl, hn⟩, rfl⟩)

/-! ## Lines -/

/-- A line holds what the grammar says. -/
theorem read_eq_ok_iff {held : Option (Node String)} :
    read line = .ok held ↔ WellFormed line held := by
  constructor
  · intro h
    have hcore := Text.isCore_trim line.toList
    unfold read at h
    dsimp only at h
    generalize Text.trim line.toList = text at h hcore
    split at h
    · rename_i hcolon
      obtain ⟨name, rfl⟩ := List.getLast?_eq_some_iff.1 hcolon
      rw [List.dropLast_concat] at h
      obtain rfl := Except.ok.inj h
      exact .label hcore (Text.isCore_trim name)
    · rename_i hcolon
      have hspaced := Text.map_ofList_words_eq_iff.1 (rfl : (Text.words text).map String.ofList = _)
      generalize (Text.words text).map String.ofList = ws at h hspaced
      cases held with
      | some n => exact .node hcore hcolon hspaced (ofWords_eq_ok_iff.1 h)
      | none =>
        obtain rfl := ofWords_eq_none_iff.1 h
        obtain rfl := hcore.trimmed.eq_nil_of_spaced hspaced
        exact .blank hcore
  · rintro (hcore | ⟨hcore, hname⟩ | ⟨hcore, hcolon, hspaced, hn⟩)
    · simp [read, Text.trim_eq_iff.2 hcore, ofWords]
      rfl
    · simp [read, Text.trim_eq_iff.2 hcore, Text.trim_eq_iff.2 hname]
    · unfold read
      dsimp only
      rw [Text.trim_eq_iff.2 hcore, if_neg hcolon, Text.map_ofList_words_eq_iff.2 hspaced]
      exact ofWords_eq_ok_iff.2 hn

/-- A line is refused for the reason that the grammar gives. -/
theorem read_eq_error_iff : read line = .error e ↔ Malformed line e := by
  unfold read
  dsimp only
  constructor
  · intro h
    split at h
    · cases h
    · rename_i hcolon
      exact .intro (Text.isCore_trim _) hcolon (Text.map_ofList_words_eq_iff.1 rfl)
        (ofWords_eq_error_iff.1 h)
  · rintro ⟨hcore, hcolon, hspaced, he⟩
    rw [Text.trim_eq_iff.2 hcore, if_neg hcolon, Text.map_ofList_words_eq_iff.2 hspaced]
    exact ofWords_eq_error_iff.2 he

end Line

end TryResources
