import Mathlib.Data.List.Forall2
import TryResources.Proofs.Grammar

/-!
# Lines that are read back

A line that holds a node may be padded, and may write its number in many ways. The node itself is
written in one way; read again, whatever is put in front of it, it is the same node.

Labels are told from instructions by the last character alone. That works out since an instruction
is written in the words that it was read from, numbers apart, and none of its lines ends in a colon.

* `Node.words`, `toList_render`: a node is written as a row of words.
* `Respells`: these are the words that it was read from, or numbers.
* `spelled_words_operand`, `spelled_words`: operands and nodes are spelled in their own words.
* `read_render`: what is written for a node is read back.
-/

namespace TryResources

/-! ## The words of a node -/

def Operand.words : Operand String → List String
  | none => []
  | slot s => [toString s]
  | target l => [l]
  | member m => [m.owner ++ "." ++ m.name, m.desc]
  | type t => [t]

/-- The words that a node is written in; a label is one, whatever its name. -/
def Node.words : Node String → List String
  | label l => [l ++ ":"]
  | line n => ["line", toString n]
  | frame => ["frame"]
  | insn i => i.opcode.mnemonic :: i.operand.words

namespace Line

/-- A node is written as the row of its words. -/
theorem toList_render (n : Node String) :
    (n.render id).toList = Text.unwords (n.words.map String.toList) := by
  cases n with
  | insn i =>
    obtain ⟨op, o⟩ := i
    cases o <;> simp [Node.render, Instruction.render, Node.words, Operand.words, Member.render]
  | _ => simp [Node.render, Node.words]

/-! ## Other spellings -/

/-- A word is written as it was, or it is a number and written in decimal. -/
def Respells (w v : String) : Prop :=
  v = w ∨ ∃ n : Nat, v = toString n

variable {w v line : String} {words : List String} {n : Node String}

theorem Respells.refl (w : String) : Respells w w :=
  .inl rfl

theorem Respells.isWord (h : Respells w v) (hw : Text.IsWord w.toList) : Text.IsWord v.toList := by
  rcases h with rfl | ⟨k, rfl⟩
  · exact hw
  · exact Text.isWord_toString k

theorem isWord_of_respells {ws vs : List String} (h : List.Forall₂ Respells ws vs)
    (hws : ∀ w ∈ ws, Text.IsWord w.toList) : ∀ v ∈ vs, Text.IsWord v.toList := by
  induction h with
  | nil => simp
  | cons hwv _ ih =>
    simp only [List.forall_mem_cons] at hws ⊢
    exact ⟨hwv.isWord hws.1, ih hws.2⟩

/-- A number does not end in a colon. -/
theorem Respells.getLast?_ne (h : Respells w v) (hw : w.toList.getLast? ≠ some ':') :
    v.toList.getLast? ≠ some ':' := by
  rcases h with rfl | ⟨k, rfl⟩
  · exact hw
  · intro hcolon
    have hdigit := Text.isDigit_of_mem_toString (List.mem_of_getLast? hcolon)
    exact absurd hdigit (by decide)

/-- Nor does a row of other spellings, if the words did not. -/
theorem lastChar?_ne_of_respells {ws vs : List String} (h : List.Forall₂ Respells ws vs)
    (hws : Text.lastChar? (ws.map String.toList) ≠ some ':') :
    Text.lastChar? (vs.map String.toList) ≠ some ':' := by
  induction h with
  | nil => exact hws
  | @cons w v ws vs hwv hrest ih =>
    cases hrest with
    | nil => exact hwv.getLast?_ne hws
    | cons =>
      simp only [Text.lastChar?, List.map_cons, List.getLast?_cons_cons] at ih hws ⊢
      exact ih hws

/-! ## Operands and nodes -/

theorem isNumeral_toString {bound k : Nat} (h : k ≤ bound) :
    Text.IsNumeral bound (toString k).toList k :=
  Text.numeral?_eq_some_iff.1 (Text.numeral?_toString h)

/-- An operand is written in other spellings of the words that it was read from. -/
theorem spelled_words_operand {kind : OperandKind} {o : Operand String}
    (h : Operand.Spelled kind o words) :
    List.Forall₂ Respells words o.words ∧ Operand.Spelled kind o o.words := by
  cases h with
  | none => exact ⟨.nil, .none⟩
  | @slot w s hw => exact ⟨.cons (.inr ⟨s, rfl⟩) .nil, .slot (isNumeral_toString hw.le_bound)⟩
  | target name => exact ⟨.cons (.refl _) .nil, .target name⟩
  | type name => exact ⟨.cons (.refl _) .nil, .type name⟩
  | member desc hname => exact ⟨.cons (.refl _) (.cons (.refl _) .nil), .member desc hname⟩

/-- So is a node. -/
theorem spelled_words (h : n.Spelled words) :
    List.Forall₂ Respells words n.words ∧ n.Spelled n.words := by
  cases h with
  | @line w k hw =>
    exact ⟨.cons (.refl _) (.cons (.inr ⟨k, rfl⟩) .nil), .line (isNumeral_toString hw.le_bound)⟩
  | frame => exact ⟨.cons (.refl _) .nil, .frame⟩
  | insn op ho =>
    obtain ⟨hrespells, hspelled⟩ := spelled_words_operand ho
    exact ⟨.cons (.refl _) hrespells, .insn op hspelled⟩

/-- The words of a node that was read from words are words. -/
theorem isWord_words {text : List Char} (hspaced : Text.Spaced (words.map String.toList) text)
    (h : n.Spelled words) : ∀ w ∈ n.words, Text.IsWord w.toList := by
  obtain ⟨hrespells, -⟩ := spelled_words h
  exact isWord_of_respells hrespells fun w hw => hspaced.isWord _ (List.mem_map_of_mem hw)

/-! ## Lines -/

theorem trimmed_append_colon {cs : List Char} (h : Text.Trimmed cs) :
    Text.Trimmed (cs ++ [':']) := by
  constructor
  · cases cs with
    | nil => simp; decide
    | cons c cs => exact h.head
  · simp
    decide

section

variable {pad : String}

theorem trim_append (hpad : ∀ c ∈ pad.toList, Text.isBlank c = true) {cs : List Char}
    (hcs : Text.Trimmed cs) : Text.trim (pad.toList ++ cs) = cs := by
  rw [Text.trim_append_of_isBlank hpad, Text.trim_eq_self hcs]

/-- A label is read back, if there is no blank at the ends of its name. -/
theorem read_label (hpad : ∀ c ∈ pad.toList, Text.isBlank c = true) {name : List Char}
    (hname : Text.Trimmed name) :
    read (pad ++ (Node.label (String.ofList name)).render id) =
      .ok (some (.label (String.ofList name))) := by
  have hrender : (pad ++ (Node.label (String.ofList name)).render id).toList =
      pad.toList ++ (name ++ [':']) := by
    simp [Node.render]
  unfold read
  rw [hrender, trim_append hpad (trimmed_append_colon hname)]
  simp [Text.trim_eq_self hname]

/-- So is what is written in words, if it does not look like a label. -/
theorem read_of_words (hpad : ∀ c ∈ pad.toList, Text.isBlank c = true)
    (hwords : ∀ v ∈ n.words.map String.toList, Text.IsWord v)
    (hend : Text.lastChar? (n.words.map String.toList) ≠ some ':')
    (h : n.Spelled n.words) : read (pad ++ n.render id) = .ok (some n) := by
  have htext := Text.trimmed_unwords hwords
  have hcore : Text.IsCore (Text.unwords (n.words.map String.toList))
      (pad ++ n.render id).toList := by
    rw [← Text.trim_eq_iff, String.toList_append, toList_render, trim_append hpad htext]
  have hspaced := Text.words_eq_iff.1 (Text.words_unwords hwords)
  rw [← Text.getLast?_unwords hwords] at hend
  exact read_eq_ok_iff.2 (.node hcore hend hspaced h)

/-- **Nodes are read back.** What is written for a node that some line holds is a line that holds
the same node, whatever blanks are put in front of it. -/
theorem read_render (h : read line = .ok (some n))
    (hpad : ∀ c ∈ pad.toList, Text.isBlank c = true) :
    read (pad ++ n.render id) = .ok (some n) := by
  cases read_eq_ok_iff.1 h with
  | label _ hname => exact read_label hpad hname.trimmed
  | @node text ws _ hcore hcolon hspaced hn =>
    obtain ⟨hrespells, hback⟩ := spelled_words hn
    refine read_of_words hpad ?_ ?_ hback
    · intro v hv
      obtain ⟨u, hu, rfl⟩ := List.mem_map.1 hv
      exact isWord_words hspaced hn u hu
    · -- the line ends like its last word, and not in a colon
      apply lastChar?_ne_of_respells hrespells
      rw [← Text.words_eq_iff.2 hspaced, Text.lastChar?_words hcore.trimmed]
      exact hcolon

end

end Line

end TryResources
