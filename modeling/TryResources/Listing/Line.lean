import TryResources.Method.Builder
import TryResources.Text.Blank
import TryResources.Text.Numeral

/-!
# Lines of a listing

A line of code, cut at its ends, is blank, or ends in a colon and defines the label in front of
it, or is a row of words: `line` with a number, `frame`, or a mnemonic with the operand of its
opcode. `Line.read` tells which, with labels by name.

A line can be wrong in several ways at once. An unknown word comes first, then a missing operand,
then a bad one, then a word too many.

* `splitAtLast_eq_some_iff`: owner and name are told apart by the last dot.
-/

namespace TryResources.Line

/-- The largest slot, which fits 16 bits. -/
def maxSlot : Nat := 65535

/-- The largest line number, which fits 32 bits. -/
def maxLine : Nat := 4294967295

/-- Takes the next word as an operand of `word`. -/
def required (word : String) : List String → Except MethodError (String × List String)
  | [] => .error (.missingOperand word)
  | operand :: rest => .ok (operand, rest)

/-- Takes the next word as a number up to `bound`. -/
def number (bound : Nat) (word : String) (words : List String) :
    Except MethodError (Nat × List String) := do
  let (operand, rest) ← required word words
  match Text.numeral? bound operand.toList with
  | some n => .ok (n, rest)
  | none => .error (.invalidOperand word operand)

/-- What stands before and behind the last `c`. -/
def splitAtLast (c : Char) : List Char → Option (List Char × List Char)
  | [] => none
  | d :: ds =>
    match splitAtLast c ds with
    | some (before, behind) => some (d :: before, behind)
    | none => if d = c then some ([], ds) else none

theorem splitAtLast_eq_none_iff {c : Char} {cs : List Char} :
    splitAtLast c cs = none ↔ c ∉ cs := by
  induction cs with
  | nil => simp [splitAtLast]
  | cons d ds ih =>
    unfold splitAtLast
    cases h : splitAtLast c ds with
    | some pair =>
      have : c ∈ ds := Decidable.byContradiction fun hn => by simp [ih.2 hn] at h
      simp [this]
    | none =>
      have : c ∉ ds := ih.1 h
      by_cases hd : d = c
      · simp [hd]
      · simp [hd, this, Ne.symm hd]

/-- The last `c` is the one behind which there is no other. -/
theorem splitAtLast_eq_some_iff {c : Char} {cs before behind : List Char} :
    splitAtLast c cs = some (before, behind) ↔ cs = before ++ c :: behind ∧ c ∉ behind := by
  induction cs generalizing before with
  | nil => simp [splitAtLast]
  | cons d ds ih =>
    unfold splitAtLast
    cases h : splitAtLast c ds with
    | some pair =>
      obtain ⟨before', behind'⟩ := pair
      simp only [Option.some.injEq, Prod.mk.injEq]
      constructor
      · rintro ⟨rfl, rfl⟩
        obtain ⟨rfl, hnot⟩ := ih.1 h
        exact ⟨rfl, hnot⟩
      · rintro ⟨heq, hnot⟩
        cases before with
        | nil =>
          obtain ⟨rfl, rfl⟩ := List.cons.inj heq
          simp [splitAtLast_eq_none_iff.2 hnot] at h
        | cons e es =>
          obtain ⟨rfl, rfl⟩ := List.cons.inj heq
          have := h.symm.trans (ih.2 ⟨rfl, hnot⟩)
          simp only [Option.some.injEq, Prod.mk.injEq] at this
          exact ⟨by rw [this.1], this.2⟩
    | none =>
      have hds : c ∉ ds := splitAtLast_eq_none_iff.1 h
      by_cases hd : d = c
      · subst hd
        simp only [if_true, Option.some.injEq, Prod.mk.injEq]
        constructor
        · rintro ⟨rfl, rfl⟩
          exact ⟨rfl, hds⟩
        · rintro ⟨heq, hnot⟩
          cases before with
          | nil => exact ⟨rfl, (List.cons.inj heq).2⟩
          | cons e es =>
            obtain ⟨_, rfl⟩ := List.cons.inj heq
            simp at hds
      · simp only [hd, if_false, reduceCtorEq, false_iff, not_and]
        intro heq
        cases before with
        | nil => exact absurd (List.cons.inj heq).1 hd
        | cons e es =>
          obtain ⟨_, rfl⟩ := List.cons.inj heq
          simp at hds

/-- Splits a method reference at its last dot, into owner and name. -/
def member (reference desc : String) : Except MethodError Member :=
  match splitAtLast '.' reference.toList with
  | some (owner, name) => .ok ⟨String.ofList owner, String.ofList name, desc⟩
  | none => .error (.invalidMember reference)

/-- Takes the operand of an opcode from the words behind its mnemonic. -/
def operand (op : Opcode) (words : List String) :
    Except MethodError (Operand String × List String) :=
  match op.operandKind with
  | .none => .ok (.none, words)
  | .slot => do
    let (s, rest) ← number maxSlot op.mnemonic words
    return (.slot s, rest)
  | .target => do
    let (name, rest) ← required op.mnemonic words
    return (.target name, rest)
  | .type => do
    let (name, rest) ← required op.mnemonic words
    return (.type name, rest)
  | .member => do
    let (reference, rest) ← required op.mnemonic words
    let (desc, rest) ← required op.mnemonic rest
    let m ← member reference desc
    return (.member m, rest)

/-- Takes a node that is no label from a row of words, of which `word` is the first. -/
def node (word : String) (words : List String) :
    Except MethodError (Node String × List String) :=
  if word = "line" then do
    let (n, rest) ← number maxLine word words
    return (.line n, rest)
  else if word = "frame" then .ok (.frame, words)
  else match Opcode.ofMnemonic? word with
    | none => .error (.unknownOpcode word)
    | some op => do
      let (o, rest) ← operand op words
      return (.insn ⟨op, o⟩, rest)

/-- Reads a row of words; all of them have to be used. -/
def ofWords : List String → Except MethodError (Option (Node String))
  | [] => .ok none
  | word :: words => do
    let (n, rest) ← node word words
    match rest with
    | [] => return some n
    | extra :: _ => .error (.invalidOperand word extra)

/-- Reads one line of code; a blank line holds no node. -/
def read (line : String) : Except MethodError (Option (Node String)) :=
  let text := Text.trim line.toList
  if text.getLast? = some ':' then
    .ok (some (.label (String.ofList (Text.trim text.dropLast))))
  else ofWords ((Text.words text).map String.ofList)

end TryResources.Line
