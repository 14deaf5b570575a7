import Mathlib.Data.List.Basic
import TryResources.Matching.Step

/-!
# Names as text

Templates may call things by texts instead: a resource is `r`, or `r` with its number, and what
belongs to it has its name with an ending. Numbers and endings go together in many ways, but no two
names of one kind are spelled alike, so tables that are keyed by such texts do as well: steps that use
them are accepted and refused at the same nodes, and bind the same. Templates know what names stand
for by their steps only.

* `SlotName.spelling_injective`, `LabelName.spelling_injective`, `Resource.spelling_injective`.
* `Table.unify_rename`: an injective renaming of the names of a table changes nothing else.
* `Step.acceptsText`, `Step.readText`, `Step.readAllText`: steps with tables that are keyed by texts.
* `Step.readAllText_spelled`: they come to the same.
-/

namespace TryResources.Matching

/-! ## Spellings -/

def Resource.spelling : Resource → String
  | only => "r"
  | nth i => "r" ++ i.repr

/-- A merge is called by the resource that is closed next. -/
def Merge.spelling : Merge → String
  | before i => "r" ++ i.repr
  | last => "last"

def SlotName.spelling : SlotName → String
  | primary => "primaryExc"
  | caught => "t1"
  | rethrown => "t2"
  | resource r => r.spelling
  | suppressed .normal => "nt"
  | suppressed .exceptional => "et"
  | merged site => site.spelling ++ ".t"

def LabelName.site : LabelName → Merge
  | skipped i => .before i
  | closed i => .before i
  | present site => site
  | merged site => site

def LabelName.ending : LabelName → String
  | skipped _ => ".end"
  | closed _ => ""
  | present _ => ".suppressStart"
  | merged _ => ".suppressEnd"

def LabelName.spelling (n : LabelName) : String :=
  n.site.spelling ++ n.ending

/-! ## No two names are spelled alike -/

/-- A number ends where its digits end. -/
theorem toDigits_append_inj {m n : Nat} {xs ys : List Char}
    (hx : ∀ c ∈ xs.head?, c.isDigit = false) (hy : ∀ c ∈ ys.head?, c.isDigit = false)
    (h : Nat.toDigits 10 m ++ xs = Nat.toDigits 10 n ++ ys) : m = n ∧ xs = ys := by
  have stop {zs : List Char} (hz : ∀ c ∈ zs.head?, c.isDigit = false) :
      zs.takeWhile Char.isDigit = [] := by
    cases zs with
    | nil => rfl
    | cons z zs => exact List.takeWhile_cons_of_neg (by simp [hz z rfl])
  have digits (k : Nat) : ∀ c ∈ Nat.toDigits 10 k, c.isDigit = true := by
    intro c hc
    exact Nat.isDigit_of_mem_toDigits (by decide) (by decide) hc
  have hdigits : Nat.toDigits 10 m = Nat.toDigits 10 n := by
    have htake := congrArg (List.takeWhile Char.isDigit) h
    rwa [List.takeWhile_append_of_pos (digits m), List.takeWhile_append_of_pos (digits n), stop hx,
      stop hy, List.append_nil, List.append_nil] at htake
  refine ⟨?_, List.append_cancel_left (hdigits ▸ h)⟩
  calc
    m = Nat.ofDigitChars 10 (Nat.toDigits 10 m) 0 := Nat.ofDigitChars_ten_toDigits.symm
    _ = Nat.ofDigitChars 10 (Nat.toDigits 10 n) 0 := by rw [hdigits]
    _ = n := Nat.ofDigitChars_ten_toDigits

theorem toDigits_inj {m n : Nat} (h : Nat.toDigits 10 m = Nat.toDigits 10 n) : m = n := by
  have h' : Nat.toDigits 10 m ++ [] = Nat.toDigits 10 n ++ [] := by rw [h]
  exact (toDigits_append_inj (by simp) (by simp) h').1

theorem toDigits_append_ne {m n : Nat} {c : Char} {cs : List Char} (hc : c.isDigit = false) :
    Nat.toDigits 10 m ++ c :: cs ≠ Nat.toDigits 10 n := by
  intro h
  rw [← List.append_nil (Nat.toDigits 10 n)] at h
  have := (toDigits_append_inj (by simpa using hc) (by simp) h).2
  cases this

theorem Resource.spelling_injective : Function.Injective Resource.spelling := by
  intro a b h
  have h := congrArg String.toList h
  rcases a with _ | i <;> rcases b with _ | j <;> simp [spelling] at h ⊢
  exact toDigits_inj h

theorem SlotName.spelling_injective : Function.Injective SlotName.spelling := by
  intro a b h
  have h := congrArg String.toList h
  -- what starts with different letters differs; what is left starts with `r` and a number
  rcases a with _ | _ | _ | (_ | i) | (_ | _) | (i | _) <;>
    rcases b with _ | _ | _ | (_ | j) | (_ | _) | (j | _) <;>
    simp [spelling, Resource.spelling, Merge.spelling] at h ⊢
  case resource.nth.resource.nth => exact toDigits_inj h
  case resource.nth.merged.before => exact toDigits_append_ne (by decide) h.symm
  case merged.before.resource.nth => exact toDigits_append_ne (by decide) h
  case merged.before.merged.before => exact toDigits_inj h

/-- A text that is made of a site and an ending is made of one site and one ending only. -/
theorem Merge.spelling_append_inj {a b : Merge} {x y : String}
    (hx : ∀ c ∈ x.toList.head?, c.isDigit = false) (hy : ∀ c ∈ y.toList.head?, c.isDigit = false)
    (h : a.spelling ++ x = b.spelling ++ y) : a = b ∧ x = y := by
  have h := congrArg String.toList h
  cases a with
  | before i =>
    cases b with
    | before j =>
      simp only [spelling, String.toList_append, Nat.toList_repr, List.append_assoc,
        List.append_cancel_left_eq] at h
      obtain ⟨rfl, hxy⟩ := toDigits_append_inj hx hy h
      exact ⟨rfl, String.toList_inj.1 hxy⟩
    | last => simp [spelling] at h
  | last =>
    cases b with
    | before j => simp [spelling] at h
    | last =>
      simp only [spelling, String.toList_append, List.append_cancel_left_eq] at h
      exact ⟨rfl, String.toList_inj.1 h⟩

theorem LabelName.spelling_injective : Function.Injective LabelName.spelling := by
  have hending (n : LabelName) : ∀ c ∈ n.ending.toList.head?, c.isDigit = false := by
    cases n <;> simp [ending]
  intro a b h
  obtain ⟨hsite, hend⟩ := Merge.spelling_append_inj (hending a) (hending b) h
  cases a <;> cases b <;> simp [site, ending] at hsite hend ⊢ <;> exact hsite

/-! ## Tables with other names -/

namespace Table

variable {κ κ' ν : Type} [DecidableEq κ] [DecidableEq κ'] {f : κ → κ'}

/-- The table with its names written in another way. -/
def rename (f : κ → κ') (t : Table κ ν) : Table κ' ν :=
  ⟨t.entries.map fun (name, value) => (f name, value)⟩

theorem get?_rename (hf : Function.Injective f) (t : Table κ ν) (name : κ) :
    (t.rename f).get? (f name) = t.get? name := by
  obtain ⟨entries⟩ := t
  induction entries with
  | nil => rfl
  | cons entry entries ih =>
    obtain ⟨other, value⟩ := entry
    simp only [rename, get?, List.map_cons, List.lookup_cons] at ih ⊢
    by_cases hname : name = other
    · simp [hname]
    · rw [beq_false_of_ne hname, beq_false_of_ne (hf.ne hname)]
      exact ih

theorem unify_rename [DecidableEq ν] (hf : Function.Injective f) (t : Table κ ν) (name : κ)
    (found : ν) :
    (t.rename f).unify (f name) found = (t.unify name found).map (rename f) := by
  unfold unify
  rw [get?_rename hf]
  cases t.get? name with
  | none => rfl
  | some known =>
    by_cases hknown : known = found
    · simp [hknown]
    · simp [hknown]

end Table

/-! ## Steps with texts -/

/-- What texts stand for. -/
structure TextBindings where
  slots : Table String Slot := {}
  labels : Table String LabelId := {}
  owners : Table String String := {}

/-- Where the reading of a template stands, and what its texts stand for. -/
structure TextReading where
  cursor : Option Nat := none
  bindings : TextBindings := {}

def Bindings.spelled (b : Bindings) : TextBindings where
  slots := b.slots.rename SlotName.spelling
  labels := b.labels.rename LabelName.spelling
  owners := b.owners.rename Resource.spelling

def Reading.spelled (r : Reading) : TextReading :=
  ⟨r.cursor, r.bindings.spelled⟩

/-- What reading comes to, with its names spelled. -/
def spellResult : Except Reading Reading → Except TextReading TextReading
  | .ok r => .ok r.spelled
  | .error r => .error r.spelled

namespace Step

/-- Checks an instruction. A step that names nothing leaves the tables alone. -/
def acceptsInsnText (s : Step) (i : Instruction LabelId) (b : TextBindings) :
    Option TextBindings :=
  match s with
  | slot o name =>
    if i.opcode = o then do
      let found ← i.operand.slot?
      let slots ← b.slots.unify name.spelling found
      return { b with slots }
    else none
  | jump o name =>
    if i.opcode = o then do
      let found ← i.operand.target?
      let labels ← b.labels.unify name.spelling found
      return { b with labels }
    else none
  | close r =>
    if i.opcode = .invokevirtual ∨ i.opcode = .invokeinterface then do
      let m ← i.operand.member?
      if m.isClose then
        let owners ← b.owners.unify r.spelling m.owner
        return { b with owners }
      else none
    else none
  | s => (s.acceptsInsn i {}).map fun _ => b

/-- Checks a node. -/
def acceptsText (s : Step) (n : Node LabelId) (b : TextBindings) : Option TextBindings :=
  match s, n with
  | label name, .label l => if b.labels.get? name.spelling = some l then some b else none
  | s, .insn i => s.acceptsInsnText i b
  | _, _ => none

/-- Carries out a step. -/
def readText (code : Code) (s : Step) (r : TextReading) : Except TextReading TextReading :=
  match r.cursor.bind (s.target? code) with
  | none => .error { r with cursor := none }
  | some p =>
    match (code.get? p).bind fun n => s.acceptsText n r.bindings with
    | none => .error { r with cursor := some p }
    | some bindings => .ok ⟨some p, bindings⟩

/-- Carries out steps in order, up to the first that fails. -/
def readAllText (code : Code) (steps : List Step) (r : TextReading) :
    Except TextReading TextReading :=
  steps.foldlM (fun r s => s.readText code r) r

theorem acceptsInsnText_spelled (s : Step) (i : Instruction LabelId) (b : Bindings) :
    s.acceptsInsnText i b.spelled = (s.acceptsInsn i b).map Bindings.spelled := by
  cases s with
  | slot o name =>
    simp only [acceptsInsnText, acceptsInsn]
    split
    · cases i.operand.slot? with
      | none => rfl
      | some found =>
        simp only [Option.bind_eq_bind, Option.bind_some]
        rw [Bindings.spelled, Table.unify_rename SlotName.spelling_injective]
        cases b.slots.unify name found <;> rfl
    · rfl
  | jump o name =>
    simp only [acceptsInsnText, acceptsInsn]
    split
    · cases i.operand.target? with
      | none => rfl
      | some found =>
        simp only [Option.bind_eq_bind, Option.bind_some]
        rw [Bindings.spelled, Table.unify_rename LabelName.spelling_injective]
        cases b.labels.unify name found <;> rfl
    · rfl
  | close r =>
    simp only [acceptsInsnText, acceptsInsn]
    split
    · cases i.operand.member? with
      | none => rfl
      | some m =>
        simp only [Option.bind_eq_bind, Option.bind_some]
        split
        · rw [Bindings.spelled, Table.unify_rename Resource.spelling_injective]
          cases b.owners.unify r m.owner <;> rfl
        · rfl
    · rfl
  | op o =>
    simp only [acceptsInsnText, acceptsInsn]
    split <;> rfl
  | label _ => rfl
  | _ =>
    simp only [acceptsInsnText, acceptsInsn]
    split
    · cases i.operand.member? with
      | none => rfl
      | some m =>
        simp only [Option.bind_eq_bind, Option.bind_some]
        split <;> rfl
    · rfl

theorem acceptsText_spelled (s : Step) (n : Node LabelId) (b : Bindings) :
    s.acceptsText n b.spelled = (s.accepts n b).map Bindings.spelled := by
  cases n with
  | insn i =>
    have hinsn := s.acceptsInsnText_spelled i b
    cases s <;> exact hinsn
  | label l =>
    cases s with
    | label name =>
      simp only [acceptsText, accepts, Bindings.spelled,
        Table.get?_rename LabelName.spelling_injective]
      split <;> rfl
    | _ => rfl
  | _ => cases s <;> rfl

theorem readText_spelled (code : Code) (s : Step) (r : Reading) :
    s.readText code r.spelled = spellResult (s.read code r) := by
  obtain ⟨cursor, b⟩ := r
  simp only [readText, read, Reading.spelled]
  cases cursor.bind (s.target? code) with
  | none => rfl
  | some p =>
    cases hn : code.get? p with
    | none => simp only [hn]; rfl
    | some n =>
      simp only [hn, Option.bind_some, acceptsText_spelled]
      cases s.accepts n b <;> rfl

/-- **Texts do as well as names.** Whatever steps are carried out from whatever reading, they come to
the same position with tables that are keyed by texts, whether they succeed or fail, and to the same
tables with their names spelled. -/
theorem readAllText_spelled (code : Code) (steps : List Step) (r : Reading) :
    readAllText code steps r.spelled = spellResult (readAll code steps r) := by
  induction steps generalizing r with
  | nil => rfl
  | cons s steps ih =>
    show s.readText code r.spelled >>= readAllText code steps = _
    rw [readText_spelled, readAll_cons]
    cases s.read code r with
    | error e => rfl
    | ok r' => exact ih r'

end Step

end TryResources.Matching
