import TryResources.Yaml.Document

/-!
# Decoding documents

Reading values out of a document: texts, booleans, lists and structures. A structure is a mapping
whose keys name its fields; fields that are not known are ignored, whatever they hold, and a known
field may occur once. Where nothing is written, a list or a structure is empty.

References are followed wherever a value is read, but in a document of `n` parts only `100 n`
times, so that a short document cannot stand for a long one.
-/

namespace TryResources.Yaml

/-- A computation on the nodes of a document, which keeps count of the references followed. -/
abbrev Decoder := ReaderT Node (StateT Nat (Except Fault))

namespace Decoder

/-- Refuses the document. -/
def refuse {α : Type} (problem : Problem) : Decoder α :=
  throw ⟨problem, none⟩

/-- Follows a reference; any other node stands for itself. -/
def follow : Node → Decoder Node
  | .reference anchor => do
    let root ← read
    let count ← modifyGet fun n => (n + 1, n + 1)
    if 100 * root.length < count then refuse .tooManyAliases
    match root.anchored? anchor with
    | some n => return n
    | none => refuse .unknownAnchor
  | n => return n

/-- Reads a text: that of any scalar, as it is written. -/
def text (n : Node) : Decoder String := do
  match ← follow n with
  | .scalar _ _ _ text => return text
  | _ => refuse .textExpected

/-- The tag of a type that every document knows. -/
def coreTag (type : String) : TagText :=
  .ofString ("tag:yaml.org,2002:" ++ type)

/-- Reads a boolean: one of six words, plain or in a block with the tag of booleans. -/
def truth (n : Node) : Decoder Bool := do
  match ← follow n with
  | .scalar _ tag style text =>
    if style = .plain ∨ (style = .literal ∧ tag = some (coreTag "bool")) then
      if text ∈ ["true", "True", "TRUE"] then return true
      if text ∈ ["false", "False", "FALSE"] then return false
    refuse .truthExpected
  | _ => refuse .truthExpected

/-- The words for nothing. -/
def isNull (text : String) : Bool :=
  ["null", "Null", "NULL", "~"].contains text

/-- Reads a text that may be absent: a plain scalar that is empty or a word for nothing is. A tag
other than that of null makes it a text nevertheless. -/
def optionalText (n : Node) : Decoder (Option String) := do
  match ← follow n with
  | .scalar _ none .plain text => return if text.isEmpty || isNull text then none else some text
  | .scalar _ (some tag) .plain text =>
    if tag != coreTag "null" then return some text
    if isNull text then return none
    refuse .nullExpected
  | .scalar _ _ _ text => return some text
  | _ => refuse .textExpected

/-- Reads a list. -/
def list {α : Type} (item : Node → Decoder α) (n : Node) : Decoder (List α) := do
  match ← follow n with
  | .sequence _ items => items.mapM item
  | .scalar _ _ .plain "" => return []
  | _ => refuse .sequenceExpected

/-! ## Structures -/

/-- The known fields of a structure with what they hold. -/
abbrev Fields := List (String × Node)

/-- Collects the known fields among entries of a mapping. -/
def collect (known : List String) : Fields → List (Node × Node) → Decoder Fields
  | fields, [] => return fields
  | fields, (key, value) :: entries => do
    let name ← text key
    if !known.contains name then collect known fields entries
    else if (fields.lookup name).isSome then refuse (.repeatedField name)
    else collect known ((name, value) :: fields) entries

/-- Reads the known fields of a structure. -/
def fields (known : List String) (n : Node) : Decoder Fields := do
  match ← follow n with
  | .mapping _ entries => collect known [] entries
  | .scalar _ _ .plain "" => return []
  | _ => refuse .mappingExpected

/-- Reads a field that has to be there. -/
def required {α : Type} (fields : Fields) (name : String) (value : Node → Decoder α) :
    Decoder α :=
  match fields.lookup name with
  | some n => value n
  | none => refuse (.missingField name)

/-- Reads a field that may be left out. -/
def optional {α : Type} (fields : Fields) (name : String) (absent : α)
    (value : Node → Decoder α) : Decoder α :=
  match fields.lookup name with
  | some n => value n
  | none => return absent

/-- Decodes the document that a text holds. A text without one counts as an empty structure. -/
def ofText {α : Type} (decoder : Node → Decoder α) (text : String) : Except Fault α := do
  let root := (← Node.ofText? text).getD .empty
  let (a, _) ← (decoder root).run root |>.run 0
  return a

end Decoder

end TryResources.Yaml
