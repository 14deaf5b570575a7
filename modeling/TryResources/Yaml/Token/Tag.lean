import TryResources.Yaml.Token

/-!
# Names, tags and directives

Reading the name of an anchor, a tag and a directive. Each reader takes the cells behind the
indicator and returns a token and the cells that are left.
-/

namespace TryResources.Yaml

/-- Reads the name of an anchor or a reference to one. -/
def readName (cells : List Cell) : Except Fault (String × List Cell) :=
  let (name, rest) := Cell.span isNameChar cells
  let ends : Bool := match rest with
    | [] => true
    | c :: _ => isSpace c.char || "?:,]\x7d%@\x60".contains c.char
  if !name.isEmpty && ends then .ok (String.ofList name, rest)
  else Cell.refuse .malformedName rest

/-! ## Tags -/

/-- A character of a tag; `verbatim` tags may also hold the separators of flow collections. -/
def isTagChar (verbatim : Bool) (c : Char) : Bool :=
  isNameChar c || ";/?:@&=+$.!~*'()".contains c || (verbatim && ",[]".contains c)

/-- The octet of an ASCII character. -/
def octet (c : Char) : UInt8 :=
  c.toNat.toUInt8

/-- Reads an octet: a percent sign and two hexadecimal digits. -/
def readOctet : List Cell → Except Fault (UInt8 × List Cell)
  | p :: a :: b :: rest =>
    match hexDigit? a.char, hexDigit? b.char with
    | some high, some low =>
      if p.char = '%' then .ok ((16 * high + low).toUInt8, rest)
      else Cell.refuse .malformedTag (p :: a :: b :: rest)
    | _, _ => Cell.refuse .malformedTag (p :: a :: b :: rest)
  | cells => Cell.refuse .malformedTag cells

/-- How many octets follow the first octet of a character. -/
def trailCount? (lead : UInt8) : Option Nat :=
  if lead < 0x80 then some 0
  else if 0xc0 ≤ lead ∧ lead < 0xe0 then some 1
  else if 0xe0 ≤ lead ∧ lead < 0xf0 then some 2
  else if 0xf0 ≤ lead ∧ lead < 0xf8 then some 3
  else none

/-- Reads the octets of a character behind the first. -/
def readTrailOctets : Nat → List Cell → Except Fault (TagText × List Cell)
  | 0, cells => .ok ([], cells)
  | n + 1, cells => do
    let (trail, rest) ← readOctet cells
    if 0x80 ≤ trail ∧ trail < 0xc0 then
      let (text, rest) ← readTrailOctets n rest
      return (trail :: text, rest)
    else Cell.refuse .malformedTag cells

/-- Reads the octets of a character. Only their number is checked: they may write a character in
more octets than it takes, or none at all. -/
def readOctets (cells : List Cell) : Except Fault (TagText × List Cell) := do
  let (lead, rest) ← readOctet cells
  match trailCount? lead with
  | none => Cell.refuse .malformedTag cells
  | some count =>
    let (text, rest) ← readTrailOctets count rest
    return (lead :: text, rest)

theorem length_of_readOctet {cells rest : List Cell} {o : UInt8}
    (h : readOctet cells = .ok (o, rest)) : rest.length < cells.length := by
  unfold readOctet at h
  split at h
  · split at h
    · split at h
      · cases h; simp; omega
      · cases h
    · cases h
  · cases h

theorem length_of_readTrailOctets {n : Nat} {cells rest : List Cell} {text : TagText}
    (h : readTrailOctets n cells = .ok (text, rest)) : rest.length ≤ cells.length := by
  induction n generalizing cells text rest with
  | zero => cases h; exact Nat.le_refl _
  | succ n ih =>
    unfold readTrailOctets at h
    cases ho : readOctet cells with
    | error e => simp [ho, bind, Except.bind] at h
    | ok pair =>
      obtain ⟨trail, left⟩ := pair
      simp only [ho, bind, Except.bind] at h
      split at h
      · cases ht : readTrailOctets n left with
        | error e => simp [ht] at h
        | ok pair =>
          obtain ⟨more, left'⟩ := pair
          simp only [ht, pure, Except.pure, Except.ok.injEq, Prod.mk.injEq] at h
          obtain ⟨_, rfl⟩ := h
          exact Nat.le_trans (ih ht) (Nat.le_of_lt (length_of_readOctet ho))
      · cases h

theorem length_of_readOctets {cells rest : List Cell} {text : TagText}
    (h : readOctets cells = .ok (text, rest)) : rest.length < cells.length := by
  unfold readOctets at h
  cases ho : readOctet cells with
  | error e => simp [ho, bind, Except.bind] at h
  | ok pair =>
    obtain ⟨lead, left⟩ := pair
    simp only [ho, bind, Except.bind] at h
    split at h
    · cases h
    · rename_i count _
      cases ht : readTrailOctets count left with
      | error e => simp [ht] at h
      | ok pair =>
        obtain ⟨more, left'⟩ := pair
        simp only [ht, pure, Except.pure, Except.ok.injEq, Prod.mk.injEq] at h
        obtain ⟨_, rfl⟩ := h
        exact Nat.lt_of_le_of_lt (length_of_readTrailOctets ht) (length_of_readOctet ho)

/-- Reads the octets of a tag as they are written. -/
def readTagOctets (verbatim : Bool) (cells : List Cell) : Except Fault (TagText × List Cell) :=
  match cells with
  | [] => .ok ([], [])
  | c :: rest =>
    if c.char = '%' then
      match h : readOctets (c :: rest) with
      | .error e => .error e
      | .ok (octets, left) => do
        have : left.length < (c :: rest).length := length_of_readOctets h
        let (text, left) ← readTagOctets verbatim left
        return (octets ++ text, left)
    else if isTagChar verbatim c.char then do
      let (text, left) ← readTagOctets verbatim rest
      return (octet c.char :: text, left)
    else .ok ([], c :: rest)
termination_by cells.length
decreasing_by all_goals simp only [List.length_cons] at *; omega

/-- Reads the octets that a tag stands for, those in front of the first zero; `present` tells
whether anything has been read of the tag before. Something has to be written. -/
def readTagText (verbatim present : Bool) (cells : List Cell) :
    Except Fault (TagText × List Cell) := do
  let (text, rest) ← readTagOctets verbatim cells
  if text.isEmpty ∧ !present then Cell.refuse .malformedTag rest
  return (text.takeWhile (· != 0), rest)

/-- Reads the handle of a tag: an exclamation mark, and perhaps a name and a second one. -/
def readHandle (cells : List Cell) : Except Fault (List Char × List Cell) :=
  match cells with
  | ⟨'!', _⟩ :: rest =>
    let (name, rest) := Cell.span isNameChar rest
    match rest with
    | ⟨'!', _⟩ :: rest => .ok ('!' :: name ++ ['!'], rest)
    | rest => .ok ('!' :: name, rest)
  | cells => Cell.refuse .malformedTag cells

/-- The handle has two exclamation marks. -/
def isClosedHandle (handle : List Char) : Bool :=
  2 ≤ handle.length && handle.getLast? == some '!'

/-- Reads a tag: verbatim between angle brackets, or a handle and a suffix. A handle that is not
closed belongs to the suffix; an exclamation mark on its own is a tag by itself. -/
def readTag (flow : Bool) (cells : List Cell) : Except Fault (Token × List Cell) := do
  let (token, rest) ← match cells with
    | _ :: ⟨'<', _⟩ :: rest => do
      let (text, rest) ← readTagText true false rest
      match rest with
      | ⟨'>', _⟩ :: rest => pure (Token.tag "" text, rest)
      | rest => Cell.refuse .malformedTag rest
    | cells => do
      let (handle, rest) ← readHandle cells
      if isClosedHandle handle then
        let (suffix, rest) ← readTagText false false rest
        pure (Token.tag (String.ofList handle) suffix, rest)
      else
        let (suffix, rest) ← readTagText false true rest
        let text := (handle.drop 1).map octet ++ suffix
        if text.isEmpty then pure (Token.tag "" (.ofString "!"), rest)
        else pure (Token.tag "!" text, rest)
  let separated : Bool := match rest with
    | [] => true
    | c :: _ => isSpace c.char || (flow && c.char == ',')
  if separated then return (token, rest) else Cell.refuse .malformedTag rest

/-! ## Directives -/

/-- Reads a part of a version number, which has at most nine digits. -/
def readVersionNumber (cells : List Cell) : Except Fault (Nat × List Cell) :=
  let (digits, rest) := Cell.span Char.isDigit cells
  if digits.isEmpty ∨ 9 < digits.length then Cell.refuse .malformedDirective cells
  else .ok (digits.foldl (fun n d => 10 * n + (d.toNat - '0'.toNat)) 0, rest)

/-- Reads the version that a document is written for. -/
def readVersion (cells : List Cell) : Except Fault (Token × List Cell) := do
  let (major, rest) ← readVersionNumber (Cell.dropBlanks cells)
  match rest with
  | ⟨'.', _⟩ :: rest => do
    let (minor, rest) ← readVersionNumber rest
    return (.version major minor, rest)
  | rest => Cell.refuse .malformedDirective rest

/-- Reads a handle and what it stands for. -/
def readTagDirective (cells : List Cell) : Except Fault (Token × List Cell) := do
  let (handle, rest) ← readHandle (Cell.dropBlanks cells)
  if !isClosedHandle handle ∧ handle ≠ ['!'] then Cell.refuse .malformedDirective rest
  match rest with
  | c :: _ =>
    if !isBlank c.char then Cell.refuse .malformedDirective rest
    let (text, left) ← readTagText true false (Cell.dropBlanks rest)
    if !Cell.endsWord left then Cell.refuse .malformedDirective left
    return (.tagDirective (String.ofList handle) text, left)
  | [] => Cell.refuse .malformedDirective []

/-- Reads a directive and the rest of its line. -/
def readDirective (cells : List Cell) : Except Fault (Token × List Cell) := do
  let (name, rest) := Cell.span isNameChar cells
  if !Cell.endsWord rest then Cell.refuse .malformedDirective rest
  let (token, rest) ← match String.ofList name with
    | "YAML" => readVersion rest
    | "TAG" => readTagDirective rest
    | _ => Cell.refuse .unknownDirective cells
  return (token, ← Cell.dropLine .malformedDirective rest)

end TryResources.Yaml
