import TryResources.Yaml.Cell

/-!
# Tokens

The words of a document, as far as its structure depends on them: indicators, names, directives
and scalars.
-/

namespace TryResources.Yaml

/-- How a scalar is written. -/
inductive Style
  | plain | singleQuoted | doubleQuoted | literal | folded
  deriving Repr, DecidableEq

/-- The octets of a tag or of a part of it. They are ASCII characters, unless octets are written
in hexadecimal; such octets need not make up characters, and none of them is zero. -/
abbrev TagText := List UInt8

/-- The octets of a text. -/
def TagText.ofString (s : String) : TagText :=
  s.toUTF8.toList

/-- A word of a document. Block collections have no brackets; where indentation starts and ends
them, tokens stand in for brackets. -/
inductive Token
  | version (major minor : Nat)
  | tagDirective (handle : String) (start : TagText)
  | documentStart
  | documentEnd
  | blockSequenceStart
  | blockMappingStart
  | blockEnd
  | flowSequenceStart
  | flowSequenceEnd
  | flowMappingStart
  | flowMappingEnd
  | blockEntry
  | flowEntry
  | key
  | value
  | reference (name : String)
  | anchor (name : String)
  | tag (handle : String) (suffix : TagText)
  | scalar (style : Style) (text : String)
  deriving Repr, DecidableEq

/-- A token and the place where it starts. -/
structure Lexeme where
  token : Token
  mark : Option Mark
  deriving Repr, DecidableEq

end TryResources.Yaml
