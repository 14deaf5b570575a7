/-!
# Why a document is refused

The causes for which a text is no YAML document, or for which a document does not say what is
expected of it, each with the place where it showed.
-/

namespace TryResources.Yaml

/-- A place in a text; lines and columns are counted from `0`. -/
structure Mark where
  line : Nat := 0
  column : Nat := 0
  /-- The number of octets in front of it on its line. -/
  octets : Nat := 0
  deriving Repr, DecidableEq

/-- What is wrong with a document. -/
inductive Problem
  /-- The text holds a character that no document may hold. -/
  | forbiddenCharacter
  -- Words of the text
  | noTokenStartsSo
  | tabAsIndentation
  | colonExpected
  | entryNotAllowed
  | keyNotAllowed
  | valueNotAllowed
  | colonInsideFlow
  | unclosedQuote
  | documentInsideQuote
  | unknownEscape
  | malformedEscape
  | malformedBlockHeader
  | malformedName
  | malformedTag
  | malformedDirective
  | unknownDirective
  -- Structure of the document
  | repeatedDirective
  | unknownVersion
  | unknownTagHandle
  | documentStartExpected
  | severalDocuments
  | nodeExpected
  | entryExpected
  | keyExpected
  | sequenceEndExpected
  | mappingEndExpected
  | unknownAnchor
  -- Meaning of the document
  | mappingExpected
  | sequenceExpected
  | textExpected
  | truthExpected
  | nullExpected
  | missingField (name : String)
  | repeatedField (name : String)
  | tooManyAliases
  deriving Repr, DecidableEq

/-- A problem, and where it showed if that is known. -/
structure Fault where
  problem : Problem
  mark : Option Mark := none
  deriving Repr, DecidableEq

/-- What a problem is, in words. -/
def Problem.message : Problem → String
  | forbiddenCharacter => "control characters are not allowed"
  | noTokenStartsSo => "found a character that cannot start any token"
  | tabAsIndentation => "found a tab character where an indentation space is expected"
  | colonExpected => "could not find the expected colon of a key"
  | entryNotAllowed => "sequence entries are not allowed here"
  | keyNotAllowed => "mapping keys are not allowed here"
  | valueNotAllowed => "mapping values are not allowed here"
  | colonInsideFlow => "found an unexpected colon"
  | unclosedQuote => "found the end of the text inside a quoted scalar"
  | documentInsideQuote => "found a document indicator inside a quoted scalar"
  | unknownEscape => "found an unknown escape character"
  | malformedEscape => "found a malformed escape sequence"
  | malformedBlockHeader => "found a malformed block scalar header"
  | malformedName => "found a malformed anchor or alias"
  | malformedTag => "found a malformed tag"
  | malformedDirective => "found a malformed directive"
  | unknownDirective => "found an unknown directive"
  | repeatedDirective => "found a repeated directive"
  | unknownVersion => "found an incompatible document"
  | unknownTagHandle => "found an undefined tag handle"
  | documentStartExpected => "did not find the expected start of a document"
  | severalDocuments => "found more than one document"
  | nodeExpected => "did not find the expected node content"
  | entryExpected => "did not find the expected sequence entry"
  | keyExpected => "did not find the expected key"
  | sequenceEndExpected => "did not find the expected comma or end of a flow sequence"
  | mappingEndExpected => "did not find the expected comma or end of a flow mapping"
  | unknownAnchor => "found an alias of an unknown anchor"
  | mappingExpected => "expected a mapping"
  | sequenceExpected => "expected a sequence"
  | textExpected => "expected a text"
  | truthExpected => "expected a boolean"
  | nullExpected => "expected null"
  | missingField name => "missing field " ++ name
  | repeatedField name => "repeated field " ++ name
  | tooManyAliases => "aliases are followed too often"

/-- The wording of a fault, with lines and columns counted from `1`. -/
def Fault.message (f : Fault) : String :=
  match f.mark with
  | some m => f.problem.message ++ " at line " ++ toString (m.line + 1) ++ " column " ++
      toString (m.column + 1)
  | none => f.problem.message

end TryResources.Yaml
