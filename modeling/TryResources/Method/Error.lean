import TryResources.Opcode
import TryResources.Text.Quoted

/-!
# Why a description of a method is refused

The causes for which a line of a listing is malformed, or the lines and table entries of a method
do not fit together, and the message for each.
-/

namespace TryResources

/-- A reason to refuse the description of a method. -/
inductive MethodError
  /-- A line starts with a word that names no opcode. -/
  | unknownOpcode (word : String)
  /-- A line ends where an operand is due. -/
  | missingOperand (word : String)
  /-- A number is malformed or too large, or a word is left over. -/
  | invalidOperand (word operand : String)
  /-- A reference to a method lacks the dot between owner and name. -/
  | invalidMember (reference : String)
  /-- A label is placed a second time. -/
  | duplicateLabel (name : String)
  /-- A label is used but placed nowhere. -/
  | undefinedLabel (name : String)
  /-- An instruction carries an operand that its opcode does not take. -/
  | operandMismatch (position : Nat) (opcode : Opcode)
  deriving Repr, DecidableEq

/-- The message that reports a reason. -/
def MethodError.message : MethodError → String
  | unknownOpcode word => "Unknown opcode: " ++ word
  | missingOperand word => "Missing operand for " ++ word
  | invalidOperand word operand => "Invalid operand " ++ Text.quote operand ++ " for " ++ word
  | invalidMember reference =>
    "Invalid member reference " ++ Text.quote reference ++ ", expected owner.name"
  | duplicateLabel name => "Label " ++ name ++ " is placed more than once"
  | undefinedLabel name => "Label " ++ name ++ " is referenced but never placed"
  | operandMismatch position opcode =>
    "Operand of " ++ opcode.mnemonic ++ " at position " ++ toString position ++
      " does not match its opcode"

end TryResources
