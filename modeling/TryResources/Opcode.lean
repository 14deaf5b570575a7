/-!
# Opcodes

The instruction set of a method body: one constructor per opcode, its byte, its mnemonic, the
shape of the operand that it carries and the flags that classify it. `Opcode.ofMnemonic?` reads a
mnemonic back.

* `ofMnemonic?_mnemonic`, `mnemonic_of_ofMnemonic?`: a mnemonic names exactly one opcode.
-/

namespace TryResources

/-- The shape of the operand that follows an opcode. -/
inductive OperandKind
  /-- Nothing follows. -/
  | none
  /-- A local variable slot. -/
  | slot
  /-- A label to jump to. -/
  | target
  /-- A reference to a method. -/
  | member
  /-- The internal name of a type. -/
  | type
  deriving Repr, DecidableEq

/-- What an instruction does, as far as templates and listings ask. -/
inductive Flag
  /-- Reads a local variable slot. -/
  | load
  /-- Writes a local variable slot. -/
  | store
  /-- Transfers control to a label. -/
  | jump
  /-- May fall through instead of jumping. -/
  | conditional
  /-- Calls a method. -/
  | invoke
  /-- Raises the exception on top of the stack. -/
  | throw
  /-- Leaves the method with or without a value. -/
  | leave
  deriving Repr, DecidableEq

namespace Flag

/-- The bit that stands for a flag in a byte of flags. -/
def bit : Flag → Nat
  | load => 1
  | store => 2
  | jump => 4
  | conditional => 8
  | invoke => 16
  | throw => 32
  | leave => 64

/-- The name under which a flag is reported. -/
def name : Flag → String
  | load => "LOAD"
  | store => "STORE"
  | jump => "JUMP"
  | conditional => "CONDITIONAL"
  | invoke => "INVOKE"
  | throw => "THROW"
  | leave => "RETURN"

end Flag

/-- The opcodes that a method body may use. -/
inductive Opcode
  | nop | aconstNull | iconst0 | iconst1
  | iload | aload | istore | astore
  | pop | dup
  | ifeq | ifne | ifAcmpeq | ifAcmpne | goto
  | ireturn | areturn | returnVoid
  | invokevirtual | invokespecial | invokestatic | invokeinterface
  | new | athrow
  | ifnull | ifnonnull
  deriving Repr, DecidableEq

namespace Opcode

/-- Every opcode, by ascending byte. -/
def all : List Opcode :=
  [nop, aconstNull, iconst0, iconst1, iload, aload, istore, astore, pop, dup,
    ifeq, ifne, ifAcmpeq, ifAcmpne, goto, ireturn, areturn, returnVoid,
    invokevirtual, invokespecial, invokestatic, invokeinterface, new, athrow, ifnull, ifnonnull]

theorem mem_all (op : Opcode) : op ∈ all := by cases op <;> decide

/-- The byte that encodes an opcode. -/
def byte : Opcode → Nat
  | nop => 0x00
  | aconstNull => 0x01
  | iconst0 => 0x03
  | iconst1 => 0x04
  | iload => 0x15
  | aload => 0x19
  | istore => 0x36
  | astore => 0x3a
  | pop => 0x57
  | dup => 0x59
  | ifeq => 0x99
  | ifne => 0x9a
  | ifAcmpeq => 0xa5
  | ifAcmpne => 0xa6
  | goto => 0xa7
  | ireturn => 0xac
  | areturn => 0xb0
  | returnVoid => 0xb1
  | invokevirtual => 0xb6
  | invokespecial => 0xb7
  | invokestatic => 0xb8
  | invokeinterface => 0xb9
  | new => 0xbb
  | athrow => 0xbf
  | ifnull => 0xc6
  | ifnonnull => 0xc7

/-- The word that a listing writes for an opcode. -/
def mnemonic : Opcode → String
  | nop => "nop"
  | aconstNull => "aconst_null"
  | iconst0 => "iconst_0"
  | iconst1 => "iconst_1"
  | iload => "iload"
  | aload => "aload"
  | istore => "istore"
  | astore => "astore"
  | pop => "pop"
  | dup => "dup"
  | ifeq => "ifeq"
  | ifne => "ifne"
  | ifAcmpeq => "if_acmpeq"
  | ifAcmpne => "if_acmpne"
  | goto => "goto"
  | ireturn => "ireturn"
  | areturn => "areturn"
  | returnVoid => "return"
  | invokevirtual => "invokevirtual"
  | invokespecial => "invokespecial"
  | invokestatic => "invokestatic"
  | invokeinterface => "invokeinterface"
  | new => "new"
  | athrow => "athrow"
  | ifnull => "ifnull"
  | ifnonnull => "ifnonnull"

/-- The opcode that a word names, if it names one. -/
def ofMnemonic? (word : String) : Option Opcode :=
  all.find? (·.mnemonic == word)

@[simp] theorem ofMnemonic?_mnemonic (op : Opcode) : ofMnemonic? op.mnemonic = some op := by
  cases op <;> decide

theorem mnemonic_of_ofMnemonic? {word : String} {op : Opcode} (h : ofMnemonic? word = some op) :
    op.mnemonic = word := by
  simpa using List.find?_some h

/-- The shape of the operand that an opcode carries. -/
def operandKind : Opcode → OperandKind
  | iload | aload | istore | astore => .slot
  | ifeq | ifne | ifAcmpeq | ifAcmpne | goto | ifnull | ifnonnull => .target
  | invokevirtual | invokespecial | invokestatic | invokeinterface => .member
  | new => .type
  | nop | aconstNull | iconst0 | iconst1 | pop | dup | ireturn | areturn | returnVoid | athrow =>
    .none

/-- The flags of an opcode, by ascending bit. -/
def flags : Opcode → List Flag
  | iload | aload => [.load]
  | istore | astore => [.store]
  | ifeq | ifne | ifAcmpeq | ifAcmpne | ifnull | ifnonnull => [.jump, .conditional]
  | goto => [.jump]
  | ireturn | areturn | returnVoid => [.leave]
  | invokevirtual | invokespecial | invokestatic | invokeinterface => [.invoke]
  | athrow => [.throw]
  | nop | aconstNull | iconst0 | iconst1 | pop | dup | new => []

/-- The flags of an opcode as one byte. -/
def flagBits (op : Opcode) : Nat :=
  op.flags.foldr (fun f bits => f.bit + bits) 0

/-- A jump that never falls through. -/
def isUnconditionalJump (op : Opcode) : Bool :=
  op.flags.contains .jump && !op.flags.contains .conditional

end Opcode

end TryResources
