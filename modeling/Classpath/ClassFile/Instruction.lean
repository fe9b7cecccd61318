import Classpath.ClassFile.ConstantPool
import Classpath.Model

/-!
# Instructions of a method body

A body is a sequence of opcodes with their operands.  Most operands have a
fixed length; the two switches are padded so that their tables start at a
multiple of four bytes from the start of the body.
-/

namespace Classpath
namespace ClassFile

def typeOp? (opcode : UInt8) : Option TypeOp :=
  if opcode = 0xbb then some .new
  else if opcode = 0xbd then some .anewarray
  else if opcode = 0xc0 then some .checkcast
  else if opcode = 0xc1 then some .instanceof
  else if opcode = 0xc5 then some .multianewarray
  else none

def invokeOp? (opcode : UInt8) : Option InvokeOp :=
  if opcode = 0xb7 then some .invokespecial
  else if opcode = 0xb8 then some .invokestatic
  else none

def fieldOp? (opcode : UInt8) : Option FieldOp :=
  if opcode = 0xb2 then some .getstatic
  else if opcode = 0xb3 then some .putstatic
  else none

def tableSwitch : UInt8 := 0xaa

def lookupSwitch : UInt8 := 0xab

def wide : UInt8 := 0xc4

def increment : UInt8 := 0x84

/-- The number of operand bytes of the remaining opcodes, all of fixed length. -/
def operandLength? (opcode : UInt8) : Option Nat :=
  let code := opcode.toNat
  if code ≤ 0x0f then some 0
  else if code = 0x10 then some 1
  else if code = 0x11 then some 2
  else if code = 0x12 then some 1
  else if code ≤ 0x14 then some 2
  else if code ≤ 0x19 then some 1
  else if code ≤ 0x35 then some 0
  else if code ≤ 0x3a then some 1
  else if code ≤ 0x83 then some 0
  else if code = 0x84 then some 2
  else if code ≤ 0x98 then some 0
  else if code ≤ 0xa8 then some 2
  else if code = 0xa9 then some 1
  else if 0xac ≤ code && code ≤ 0xb1 then some 0
  else if 0xb4 ≤ code && code ≤ 0xb6 then some 2
  else if code = 0xb9 || code = 0xba then some 4
  else if code = 0xbc then some 1
  else if code = 0xbe || code = 0xbf then some 0
  else if code = 0xc2 || code = 0xc3 then some 0
  else if code = 0xc6 || code = 0xc7 then some 2
  else if code = 0xc8 || code = 0xc9 then some 4
  else if code = 0xca || code = 0xfe || code = 0xff then some 0
  else none

/-- The number of bytes between the opcode of a switch and its table. -/
def switchPadding (offset : Nat) : Nat := (4 - (offset + 1) % 4) % 4

/-- Pass over the table of a `tableswitch` at an offset: a default, the least
and the greatest case, and a jump for each case between them. -/
def skipTableSwitch (offset : Nat) : Reader Unit := do
  Reader.skip (switchPadding offset)
  Reader.skip 4
  let low ← Reader.i4
  let high ← Reader.i4
  if high < low then
    throw (.malformed .code)
  else
    Reader.skip (4 * (high - low + 1).toNat)

/-- Pass over the table of a `lookupswitch` at an offset: a default, the number
of pairs and the pairs. -/
def skipLookupSwitch (offset : Nat) : Reader Unit := do
  Reader.skip (switchPadding offset)
  Reader.skip 4
  let pairs ← Reader.i4
  if pairs < 0 then
    throw (.malformed .code)
  else
    Reader.skip (8 * pairs.toNat)

/-- Pass over the operands of an instruction that names no class. -/
def skipOperands (offset : Nat) (opcode : UInt8) : Reader Unit :=
  if opcode = tableSwitch then skipTableSwitch offset
  else if opcode = lookupSwitch then skipLookupSwitch offset
  else if opcode = wide then do
    let widened ← Reader.u1
    Reader.skip (if widened = increment then 4 else 2)
  else
    match operandLength? opcode with
    | some length => Reader.skip length
    | none => throw (.invalidOpcode opcode offset)

/-- The number of dimensions after the class of an array, which one instruction has. -/
def skipDimensions (op : TypeOp) : Reader Unit := do
  if op = .multianewarray then
    let _dimensions ← Reader.u1

/-- The rest of an instruction, given which operation on a type, a method or a field it is. -/
def readOperandsOf (pool : ConstantPool) (offset : Nat) (opcode : UInt8) :
    Option TypeOp → Option InvokeOp → Option FieldOp → Reader Instruction
  | some op, _, _ => do
      let operand ← Reader.className pool
      skipDimensions op
      return .type op operand
  | none, some op, _ => do
      return .invoke op (← Reader.memberOwner pool)
  | none, none, some op => do
      return .field op (← Reader.memberOwner pool)
  | none, none, none => do
      skipOperands offset opcode
      return .plain opcode

/-- The rest of the instruction whose opcode was read at an offset. -/
def readOperands (pool : ConstantPool) (offset : Nat) (opcode : UInt8) : Reader Instruction :=
  readOperandsOf pool offset opcode (typeOp? opcode) (invokeOp? opcode) (fieldOp? opcode)

theorem Shrinks.skipTableSwitch (offset : Nat) : Shrinks (skipTableSwitch offset) := by
  refine bind (skip _) fun _ => bind (skip _) fun _ => bind i4 fun low => bind i4 fun high => ?_
  split
  · exact throw _
  · exact skip _

theorem Shrinks.skipLookupSwitch (offset : Nat) : Shrinks (skipLookupSwitch offset) := by
  refine bind (skip _) fun _ => bind (skip _) fun _ => bind i4 fun pairs => ?_
  split
  · exact throw _
  · exact skip _

theorem Shrinks.skipOperands (offset : Nat) (opcode : UInt8) :
    Shrinks (skipOperands offset opcode) := by
  unfold ClassFile.skipOperands
  split
  · exact skipTableSwitch offset
  split
  · exact skipLookupSwitch offset
  split
  · exact bind u1 fun _ => skip _
  split
  · exact skip _
  · exact throw _

theorem Shrinks.skipDimensions (op : TypeOp) : Shrinks (skipDimensions op) := by
  unfold ClassFile.skipDimensions
  split
  · exact bind u1 fun _ => pure _
  · exact pure _

theorem Shrinks.readOperands (pool : ConstantPool) (offset : Nat) (opcode : UInt8) :
    Shrinks (readOperands pool offset opcode) := by
  unfold ClassFile.readOperands ClassFile.readOperandsOf
  split
  · exact bind (className pool) fun _ => bind (skipDimensions _) fun _ => pure _
  · exact bind (memberOwner pool) fun _ => pure _
  · exact bind (memberOwner pool) fun _ => pure _
  · exact bind (skipOperands offset opcode) fun _ => pure _

/-- The instructions of the part of a body that starts at an offset. -/
def instructionsFrom (pool : ConstantPool) (offset : Nat) (code : Bytes) :
    Except DecodeError (List Instruction) :=
  match code with
  | [] => .ok []
  | opcode :: operands =>
      match h : readOperands pool offset opcode operands with
      | .error error _ => .error error
      | .ok instruction rest =>
          have : rest.length ≤ operands.length := Shrinks.readOperands pool offset opcode h
          match instructionsFrom pool (offset + 1 + (operands.length - rest.length)) rest with
          | .ok more => .ok (instruction :: more)
          | .error error => .error error
termination_by code.length
decreasing_by simp only [List.length_cons]; omega

/-- The instructions of a method body. -/
def instructionsOf (pool : ConstantPool) (code : Bytes) : Except DecodeError (List Instruction) :=
  instructionsFrom pool 0 code

end ClassFile
end Classpath
