/-!
# Decoded classes

The members of a class that can name other classes.  Names and descriptors are
kept exactly as the class file stores them, with slashes; they become
`ClassName`s only when references are collected.
-/

namespace Classpath

/-- Instructions whose operand is a type. -/
inductive TypeOp
  | new
  | anewarray
  | multianewarray
  | checkcast
  | instanceof
deriving DecidableEq, Repr

/-- Method calls that are bound to the class they name. -/
inductive InvokeOp
  | invokestatic
  | invokespecial
deriving DecidableEq, Repr

/-- Accesses to static fields. -/
inductive FieldOp
  | getstatic
  | putstatic
deriving DecidableEq, Repr

/-- One instruction.  Only operands that can name a class are kept; every other
instruction is its opcode alone. -/
inductive Instruction
  | type (op : TypeOp) (operand : String)
  | invoke (op : InvokeOp) (owner : String)
  | field (op : FieldOp) (owner : String)
  | plain (opcode : UInt8)
deriving DecidableEq, Repr

namespace TypeOp

def opcode : TypeOp → UInt8
  | new => 0xbb
  | anewarray => 0xbd
  | checkcast => 0xc0
  | instanceof => 0xc1
  | multianewarray => 0xc5

end TypeOp

namespace InvokeOp

def opcode : InvokeOp → UInt8
  | invokespecial => 0xb7
  | invokestatic => 0xb8

end InvokeOp

namespace FieldOp

def opcode : FieldOp → UInt8
  | getstatic => 0xb2
  | putstatic => 0xb3

end FieldOp

/-- The byte an instruction starts with. -/
def Instruction.opcode : Instruction → UInt8
  | .type op _ => op.opcode
  | .invoke op _ => op.opcode
  | .field op _ => op.opcode
  | .plain opcode => opcode

/-- A local variable: its descriptor, and its generic signature if it has one. -/
structure LocalVariable where
  descriptor : String
  signature : Option String
deriving DecidableEq, Repr

/-- A method.  Annotations are given by the descriptors of their types. -/
structure Method where
  name : String
  descriptor : String
  instructions : List Instruction := []
  localVariables : List LocalVariable := []
  annotations : List String := []
  parameterAnnotations : List (List String) := []
  localVariableAnnotations : List String := []
deriving DecidableEq, Repr

/-- A field. -/
structure Field where
  descriptor : String
  signature : Option String
  annotations : List String
deriving DecidableEq, Repr

/-- A decoded class. -/
structure ClassModel where
  methods : List Method := []
  fields : List Field := []
  annotations : List String := []
deriving DecidableEq, Repr

end Classpath
