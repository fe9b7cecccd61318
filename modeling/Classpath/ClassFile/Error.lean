import Classpath.Text.Hex

/-!
# Why a class file cannot be decoded
-/

namespace Classpath
namespace ClassFile

/-- The kinds of constants a pool can hold. -/
inductive ConstantKind
  | utf8
  | integer
  | float
  | long
  | double
  | classInfo
  | string
  | fieldRef
  | methodRef
  | interfaceMethodRef
  | nameAndType
  | methodHandle
  | methodType
  | dynamic
  | invokeDynamic
  | moduleInfo
  | packageInfo
deriving DecidableEq, Repr

/-- The name of a kind in messages. -/
def ConstantKind.label : ConstantKind → String
  | utf8 => "Utf8"
  | integer => "Integer"
  | float => "Float"
  | long => "Long"
  | double => "Double"
  | classInfo => "Class"
  | string => "String"
  | fieldRef => "Fieldref"
  | methodRef => "Methodref"
  | interfaceMethodRef => "InterfaceMethodref"
  | nameAndType => "NameAndType"
  | methodHandle => "MethodHandle"
  | methodType => "MethodType"
  | dynamic => "Dynamic"
  | invokeDynamic => "InvokeDynamic"
  | moduleInfo => "Module"
  | packageInfo => "Package"

/-- What a reader of the pool asked for. -/
inductive Wanted
  | text
  | className
  | member
deriving DecidableEq, Repr

/-- The name of a request in messages. -/
def Wanted.label : Wanted → String
  | text => "Utf8"
  | className => "Class"
  | member => "Fieldref/Methodref"

/-- The parts of a class file whose own layout can be wrong. -/
inductive Part
  | constantPool
  | signature
  | code
  | annotations
  | parameterAnnotations
  | typeAnnotations
  | elementValue
  | typeTarget
deriving DecidableEq, Repr

/-- The name of a part in messages. -/
def Part.label : Part → String
  | constantPool => "constant_pool"
  | signature => "Signature"
  | code => "Code"
  | annotations => "annotations"
  | parameterAnnotations => "parameter annotations"
  | typeAnnotations => "type annotations"
  | elementValue => "annotation element_value"
  | typeTarget => "type annotation target"

/-- Why decoding stopped. -/
inductive DecodeError
  | unexpectedEnd
  | trailingBytes (count : Nat)
  | invalidMagic (magic : UInt32)
  | invalidIndex (index : UInt16)
  | invalidTag (tag : UInt8)
  | kindMismatch (index : UInt16) (wanted : Wanted) (found : ConstantKind)
  | invalidText
  | invalidOpcode (opcode : UInt8) (offset : Nat)
  | malformed (part : Part)
deriving DecidableEq, Repr

/-- The wording of a decode error. -/
def DecodeError.message : DecodeError → String
  | unexpectedEnd => "unexpected end of input"
  | trailingBytes count => s!"{count} unexpected trailing bytes"
  | invalidMagic magic => "invalid classfile magic: 0x" ++ Text.hex 8 magic.toNat
  | invalidIndex index => s!"invalid constant pool index: {index}"
  | invalidTag tag => s!"invalid constant pool tag: {tag}"
  | kindMismatch index wanted found =>
      s!"constant pool type mismatch at index {index}: expected " ++ wanted.label ++
        ", found " ++ found.label
  | invalidText => "invalid modified UTF-8 constant"
  | invalidOpcode opcode offset =>
      "invalid opcode 0x" ++ Text.hex 2 opcode.toNat ++ s!" at offset {offset}"
  | malformed part => "malformed " ++ part.label ++ " attribute"

end ClassFile
end Classpath
