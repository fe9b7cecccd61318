import Classpath.ClassFile.Attribute

/-!
# Decoding a class file

A class file is a magic number, versions, the constant pool, flags, the class
and what it extends, fields, methods and attributes, and nothing after them.
-/

namespace Classpath
namespace ClassFile

/-- A decoded class with the name it declares, in internal form. -/
structure DecodedClass where
  thisClass : String
  majorVersion : UInt16
  model : ClassModel
deriving DecidableEq, Repr

/-- The number every class file starts with. -/
def magicNumber : UInt32 := 0xCAFEBABE

def readField (pool : ConstantPool) : Reader Field := do
  let _flags ← Reader.u2
  let _name ← Reader.text pool
  let descriptor ← Reader.text pool
  let attributes ← Attribute.readList pool
  return {
    descriptor
    signature := lastSignature? attributes
    annotations := allAnnotations attributes }

def readMethod (pool : ConstantPool) : Reader Method := do
  let _flags ← Reader.u2
  let name ← Reader.text pool
  let descriptor ← Reader.text pool
  let attributes ← Attribute.readList pool
  let body := lastBody attributes
  return {
    name
    descriptor
    instructions := body.instructions
    localVariables := body.localVariables
    annotations := allAnnotations attributes
    parameterAnnotations := allParameterAnnotations attributes
    localVariableAnnotations := body.localVariableAnnotations }

/-- A class file up to its last attribute. -/
def readClass : Reader DecodedClass := do
  let magic ← Reader.u4
  if magic ≠ magicNumber then
    throw (.invalidMagic magic)
  let _minorVersion ← Reader.u2
  let majorVersion ← Reader.u2
  let pool ← ConstantPool.read
  let _flags ← Reader.u2
  let thisClass ← Reader.className pool
  let _superClass ← Reader.u2
  let interfaces ← Reader.u2
  Reader.skip (interfaces.toNat * 2)
  let fields ← Reader.counted (readField pool)
  let methods ← Reader.counted (readMethod pool)
  let attributes ← Attribute.readList pool
  return {
    thisClass
    majorVersion
    model := { methods, fields, annotations := allAnnotations attributes } }

/-- Decode a whole class file. -/
def decode (bytes : Bytes) : Except DecodeError DecodedClass :=
  readClass.onWhole .trailingBytes bytes

end ClassFile
end Classpath
