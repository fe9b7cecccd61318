import Classpath.ClassFile.Draft

/-!
# Writing class files

A draft is written as a class file of major version 52 with a source-file
attribute.  Counts and lengths are cut to the width of their field.
Everything that asks for constants is encoded before the pool is written.
-/

namespace Classpath
namespace ClassFile

namespace Writer

/-- An attribute.  Its name is asked for after everything in its content. -/
def writeAttribute (name : String) (content : Bytes) : PoolWriter Bytes := do
  let index ← PoolWriter.text name
  return indexBytes index ++ u4Bytes content.length ++ content

/-- A counted list of encoded items. -/
def countedBytes (items : List Bytes) : Bytes :=
  u2Bytes items.length ++ items.flatten

/-- An annotation without elements. -/
def writePlainMark (type : String) : PoolWriter Bytes := do
  let index ← PoolWriter.text type
  return indexBytes index ++ u2Bytes 0

/-- An element of an annotation: its name, then its value. -/
def writeElement (name : String) (value : Bytes) : PoolWriter Bytes := do
  let index ← PoolWriter.text name
  return indexBytes index ++ value

/-- A value: its tag, then its content. -/
def tagged (tag : Char) (content : Bytes) : Bytes :=
  UInt8.ofNat tag.toNat :: content

/-- An annotation with one element of every kind of value. -/
def writeFullMark (type : String) : PoolWriter Bytes := do
  let index ← PoolWriter.text type
  let number ← PoolWriter.integer 7
  let bigNumber ← PoolWriter.long 0x10000000000
  let string ← PoolWriter.text "text"
  let enumType ← PoolWriter.text "Lpkg/Mode;"
  let enumName ← PoolWriter.text "FAST"
  let literal ← PoolWriter.text "Lpkg/Literal;"
  let nested ← writePlainMark "Lpkg/Nested;"
  let numberValue := tagged 'I' (indexBytes number)
  let literalValue := tagged 'c' (indexBytes literal)
  let elements ← [
    ("i", numberValue),
    ("j", tagged 'J' (indexBytes bigNumber)),
    ("s", tagged 's' (indexBytes string)),
    ("e", tagged 'e' (indexBytes enumType ++ indexBytes enumName)),
    ("c", literalValue),
    ("n", tagged '@' nested),
    ("a", tagged '[' (countedBytes [numberValue, literalValue]))].mapM
      fun (name, value) => writeElement name value
  return indexBytes index ++ countedBytes elements

def writeClassMark (mark : ClassMark) : PoolWriter Bytes :=
  if mark.hasValues then writeFullMark mark.type else writePlainMark mark.type

/-- The attribute of the annotations on a field or method. -/
def writeMarks (types : List String) : PoolWriter Bytes := do
  let marks ← types.mapM writePlainMark
  writeAttribute "RuntimeVisibleAnnotations" (countedBytes marks)

/-- An attribute that is written only if it holds something. -/
def writeUnless (empty : Bool) (attr : PoolWriter Bytes) : PoolWriter (List Bytes) := do
  if empty then
    return []
  else
    return [← attr]

/-- The attribute of a generic signature, if there is one. -/
def writeSignature : Option String → PoolWriter (List Bytes)
  | some text => do
      let index ← PoolWriter.text text
      return [← writeAttribute "Signature" (indexBytes index)]
  | none => return []

def writeField (field : FieldDraft) : PoolWriter Bytes := do
  let name ← PoolWriter.text field.name
  let descriptor ← PoolWriter.text field.descriptor
  let signature ← writeSignature field.signature
  let marks ← writeUnless field.annotations.isEmpty (writeMarks field.annotations)
  return u2Bytes 0x0001 ++ indexBytes name ++ indexBytes descriptor ++
    countedBytes (signature ++ marks)

/-- An opcode followed by the number of a constant. -/
def withIndex (opcode : UInt8) (index : PoolWriter UInt16) : PoolWriter Bytes := do
  return opcode :: indexBytes (← index)

def writeOp : DraftOp → PoolWriter Bytes
  | .new name => withIndex 0xbb (PoolWriter.classInfo name)
  | .anewarray name => withIndex 0xbd (PoolWriter.classInfo name)
  | .checkcast name => withIndex 0xc0 (PoolWriter.classInfo name)
  | .instanceof name => withIndex 0xc1 (PoolWriter.classInfo name)
  | .multianewarray name dimensions => do
      return (← withIndex 0xc5 (PoolWriter.classInfo name)) ++ [dimensions]
  | .invokestatic owner name descriptor =>
      withIndex 0xb8 (PoolWriter.methodRef owner name descriptor)
  | .invokespecial owner name descriptor =>
      withIndex 0xb7 (PoolWriter.methodRef owner name descriptor)
  | .invokevirtual owner name descriptor =>
      withIndex 0xb6 (PoolWriter.methodRef owner name descriptor)
  | .getstatic owner name descriptor => withIndex 0xb2 (PoolWriter.fieldRef owner name descriptor)
  | .putstatic owner name descriptor => withIndex 0xb3 (PoolWriter.fieldRef owner name descriptor)
  | .getfield owner name descriptor => withIndex 0xb4 (PoolWriter.fieldRef owner name descriptor)
  | .newIntArray => pure [0xbc, 10]
  | .dup => pure [0x59]
  | .pop => pure [0x57]
  | .loadNull => pure [0x01]
  | .exit => pure [0xb1]

/-- One row of a table of local variables that live in the whole body. -/
def localRow (codeLength : Nat) (name text : UInt16) (slot : Nat) : Bytes :=
  u2Bytes 0 ++ u2Bytes codeLength ++ indexBytes name ++ indexBytes text ++ u2Bytes slot

/-- The rows of one local variable in the table of descriptors and, if it has a
signature, in the table of signatures. -/
def writeLocal (codeLength : Nat) (slot : Nat) (draft : LocalDraft) :
    PoolWriter (Bytes × List Bytes) := do
  let name ← PoolWriter.text s!"v{slot}"
  let descriptor ← PoolWriter.text draft.descriptor
  let row := localRow codeLength name descriptor slot
  match draft.signature with
  | some signature =>
      let signature ← PoolWriter.text signature
      return (row, [localRow codeLength name signature slot])
  | none => return (row, [])

/-- The attributes of the tables of local variables. -/
def writeLocals (codeLength : Nat) (locals : List LocalDraft) : PoolWriter (List Bytes) := do
  let rows ← locals.zipIdx.mapM fun (draft, slot) => writeLocal codeLength slot draft
  let described ← writeUnless locals.isEmpty
    (writeAttribute "LocalVariableTable" (countedBytes (rows.map (·.1))))
  let typedRows := rows.flatMap (·.2)
  let typed ← writeUnless typedRows.isEmpty
    (writeAttribute "LocalVariableTypeTable" (countedBytes typedRows))
  return described ++ typed

/-- An annotation on a local variable that lives in the whole body. -/
def writeLocalMark (codeLength : Nat) (type : String) : PoolWriter Bytes := do
  let mark ← writePlainMark type
  return 0x40 :: (u2Bytes 1 ++ u2Bytes 0 ++ u2Bytes codeLength ++ u2Bytes 0 ++ [0] ++ mark)

def writeLocalMarks (codeLength : Nat) (types : List String) : PoolWriter Bytes := do
  let marks ← types.mapM (writeLocalMark codeLength)
  writeAttribute "RuntimeVisibleTypeAnnotations" (countedBytes marks)

/-- The body of a method. -/
def writeBody (method : MethodDraft) : PoolWriter Bytes := do
  let code := (← method.code.mapM writeOp).flatten
  let locals ← writeLocals code.length method.locals
  let marks ← writeUnless method.localAnnotations.isEmpty
    (writeLocalMarks code.length method.localAnnotations)
  writeAttribute "Code"
    (u2Bytes 8 ++ u2Bytes (method.locals.length + 4) ++ u4Bytes code.length ++ code ++
      u2Bytes 0 ++ countedBytes (locals ++ marks))

/-- The annotations on the parameters of a method. -/
def writeParameterMarks (types : List (List String)) : PoolWriter Bytes := do
  let lists ← types.mapM fun types => do
    return countedBytes (← types.mapM writePlainMark)
  writeAttribute "RuntimeInvisibleParameterAnnotations"
    (UInt8.ofNat types.length :: lists.flatten)

def writeMethod (method : MethodDraft) : PoolWriter Bytes := do
  let name ← PoolWriter.text method.name
  let descriptor ← PoolWriter.text method.descriptor
  let body ← writeUnless method.code.isEmpty (writeBody method)
  let marks ← writeUnless method.annotations.isEmpty (writeMarks method.annotations)
  let parameters ← writeUnless method.parameterAnnotations.isEmpty
    (writeParameterMarks method.parameterAnnotations)
  return u2Bytes 0x0001 ++ indexBytes name ++ indexBytes descriptor ++
    countedBytes (body ++ marks ++ parameters)

def writeClassMarks (marks : List ClassMark) : PoolWriter Bytes := do
  let marks ← marks.mapM writeClassMark
  writeAttribute "RuntimeVisibleAnnotations" (countedBytes marks)

/-- Annotations on the first type parameter of the class. -/
def writeTypeParameterMarks (types : List String) : PoolWriter Bytes := do
  let marks ← types.mapM fun type => do
    return [0, 0, 0] ++ (← writePlainMark type)
  writeAttribute "RuntimeInvisibleTypeAnnotations" (countedBytes marks)

/-- The attributes of a class. -/
def writeClassAttributes (draft : ClassDraft) : PoolWriter Bytes := do
  let marks ← writeUnless draft.annotations.isEmpty (writeClassMarks draft.annotations)
  let typeMarks ← writeUnless draft.typeParameterAnnotations.isEmpty
    (writeTypeParameterMarks draft.typeParameterAnnotations)
  let source ← PoolWriter.text "Fixture.java"
  let sourceFile ← writeAttribute "SourceFile" (indexBytes source)
  return countedBytes (marks ++ typeMarks ++ [sourceFile])

end Writer

/-- The number of a requested constant, and the pool once it is in. -/
structure Granted where
  index : UInt16
  pool : PoolBuilder

/-- A written class file, and what its requests were granted. -/
structure WrittenClass where
  granted : List Granted
  bytes : Bytes

namespace ClassDraft

/-- The class itself and the class it extends, the first constants of the pool. -/
def writeHeader (draft : ClassDraft) : PoolWriter (UInt16 × UInt16) := do
  let thisClass ← PoolWriter.classInfo draft.name
  let superClass ← PoolWriter.classInfo "java/lang/Object"
  return (thisClass, superClass)

def writeRequests (draft : ClassDraft) : PoolWriter (List Granted) :=
  draft.requests.mapM fun request => do
    let index ← request.write
    return ⟨index, ← get⟩

/-- Everything that asks for constants, in order: the class, the requests,
fields, methods and attributes. -/
def writeParts (draft : ClassDraft) :
    PoolWriter (List Granted × (UInt16 × UInt16) × Bytes) := do
  let header ← draft.writeHeader
  let granted ← draft.writeRequests
  let fields ← draft.fields.mapM Writer.writeField
  let methods ← draft.methods.mapM Writer.writeMethod
  let attributes ← Writer.writeClassAttributes draft
  return (granted, header,
    u2Bytes 0 ++ Writer.countedBytes fields ++ Writer.countedBytes methods ++ attributes)

/-- The class file: the pool first, then the parts that refer to it. -/
def write (draft : ClassDraft) : WrittenClass :=
  let ((granted, (thisClass, superClass), members), pool) := draft.writeParts.run {}
  { granted
    bytes := u4Bytes 0xCAFEBABE ++ u2Bytes 0 ++ u2Bytes 52 ++ pool.toBytes ++
      u2Bytes 0x0021 ++ indexBytes thisClass ++ indexBytes superClass ++ members }

end ClassDraft
end ClassFile
end Classpath
