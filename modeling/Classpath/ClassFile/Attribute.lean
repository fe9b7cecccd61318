import Classpath.ClassFile.Annotations
import Classpath.ClassFile.Instruction
import Classpath.ClassFile.LocalTable

/-!
# Attributes

Classes, fields, methods and method bodies carry named attributes.  The ones
that mention classes are decoded and must be used up to the last byte; all
others are skipped whatever they hold.
-/

namespace Classpath
namespace ClassFile

/-- The name and content of the next attribute.  The content is taken before
the name is looked up. -/
def readRawAttribute (pool : ConstantPool) : Reader (String × Bytes) := do
  let name ← Reader.u2
  let length ← Reader.u4
  let content ← Reader.bytes length.toNat
  return (← Reader.ofExcept (pool.text name), content)

/-- Decode the content of an attribute of a given part, all of it. -/
def onContent {α : Type} (part : Part) (reader : Reader α) (content : Bytes) :
    Except DecodeError α :=
  reader.onWhole (fun _ => .malformed part) content

/-- A decoded attribute of a method body. -/
inductive CodeAttribute
  | describedLocals (entries : List LocalEntry)
  | typedLocals (entries : List LocalEntry)
  | typeAnnotations (uses : List AnnotatedType)
  | other
deriving DecidableEq, Repr

namespace CodeAttribute

/-- What the name of an attribute of a method body says about its content. -/
inductive Kind
  | describedLocals
  | typedLocals
  | typeAnnotations
  | other
deriving DecidableEq, Repr

def Kind.ofName : String → Kind
  | "LocalVariableTable" => describedLocals
  | "LocalVariableTypeTable" => typedLocals
  | "RuntimeVisibleTypeAnnotations" | "RuntimeInvisibleTypeAnnotations" => typeAnnotations
  | _ => other

def decodeAs (pool : ConstantPool) (content : Bytes) : Kind → Except DecodeError CodeAttribute
  | .describedLocals => describedLocals <$> onContent .code (LocalEntry.readList pool) content
  | .typedLocals => typedLocals <$> onContent .code (LocalEntry.readList pool) content
  | .typeAnnotations => typeAnnotations <$> onContent .code (AnnotatedType.readList pool) content
  | .other => .ok other

def decode (pool : ConstantPool) (name : String) (content : Bytes) :
    Except DecodeError CodeAttribute :=
  decodeAs pool content (.ofName name)

def read (pool : ConstantPool) : Reader CodeAttribute := do
  let (name, content) ← readRawAttribute pool
  Reader.ofExcept (decode pool name content)

def describedEntries : CodeAttribute → List LocalEntry
  | describedLocals entries => entries
  | _ => []

def typedEntries : CodeAttribute → List LocalEntry
  | typedLocals entries => entries
  | _ => []

/-- The annotations on local variables; those on other targets in a body are
left out. -/
def localAnnotations : CodeAttribute → List String
  | typeAnnotations uses => (uses.filter AnnotatedType.isOnLocal).map (·.type)
  | _ => []

end CodeAttribute

/-- A decoded method body. -/
structure Body where
  instructions : List Instruction := []
  localVariables : List LocalVariable := []
  localVariableAnnotations : List String := []
deriving DecidableEq, Repr

/-- A method body: stack and variable limits, code, exception table, attributes. -/
def Body.read (pool : ConstantPool) : Reader Body := do
  let _maxStack ← Reader.u2
  let _maxLocals ← Reader.u2
  let codeLength ← Reader.u4
  let code ← Reader.bytes codeLength.toNat
  let instructions ← Reader.ofExcept (instructionsOf pool code)
  let handlers ← Reader.u2
  Reader.skip (handlers.toNat * 8)
  let attributes ← Reader.counted (CodeAttribute.read pool)
  return {
    instructions
    localVariables := mergeLocals (attributes.flatMap CodeAttribute.describedEntries)
      (attributes.flatMap CodeAttribute.typedEntries)
    localVariableAnnotations := attributes.flatMap CodeAttribute.localAnnotations }

/-- A decoded attribute of a class, field or method. -/
inductive Attribute
  | signature (text : String)
  | annotations (types : List String)
  | parameterAnnotations (types : List (List String))
  | typeAnnotations (uses : List AnnotatedType)
  | code (body : Body)
  | other
deriving DecidableEq, Repr

/-- Join two lists position by position.  The longer one keeps its tail. -/
def joinPositions {α : Type} : List (List α) → List (List α) → List (List α)
  | [], ys => ys
  | xs, [] => xs
  | x :: xs, y :: ys => (x ++ y) :: joinPositions xs ys

namespace Attribute

/-- What the name of an attribute of a class, field or method says about its content. -/
inductive Kind
  | signature
  | annotations
  | parameterAnnotations
  | typeAnnotations
  | code
  | other
deriving DecidableEq, Repr

def Kind.ofName : String → Kind
  | "Signature" => signature
  | "RuntimeVisibleAnnotations" | "RuntimeInvisibleAnnotations" => annotations
  | "RuntimeVisibleParameterAnnotations" | "RuntimeInvisibleParameterAnnotations" =>
      parameterAnnotations
  | "RuntimeVisibleTypeAnnotations" | "RuntimeInvisibleTypeAnnotations" => typeAnnotations
  | "Code" => code
  | _ => other

def decodeAs (pool : ConstantPool) (content : Bytes) : Kind → Except DecodeError Attribute
  | .signature => signature <$> onContent .signature (Reader.text pool) content
  | .annotations => annotations <$> onContent .annotations (Annotations.readList pool) content
  | .parameterAnnotations =>
      parameterAnnotations <$>
        onContent .parameterAnnotations (Annotations.readParameterLists pool) content
  | .typeAnnotations =>
      typeAnnotations <$> onContent .typeAnnotations (AnnotatedType.readList pool) content
  | .code => code <$> onContent .code (Body.read pool) content
  | .other => .ok other

def decode (pool : ConstantPool) (name : String) (content : Bytes) :
    Except DecodeError Attribute :=
  decodeAs pool content (.ofName name)

def read (pool : ConstantPool) : Reader Attribute := do
  let (name, content) ← readRawAttribute pool
  Reader.ofExcept (decode pool name content)

/-- A counted list of attributes. -/
def readList (pool : ConstantPool) : Reader (List Attribute) :=
  Reader.counted (read pool)

def signature? : Attribute → Option String
  | signature text => some text
  | _ => none

def body? : Attribute → Option Body
  | code body => some body
  | _ => none

def ownAnnotations : Attribute → List String
  | annotations types => types
  | _ => []

def annotationsOnTypes : Attribute → List String
  | typeAnnotations uses => uses.map (·.type)
  | _ => []

def annotationsOnParameters : Attribute → List (List String)
  | parameterAnnotations types => types
  | _ => []

end Attribute

/-- The last signature given. -/
def lastSignature? (attributes : List Attribute) : Option String :=
  (attributes.filterMap Attribute.signature?).getLast?

/-- The last body given, or an empty one. -/
def lastBody (attributes : List Attribute) : Body :=
  (attributes.filterMap Attribute.body?).getLast?.getD {}

/-- All annotations on a declaration, then all annotations on its types. -/
def allAnnotations (attributes : List Attribute) : List String :=
  attributes.flatMap Attribute.ownAnnotations ++
    attributes.flatMap Attribute.annotationsOnTypes

/-- The annotations on each parameter, joined over all attributes. -/
def allParameterAnnotations (attributes : List Attribute) : List (List String) :=
  attributes.foldl (fun joined item => joinPositions joined item.annotationsOnParameters) []

end ClassFile
end Classpath
