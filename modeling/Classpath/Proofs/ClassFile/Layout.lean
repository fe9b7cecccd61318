import Classpath.Proofs.ClassFile.AttributeReads
import Classpath.Proofs.ClassFile.LocalPairing

/-!
# Class files as data

A class file with everything it can hold: any constants, members and attributes
in any order and any number.  The types carry that counts and lengths fit in
their fields and that references find their constants.  `bytes` writes such a
file and `model` says what shall be kept of it.
-/

namespace Classpath
namespace ClassFile

open Writer (countedBytes)

/-- A list whose length fits in two bytes. -/
structure Counted (α : Type) where
  items : List α
  fits : items.length < 65536

namespace Counted

variable {α : Type}

def bytes (list : Counted α) (encode : α → Bytes) : Bytes :=
  countedBytes (list.items.map encode)

def map {β : Type} (f : α → β) (list : Counted α) : Counted β where
  items := list.items.map f
  fits := by rw [List.length_map]; exact list.fits

def filter (keep : α → Bool) (list : Counted α) : Counted α where
  items := list.items.filter keep
  fits := Nat.lt_of_le_of_lt (List.length_filter_le keep list.items) list.fits

def empty : Counted α where
  items := []
  fits := Nat.succ_pos 65535

end Counted

/-- An attribute whose content is given as data.  Its name is found in the pool. -/
structure Attached (pool : ConstantPool) (γ : Type) (name : γ → String) (bytes : γ → Bytes) where
  content : γ
  nameRef : TextRef pool
  named : nameRef.text = name content
  fits : (bytes content).length < 4294967296

def Attached.bytes {pool : ConstantPool} {γ : Type} {name : γ → String} {encode : γ → Bytes}
    (attached : Attached pool γ name encode) : Bytes :=
  attributeBytes attached.nameRef.index (encode attached.content)

/-! ## Method bodies -/

/-- One row of a table of local variables. -/
structure LocalRow (pool : ConstantPool) where
  start : UInt16
  length : UInt16
  name : TextRef pool
  text : TextRef pool
  slot : UInt16

/-- The content of an attribute of a method body. -/
inductive CodeContent (pool : ConstantPool)
  | describedLocals (rows : Counted (LocalRow pool))
  | typedLocals (rows : Counted (LocalRow pool))
  | typeAnnotations (visible : Bool) (uses : Counted (TypeUse pool))
  | other (name : String) (unknown : name ∉ CodeAttribute.knownNames) (content : Bytes)

section Bodies

variable {pool : ConstantPool}

def LocalRow.bytes (row : LocalRow pool) : Bytes :=
  indexBytes row.start ++ indexBytes row.length ++ indexBytes row.name.index ++
    indexBytes row.text.index ++ indexBytes row.slot

def LocalRow.entry (row : LocalRow pool) : LocalEntry :=
  ⟨row.start, row.length, row.slot, row.text.text⟩

namespace CodeContent

def name : CodeContent pool → String
  | describedLocals _ => "LocalVariableTable"
  | typedLocals _ => "LocalVariableTypeTable"
  | typeAnnotations true _ => "RuntimeVisibleTypeAnnotations"
  | typeAnnotations false _ => "RuntimeInvisibleTypeAnnotations"
  | other name _ _ => name

def bytes : CodeContent pool → Bytes
  | describedLocals rows | typedLocals rows => rows.bytes LocalRow.bytes
  | typeAnnotations _ uses => uses.bytes TypeUse.bytes
  | other _ _ content => content

def describedRows : CodeContent pool → List LocalEntry
  | describedLocals rows => rows.items.map LocalRow.entry
  | _ => []

def typedRows : CodeContent pool → List LocalEntry
  | typedLocals rows => rows.items.map LocalRow.entry
  | _ => []

/-- The types of the annotations on local variables and resource variables. -/
def localAnnotations : CodeContent pool → List String
  | typeAnnotations _ uses =>
      (uses.items.filter fun use => use.target.isLocal).map fun use => use.mark.type.text
  | _ => []

end CodeContent

end Bodies

/-- A method body. -/
structure CodeInfo (pool : ConstantPool) where
  maxStack : UInt16
  maxLocals : UInt16
  code : Bytes
  fits : code.length < 4294967296
  instructions : List Instruction
  spells : Spells pool 0 code instructions
  handlers : Counted (UInt16 × UInt16 × UInt16 × UInt16)
  attributes : Counted (Attached pool (CodeContent pool) CodeContent.name CodeContent.bytes)

namespace CodeInfo

variable {pool : ConstantPool}

/-- One row of the exception table. -/
def handlerBytes (handler : UInt16 × UInt16 × UInt16 × UInt16) : Bytes :=
  indexBytes handler.1 ++ indexBytes handler.2.1 ++ indexBytes handler.2.2.1 ++
    indexBytes handler.2.2.2

def bytes (info : CodeInfo pool) : Bytes :=
  bodyBytes info.maxStack.toNat info.maxLocals.toNat info.code
    (info.handlers.items.map handlerBytes) (info.attributes.items.map Attached.bytes)

/-- The contents of the attributes, in file order. -/
def contents (info : CodeInfo pool) : List (CodeContent pool) :=
  info.attributes.items.map (·.content)

/-- The rows of all tables of descriptors, paired with those of all tables of
signatures. -/
def localVariables (info : CodeInfo pool) : List LocalVariable :=
  pairedLocals (info.contents.flatMap CodeContent.describedRows)
    (info.contents.flatMap CodeContent.typedRows)

def localAnnotations (info : CodeInfo pool) : List String :=
  info.contents.flatMap CodeContent.localAnnotations

end CodeInfo

/-! ## Members -/

/-- The content of an attribute of a class, a field or a method. -/
inductive Content (pool : ConstantPool)
  | signature (text : TextRef pool)
  | annotations (visible : Bool) (marks : Counted (AnnotationTree pool))
  | parameterAnnotations (visible : Bool) (lists : List (Counted (AnnotationTree pool)))
      (fits : lists.length < 256)
  | typeAnnotations (visible : Bool) (uses : Counted (TypeUse pool))
  | code (info : CodeInfo pool)
  | other (name : String) (unknown : name ∉ Attribute.knownNames) (content : Bytes)

namespace Content

variable {pool : ConstantPool}

def name : Content pool → String
  | signature _ => "Signature"
  | annotations true _ => "RuntimeVisibleAnnotations"
  | annotations false _ => "RuntimeInvisibleAnnotations"
  | parameterAnnotations true _ _ => "RuntimeVisibleParameterAnnotations"
  | parameterAnnotations false _ _ => "RuntimeInvisibleParameterAnnotations"
  | typeAnnotations true _ => "RuntimeVisibleTypeAnnotations"
  | typeAnnotations false _ => "RuntimeInvisibleTypeAnnotations"
  | code _ => "Code"
  | other name _ _ => name

def bytes : Content pool → Bytes
  | signature text => indexBytes text.index
  | annotations _ marks => marks.bytes AnnotationTree.bytes
  | parameterAnnotations _ lists _ =>
      UInt8.ofNat lists.length :: lists.flatMap fun marks => marks.bytes AnnotationTree.bytes
  | typeAnnotations _ uses => uses.bytes TypeUse.bytes
  | code info => info.bytes
  | other _ _ content => content

/-- The types of a list of annotations. -/
def typesOf (marks : Counted (AnnotationTree pool)) : List String :=
  marks.items.map fun mark => mark.type.text

def signature? : Content pool → Option String
  | signature text => some text.text
  | _ => none

def code? : Content pool → Option (CodeInfo pool)
  | code info => some info
  | _ => none

def ownAnnotations : Content pool → List String
  | annotations _ marks => typesOf marks
  | _ => []

def annotationsOnTypes : Content pool → List String
  | typeAnnotations _ uses => uses.items.map fun use => use.mark.type.text
  | _ => []

def annotationsOnParameters : Content pool → List (List String)
  | parameterAnnotations _ lists _ => lists.map typesOf
  | _ => []

end Content

/-- The attributes of a class, a field or a method. -/
abbrev AttributeList (pool : ConstantPool) : Type :=
  Counted (Attached pool (Content pool) Content.name Content.bytes)

/-- The lists at each position one after the other, for as many positions as the
longest of them has. -/
def concatByPosition {α : Type} (lists : List (List (List α))) : List (List α) :=
  (List.range ((lists.map List.length).foldr max 0)).map fun position =>
    lists.flatMap fun list => list.getD position []

namespace AttributeList

variable {pool : ConstantPool}

/-- The contents of the attributes, in file order. -/
def contents (attributes : AttributeList pool) : List (Content pool) :=
  attributes.items.map (·.content)

/-- All annotations in file order, then all annotations on types in file order. -/
def annotations (attributes : AttributeList pool) : List String :=
  attributes.contents.flatMap Content.ownAnnotations ++
    attributes.contents.flatMap Content.annotationsOnTypes

def lastSignature? (attributes : AttributeList pool) : Option String :=
  (attributes.contents.filterMap Content.signature?).getLast?

def lastCode? (attributes : AttributeList pool) : Option (CodeInfo pool) :=
  (attributes.contents.filterMap Content.code?).getLast?

def parameterAnnotations (attributes : AttributeList pool) : List (List String) :=
  concatByPosition (attributes.contents.map Content.annotationsOnParameters)

end AttributeList

/-- A field or a method. -/
structure MemberInfo (pool : ConstantPool) where
  flags : UInt16
  name : TextRef pool
  descriptor : TextRef pool
  attributes : AttributeList pool

namespace MemberInfo

variable {pool : ConstantPool}

def bytes (info : MemberInfo pool) : Bytes :=
  memberBytes info.flags.toNat info.name.index info.descriptor.index
    (info.attributes.items.map Attached.bytes)

/-- What shall be kept of a field. -/
def field (info : MemberInfo pool) : Field where
  descriptor := info.descriptor.text
  signature := info.attributes.lastSignature?
  annotations := info.attributes.annotations

/-- What shall be kept of a method. -/
def method (info : MemberInfo pool) : Method where
  name := info.name.text
  descriptor := info.descriptor.text
  instructions := info.attributes.lastCode?.elim [] CodeInfo.instructions
  localVariables := info.attributes.lastCode?.elim [] CodeInfo.localVariables
  annotations := info.attributes.annotations
  parameterAnnotations := info.attributes.parameterAnnotations
  localVariableAnnotations := info.attributes.lastCode?.elim [] CodeInfo.localAnnotations

end MemberInfo

/-! ## Whole files -/

/-- A class file. -/
structure ClassLayout where
  minor : UInt16
  major : UInt16
  constants : List PoolEntry
  fits : (ConstantPool.slotsOf constants).length + 1 < 65536
  flags : UInt16
  thisClass : ClassRef (.ofEntries constants)
  superClass : UInt16
  interfaces : Counted UInt16
  fields : Counted (MemberInfo (.ofEntries constants))
  methods : Counted (MemberInfo (.ofEntries constants))
  attributes : AttributeList (.ofEntries constants)

namespace ClassLayout

def bytes (file : ClassLayout) : Bytes :=
  classBytes file.minor.toNat file.major.toNat (ConstantPool.entryBytes file.constants)
    file.flags.toNat file.thisClass.index file.superClass (file.interfaces.items.map indexBytes)
    (file.fields.items.map MemberInfo.bytes) (file.methods.items.map MemberInfo.bytes)
    (file.attributes.items.map Attached.bytes)

/-- What shall be kept of a class. -/
def model (file : ClassLayout) : ClassModel where
  methods := file.methods.items.map MemberInfo.method
  fields := file.fields.items.map MemberInfo.field
  annotations := file.attributes.annotations

end ClassLayout
end ClassFile
end Classpath
