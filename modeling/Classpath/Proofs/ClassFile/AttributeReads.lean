import Classpath.Proofs.ClassFile.CodeLayout
import Classpath.Proofs.ClassFile.TypeUse
import Classpath.ClassFile.Decode

/-!
# Attributes, members and their bytes

An attribute is the number of its name, the length of its content and the
content.  What a field, a method or a class is read as depends only on what its
attributes are read as.
-/

namespace Classpath
namespace ClassFile

open Writer (countedBytes)

/-- An attribute whose name has a given number. -/
def attributeBytes (name : UInt16) (content : Bytes) : Bytes :=
  indexBytes name ++ u4Bytes content.length ++ content

section Attributes

variable {pool : ConstantPool} {index : UInt16} {name : String} {content : Bytes}

theorem reads_rawAttribute (hname : pool.text index = .ok name)
    (hlength : content.length < 4294967296) :
    Reads (readRawAttribute pool) (attributeBytes index content) (name, content) := by
  have hcount : (UInt32.ofNat content.length).toNat = content.length := Nat.mod_eq_of_lt hlength
  rw [attributeBytes, List.append_assoc]
  refine (Reads.index index).bind ((Reads.u4 content.length).bind ?_)
  rw [hcount]
  refine ((Reads.bytes content).bind ?_).of_eq (List.append_nil content)
  exact (Reads.ofExcept hname).map fun name => (name, content)

theorem CodeAttribute.reads {attr : CodeAttribute} (hname : pool.text index = .ok name)
    (hlength : content.length < 4294967296)
    (hcontent : CodeAttribute.decode pool name content = .ok attr) :
    Reads (CodeAttribute.read pool) (attributeBytes index content) attr :=
  ((reads_rawAttribute hname hlength).bind (.ofExcept hcontent)).of_eq (List.append_nil _)

theorem Attribute.reads {attr : Attribute} (hname : pool.text index = .ok name)
    (hlength : content.length < 4294967296)
    (hcontent : Attribute.decode pool name content = .ok attr) :
    Reads (Attribute.read pool) (attributeBytes index content) attr :=
  ((reads_rawAttribute hname hlength).bind (.ofExcept hcontent)).of_eq (List.append_nil _)

end Attributes

/-! ## Contents by name -/

theorem onContent_map {α β : Type} {part : Part} {reader : Reader α} {content : Bytes} {value : α}
    (h : Reads reader content value) (f : α → β) :
    f <$> onContent part reader content = .ok (f value) := by
  rw [h.onContent part]
  rfl

namespace CodeAttribute

variable {pool : ConstantPool} {name : String} {content : Bytes}

/-- The attributes of a body that are decoded. -/
def knownNames : List String :=
  ["LocalVariableTable", "LocalVariableTypeTable", "RuntimeVisibleTypeAnnotations",
    "RuntimeInvisibleTypeAnnotations"]

theorem decode_describedLocals {entries : List LocalEntry}
    (h : Reads (LocalEntry.readList pool) content entries) :
    decode pool "LocalVariableTable" content = .ok (.describedLocals entries) := by
  exact onContent_map h describedLocals

theorem decode_typedLocals {entries : List LocalEntry}
    (h : Reads (LocalEntry.readList pool) content entries) :
    decode pool "LocalVariableTypeTable" content = .ok (.typedLocals entries) := by
  exact onContent_map h typedLocals

theorem decode_typeAnnotations {uses : List AnnotatedType}
    (h : Reads (AnnotatedType.readList pool) content uses)
    (hname : name = "RuntimeVisibleTypeAnnotations" ∨ name = "RuntimeInvisibleTypeAnnotations") :
    decode pool name content = .ok (.typeAnnotations uses) := by
  rcases hname with rfl | rfl
  · exact onContent_map h typeAnnotations
  · exact onContent_map h typeAnnotations

theorem decode_other (hname : name ∉ knownNames) : decode pool name content = .ok .other := by
  rw [decode, Kind.ofName, decodeAs]
  -- The name is none of those that come before the last case.
  all_goals
    rintro rfl
    exact hname (by decide)

end CodeAttribute

namespace Attribute

variable {pool : ConstantPool} {name : String} {content : Bytes}

/-- The attributes of a class, field or method that are decoded. -/
def knownNames : List String :=
  ["Signature", "RuntimeVisibleAnnotations", "RuntimeInvisibleAnnotations",
    "RuntimeVisibleParameterAnnotations", "RuntimeInvisibleParameterAnnotations",
    "RuntimeVisibleTypeAnnotations", "RuntimeInvisibleTypeAnnotations", "Code"]

theorem decode_signature {text : String} (h : Reads (Reader.text pool) content text) :
    decode pool "Signature" content = .ok (.signature text) := by
  exact onContent_map h signature

theorem decode_annotations {types : List String}
    (h : Reads (Annotations.readList pool) content types)
    (hname : name = "RuntimeVisibleAnnotations" ∨ name = "RuntimeInvisibleAnnotations") :
    decode pool name content = .ok (.annotations types) := by
  rcases hname with rfl | rfl
  · exact onContent_map h annotations
  · exact onContent_map h annotations

theorem decode_parameterAnnotations {types : List (List String)}
    (h : Reads (Annotations.readParameterLists pool) content types)
    (hname : name = "RuntimeVisibleParameterAnnotations" ∨
      name = "RuntimeInvisibleParameterAnnotations") :
    decode pool name content = .ok (.parameterAnnotations types) := by
  rcases hname with rfl | rfl
  · exact onContent_map h parameterAnnotations
  · exact onContent_map h parameterAnnotations

theorem decode_typeAnnotations {uses : List AnnotatedType}
    (h : Reads (AnnotatedType.readList pool) content uses)
    (hname : name = "RuntimeVisibleTypeAnnotations" ∨ name = "RuntimeInvisibleTypeAnnotations") :
    decode pool name content = .ok (.typeAnnotations uses) := by
  rcases hname with rfl | rfl
  · exact onContent_map h typeAnnotations
  · exact onContent_map h typeAnnotations

theorem decode_code {body : Body} (h : Reads (Body.read pool) content body) :
    decode pool "Code" content = .ok (.code body) := by
  exact onContent_map h code

theorem decode_other (hname : name ∉ knownNames) : decode pool name content = .ok .other := by
  rw [decode, Kind.ofName, decodeAs]
  -- The name is none of those that come before the last case.
  all_goals
    rintro rfl
    exact hname (by decide)

end Attribute

/-! ## Method bodies -/

section Bodies

variable {pool : ConstantPool}

theorem LocalEntry.reads {name text : UInt16} {nameText value : String} (start length slot : Nat)
    (hname : pool.text name = .ok nameText) (htext : pool.text text = .ok value) :
    Reads (LocalEntry.read pool)
      (u2Bytes start ++ u2Bytes length ++ indexBytes name ++ indexBytes text ++ u2Bytes slot)
      ⟨.ofNat start, .ofNat length, .ofNat slot, value⟩ := by
  simp only [List.append_assoc]
  refine (Reads.u2 start).bind ((Reads.u2 length).bind ?_)
  refine (Reads.text hname).bind ((Reads.text htext).bind ?_)
  exact (Reads.u2 slot).map fun slot => LocalEntry.mk (.ofNat start) (.ofNat length) slot value

/-- The content of an attribute that holds a body. -/
def bodyBytes (maxStack maxLocals : Nat) (code : Bytes) (handlers attributes : List Bytes) :
    Bytes :=
  u2Bytes maxStack ++ (u2Bytes maxLocals ++ (u4Bytes code.length ++ (code ++
    (countedBytes handlers ++ countedBytes attributes))))

/-- What is kept of a body with given instructions and attributes. -/
def Body.ofAttributes (instructions : List Instruction) (attributes : List CodeAttribute) : Body where
  instructions := instructions
  localVariables := mergeLocals (attributes.flatMap CodeAttribute.describedEntries)
    (attributes.flatMap CodeAttribute.typedEntries)
  localVariableAnnotations := attributes.flatMap CodeAttribute.localAnnotations

theorem Body.reads (maxStack maxLocals : Nat) {code : Bytes} {instructions : List Instruction}
    {handlers attributes : List Bytes} {values : List CodeAttribute}
    (hcode : Spells pool 0 code instructions) (hcodeLength : code.length < 4294967296)
    (hhandlers : ∀ row ∈ handlers, row.length = 8) (hhandlersLength : handlers.length < 65536)
    (hattributes : List.Forall₂ (Reads (CodeAttribute.read pool)) attributes values)
    (hlength : values.length < 65536) :
    Reads (Body.read pool) (bodyBytes maxStack maxLocals code handlers attributes)
      (Body.ofAttributes instructions values) := by
  have hcount : (UInt32.ofNat code.length).toNat = code.length := Nat.mod_eq_of_lt hcodeLength
  obtain ⟨rows, hrows, hskip⟩ := Reads.table hhandlers hhandlersLength
  refine (Reads.u2 maxStack).bind ((Reads.u2 maxLocals).bind ((Reads.u4 code.length).bind ?_))
  rw [hcount, countedBytes, List.append_assoc]
  refine (Reads.bytes code).bind ((Reads.ofExcept hcode.instructionsFrom).bind_nil ?_)
  refine hrows.bind (hskip.bind ?_)
  exact (Reads.counted hattributes hlength).map (Body.ofAttributes instructions)

end Bodies

/-! ## Members and classes -/

section Members

variable {pool : ConstantPool} {name descriptor : UInt16} {nameText descriptorText : String}
  {attributes : List Bytes} {values : List Attribute}

/-- A field or a method. -/
def memberBytes (flags : Nat) (name descriptor : UInt16) (attributes : List Bytes) : Bytes :=
  u2Bytes flags ++ indexBytes name ++ indexBytes descriptor ++ countedBytes attributes

/-- What is kept of a field with given attributes. -/
def fieldOf (descriptor : String) (attributes : List Attribute) : Field where
  descriptor := descriptor
  signature := lastSignature? attributes
  annotations := allAnnotations attributes

/-- What is kept of a method with given attributes. -/
def methodOf (name descriptor : String) (attributes : List Attribute) : Method where
  name := name
  descriptor := descriptor
  instructions := (lastBody attributes).instructions
  localVariables := (lastBody attributes).localVariables
  annotations := allAnnotations attributes
  parameterAnnotations := allParameterAnnotations attributes
  localVariableAnnotations := (lastBody attributes).localVariableAnnotations

theorem reads_field (flags : Nat) (hname : pool.text name = .ok nameText)
    (hdescriptor : pool.text descriptor = .ok descriptorText)
    (hattributes : List.Forall₂ (Reads (Attribute.read pool)) attributes values)
    (hlength : values.length < 65536) :
    Reads (readField pool) (memberBytes flags name descriptor attributes)
      (fieldOf descriptorText values) := by
  simp only [memberBytes, List.append_assoc]
  refine (Reads.u2 flags).bind ((Reads.text hname).bind ((Reads.text hdescriptor).bind ?_))
  exact (Reads.counted hattributes hlength).map (fieldOf descriptorText)

theorem reads_method (flags : Nat) (hname : pool.text name = .ok nameText)
    (hdescriptor : pool.text descriptor = .ok descriptorText)
    (hattributes : List.Forall₂ (Reads (Attribute.read pool)) attributes values)
    (hlength : values.length < 65536) :
    Reads (readMethod pool) (memberBytes flags name descriptor attributes)
      (methodOf nameText descriptorText values) := by
  simp only [memberBytes, List.append_assoc]
  refine (Reads.u2 flags).bind ((Reads.text hname).bind ((Reads.text hdescriptor).bind ?_))
  exact (Reads.counted hattributes hlength).map (methodOf nameText descriptorText)

end Members

/-- A class file, given the bytes of its pool and of its parts. -/
def classBytes (minor major : Nat) (pool : Bytes) (flags : Nat) (thisClass superClass : UInt16)
    (interfaces fields methods attributes : List Bytes) : Bytes :=
  u4Bytes 0xCAFEBABE ++ (u2Bytes minor ++ (u2Bytes major ++ (pool ++ (u2Bytes flags ++
    (indexBytes thisClass ++ (indexBytes superClass ++ (countedBytes interfaces ++
      (countedBytes fields ++ (countedBytes methods ++ countedBytes attributes)))))))))

theorem decode_classBytes (minor major flags : Nat) {poolBytes : Bytes} {pool : ConstantPool}
    {thisClass : UInt16} (superClass : UInt16) {name : String}
    {interfaces fieldBytes methodBytes attributes : List Bytes} {fields : List Field}
    {methods : List Method} {values : List Attribute}
    (hpool : Reads ConstantPool.read poolBytes pool) (hname : pool.className thisClass = .ok name)
    (hinterfaces : ∀ row ∈ interfaces, row.length = 2) (hinterfacesLength : interfaces.length < 65536)
    (hfields : List.Forall₂ (Reads (readField pool)) fieldBytes fields)
    (hfieldsLength : fields.length < 65536)
    (hmethods : List.Forall₂ (Reads (readMethod pool)) methodBytes methods)
    (hmethodsLength : methods.length < 65536)
    (hattributes : List.Forall₂ (Reads (Attribute.read pool)) attributes values)
    (hlength : values.length < 65536) :
    decode (classBytes minor major poolBytes flags thisClass superClass interfaces fieldBytes
        methodBytes attributes) =
      .ok ⟨name, .ofNat major, { methods, fields, annotations := allAnnotations values }⟩ := by
  apply Reads.onWhole
  obtain ⟨rows, hrows, hskip⟩ := Reads.table hinterfaces hinterfacesLength
  refine (Reads.u4 0xCAFEBABE).bind ?_
  refine (Reads.u2 minor).bind ((Reads.u2 major).bind (hpool.bind ((Reads.u2 flags).bind ?_)))
  refine (Reads.className hname).bind ((Reads.index superClass).bind ?_)
  rw [countedBytes, List.append_assoc]
  refine hrows.bind (hskip.bind ((Reads.counted hfields hfieldsLength).bind ?_))
  refine (Reads.counted hmethods hmethodsLength).bind ?_
  exact (Reads.counted hattributes hlength).map fun values => DecodedClass.mk name (.ofNat major)
    { methods, fields, annotations := allAnnotations values }

end ClassFile
end Classpath
