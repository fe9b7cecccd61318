import Mathlib.Algebra.GroupWithZero.Nat
import Classpath.Proofs.ClassFile.PoolBuilding

/-!
# What a draft says

The class that a draft describes, read off the draft alone, and the conditions
under which nothing of it is cut when it is written.
-/

namespace Classpath
namespace ClassFile

namespace DraftOp

/-- The instruction that an operation stands for. -/
def instruction : DraftOp → Instruction
  | new name => .type .new name
  | anewarray name => .type .anewarray name
  | multianewarray name _ => .type .multianewarray name
  | checkcast name => .type .checkcast name
  | instanceof name => .type .instanceof name
  | invokestatic owner _ _ => .invoke .invokestatic owner
  | invokespecial owner _ _ => .invoke .invokespecial owner
  | invokevirtual _ _ _ => .plain 0xb6
  | getstatic owner _ _ => .field .getstatic owner
  | putstatic owner _ _ => .field .putstatic owner
  | getfield _ _ _ => .plain 0xb4
  | newIntArray => .plain 0xbc
  | dup => .plain 0x59
  | pop => .plain 0x57
  | loadNull => .plain 0x01
  | exit => .plain 0xb1

/-- The number of bytes an operation takes. -/
def size : DraftOp → Nat
  | new _ | anewarray _ | checkcast _ | instanceof _ => 3
  | multianewarray _ _ => 4
  | invokestatic _ _ _ | invokespecial _ _ _ | invokevirtual _ _ _ => 3
  | getstatic _ _ _ | putstatic _ _ _ | getfield _ _ _ => 3
  | newIntArray => 2
  | dup | pop | loadNull | exit => 1

def texts : DraftOp → List String
  | new name | anewarray name | multianewarray name _ | checkcast name | instanceof name => [name]
  | invokestatic owner name descriptor | invokespecial owner name descriptor
  | invokevirtual owner name descriptor | getstatic owner name descriptor
  | putstatic owner name descriptor | getfield owner name descriptor => [owner, name, descriptor]
  | newIntArray | dup | pop | loadNull | exit => []

end DraftOp

namespace LocalDraft

def localVariable (draft : LocalDraft) : LocalVariable := ⟨draft.descriptor, draft.signature⟩

def texts (draft : LocalDraft) : List String := draft.descriptor :: draft.signature.toList

end LocalDraft

namespace FieldDraft

def field (draft : FieldDraft) : Field :=
  ⟨draft.descriptor, draft.signature, draft.annotations⟩

def texts (draft : FieldDraft) : List String :=
  draft.name :: draft.descriptor :: (draft.signature.toList ++ draft.annotations)

end FieldDraft

namespace MethodDraft

/-- A method without operations has no body, and with it no local variables. -/
def method (draft : MethodDraft) : Method where
  name := draft.name
  descriptor := draft.descriptor
  instructions := draft.code.map DraftOp.instruction
  localVariables := if draft.code.isEmpty then [] else draft.locals.map LocalDraft.localVariable
  annotations := draft.annotations
  parameterAnnotations := draft.parameterAnnotations
  localVariableAnnotations := if draft.code.isEmpty then [] else draft.localAnnotations

def texts (draft : MethodDraft) : List String :=
  draft.name :: draft.descriptor :: (draft.code.flatMap DraftOp.texts ++
    draft.locals.flatMap LocalDraft.texts ++ draft.annotations ++
    draft.parameterAnnotations.flatten ++ draft.localAnnotations)

/-- The number of bytes of an attribute with rows of one width, which is left out
if there are none. -/
def tableSize (width rows : Nat) : Nat := if rows = 0 then 0 else 8 + width * rows

/-- The number of bytes of the code. -/
def codeSize (draft : MethodDraft) : Nat := (draft.code.map DraftOp.size).sum

/-- The number of bytes of the body. -/
def bodySize (draft : MethodDraft) : Nat :=
  12 + draft.codeSize + tableSize 10 draft.locals.length +
    tableSize 10 (draft.locals.filterMap LocalDraft.signature).length +
    tableSize 14 draft.localAnnotations.length

/-- Every count and length of the method fits in its field. -/
structure Fits (draft : MethodDraft) : Prop where
  locals : draft.locals.length < 65536
  annotations : draft.annotations.length < 65536
  parameters : draft.parameterAnnotations.length < 256
  parameterAnnotations : ∀ types ∈ draft.parameterAnnotations, types.length < 65536
  localAnnotations : draft.localAnnotations.length < 65536
  body : draft.bodySize < 4294967296

end MethodDraft

/-- The numbers that an encoded constant takes: its tag tells. -/
def slotsOfTag (constant : Bytes) : Nat :=
  if constant.head? = some 5 ∨ constant.head? = some 6 then 2 else 1

/-- The numbers that all constants of a builder take. -/
def PoolBuilder.slotCount (builder : PoolBuilder) : Nat :=
  (builder.entries.map fun entry => slotsOfTag entry.1).sum

namespace ClassDraft

def model (draft : ClassDraft) : ClassModel where
  methods := draft.methods.map MethodDraft.method
  fields := draft.fields.map FieldDraft.field
  annotations := draft.annotations.map ClassMark.type ++ draft.typeParameterAnnotations

def texts (draft : ClassDraft) : List String :=
  draft.name :: (draft.fields.flatMap FieldDraft.texts ++ draft.methods.flatMap MethodDraft.texts ++
    draft.annotations.map ClassMark.type ++ draft.typeParameterAnnotations)

/-- The pool once everything has asked for its constants. -/
def pool (draft : ClassDraft) : PoolBuilder := (draft.writeParts.run {}).2

/-- Nothing is cut when the draft is written: its texts can be stored, its
requests can be read back, and every count, length and number fits in its field. -/
structure Fits (draft : ClassDraft) : Prop where
  texts : ∀ text ∈ draft.texts, IsStorable text
  requests : ∀ request ∈ draft.requests, request.IsSound
  pool : draft.pool.slotCount + 1 < 65536
  annotations : draft.annotations.length < 65536
  typeParameterAnnotations : draft.typeParameterAnnotations.length < 65536
  fields : draft.fields.length < 65536
  fieldAnnotations : ∀ field ∈ draft.fields, field.annotations.length < 65536
  methods : draft.methods.length < 65536
  methodsFit : ∀ method ∈ draft.methods, method.Fits

end ClassDraft

/-! ## The size of the pool -/

theorem PoolEntry.slotsOfTag_bytes (entry : PoolEntry) :
    slotsOfTag entry.bytes = entry.slots.length := by
  obtain ⟨constant, bytes, spelling⟩ := entry
  cases spelling <;> rfl

theorem PoolBuilder.slotCount_ofEntries (entries : List PoolEntry) :
    (ofEntries entries).slotCount = (ConstantPool.slotsOf entries).length := by
  -- The numbers do not matter, only the bytes that they are given to.
  have hnumbered : ∀ next, ((numbered next entries).map fun entry => slotsOfTag entry.1).sum =
      (ConstantPool.slotsOf entries).length := by
    induction entries with
    | nil => intro next; rfl
    | cons entry rest ih =>
        intro next
        rw [numbered, List.map_cons, List.sum_cons, ih, PoolEntry.slotsOfTag_bytes,
          ConstantPool.slotsOf, ConstantPool.slotsOf, List.flatMap_cons, List.length_append]
  exact hnumbered 1

/-- The bytes of a builder that fits are those of the pool it stands for. -/
theorem PoolBuilder.toBytes_ofEntries {entries : List PoolEntry}
    (hfits : ConstantPool.Fits entries) :
    (ofEntries entries).toBytes = ConstantPool.entryBytes entries := by
  have hnext : indexBytes (ofEntries entries).next =
      u2Bytes ((ConstantPool.slotsOf entries).length + 1) := by
    have hvalue : (UInt16.ofNat (1 + (ConstantPool.slotsOf entries).length)).toNat =
        (ConstantPool.slotsOf entries).length + 1 := by
      rw [Nat.add_comm]
      exact Nat.mod_eq_of_lt hfits
    rw [indexBytes, ofEntries, hvalue]
  have hentries : ∀ next, (numbered next entries).flatMap (·.1) =
      (entries.map (·.bytes)).flatten := by
    clear hfits hnext
    induction entries with
    | nil => intro next; rfl
    | cons entry rest ih =>
        intro next
        rw [numbered, List.flatMap_cons, ih, List.map_cons, List.flatten_cons]
  rw [toBytes, hnext, ConstantPool.entryBytes]
  exact congrArg _ (hentries 1)

end ClassFile
end Classpath
