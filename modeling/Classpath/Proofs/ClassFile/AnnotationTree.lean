import Classpath.Proofs.ClassFile.PoolEntries
import Mathlib.Data.List.OfFn

/-!
# Annotations and their bytes

An annotation is a tree: its element values are constants, annotations and
arrays of further values.  However deep the tree is, reading its bytes takes
exactly these bytes and keeps the type of the outermost annotation.
-/

namespace Classpath
namespace ClassFile

open Writer (tagged countedBytes)

/-- A reader with a bound on the depth reads the value from the bytes.  The bound
may be any number that is at least their length. -/
def ReadsWithin {α : Type} (reader : Nat → Reader α) (bytes : Bytes) (value : α) : Prop :=
  ∀ depth, bytes.length ≤ depth → Reads (reader depth) bytes value

/-- The bytes are one element value. -/
def ReadsValue (pool : ConstantPool) (bytes : Bytes) : Prop :=
  ReadsWithin (fun depth => Annotations.skipValueWithin depth pool) bytes ()

/-- The bytes are one annotation of a type. -/
def ReadsMark (pool : ConstantPool) (bytes : Bytes) (type : String) : Prop :=
  ReadsWithin (fun depth => Annotations.readWithin depth pool) bytes type

/-- The kinds of element value that refer to one constant. -/
inductive ValueKind
  | byte | char | double | float | int | long | short | boolean | string | classLiteral
deriving DecidableEq, Repr

def ValueKind.tag : ValueKind → Char
  | byte => 'B'
  | char => 'C'
  | double => 'D'
  | float => 'F'
  | int => 'I'
  | long => 'J'
  | short => 'S'
  | boolean => 'Z'
  | string => 's'
  | classLiteral => 'c'

theorem length_indexBytes (index : UInt16) : (indexBytes index).length = 2 :=
  length_bigEndianBytes 2 index.toNat

theorem length_countedBytes (items : List Bytes) :
    (countedBytes items).length = 2 + items.flatten.length := by
  rw [countedBytes, List.length_append, u2Bytes, length_bigEndianBytes]

namespace ReadsWithin

variable {α : Type} {reader : Nat → Reader α} {encoded : List Bytes} {values : List α}

/-- A bound for the bytes of all items is one for each of them. -/
theorem items (h : List.Forall₂ (ReadsWithin reader) encoded values) (depth : Nat)
    (hdepth : encoded.flatten.length ≤ depth) :
    List.Forall₂ (Reads (reader depth)) encoded values := by
  induction h with
  | nil => exact .nil
  | cons hfirst _ ih =>
      rw [List.flatten_cons, List.length_append] at hdepth
      exact .cons (hfirst depth (by omega)) (ih (by omega))

/-- A counted list of items is read with the number of bytes left as the bound. -/
theorem list (h : List.Forall₂ (ReadsWithin reader) encoded values)
    (hlength : values.length < 65536) :
    Reads (fun input => Reader.counted (reader (input.length + 1)) input) (countedBytes encoded)
      values := by
  intro rest
  have hdepth : encoded.flatten.length ≤ (countedBytes encoded ++ rest).length + 1 := by
    rw [List.length_append, length_countedBytes]
    omega
  exact Reads.counted (items h _ hdepth) hlength rest

end ReadsWithin

section Values

variable {pool : ConstantPool}

/-- A value is its tag and then what the tag asks for, one level further down. -/
theorem readsValue_of_content {tag : Char} {content : Bytes}
    (h : ∀ depth, content.length ≤ depth →
      Reads (Annotations.skipValueWithin (depth + 1) pool) (tagged tag content) ()) :
    ReadsValue pool (tagged tag content) := by
  intro depth hdepth
  -- The tag is one of the bytes, so the bound is not zero.
  rw [tagged, List.length_cons] at hdepth
  obtain ⟨below, rfl⟩ : ∃ below, depth = below + 1 := ⟨depth - 1, by omega⟩
  exact h below (by omega)

theorem readsValue_constant (kind : ValueKind) (index : UInt16) :
    ReadsValue pool (tagged kind.tag (indexBytes index)) := by
  apply readsValue_of_content
  intro depth _
  have htag : Annotations.isConstantTag (Char.ofNat (UInt8.ofNat kind.tag.toNat).toNat) = true := by
    cases kind <;> rfl
  rw [Annotations.skipValueWithin]
  refine (Reads.u1 _).bind ?_
  rw [if_pos htag]
  exact .skip (length_indexBytes index)

theorem readsValue_enum (type name : UInt16) :
    ReadsValue pool (tagged 'e' (indexBytes type ++ indexBytes name)) := by
  apply readsValue_of_content
  intro depth _
  rw [Annotations.skipValueWithin]
  refine (Reads.u1 _).bind ?_
  exact (Reads.skip (length_indexBytes type)).bind (.skip (length_indexBytes name))

theorem readsValue_nested {bytes : Bytes} {type : String} (h : ReadsMark pool bytes type) :
    ReadsValue pool (tagged '@' bytes) := by
  apply readsValue_of_content
  intro depth hdepth
  rw [Annotations.skipValueWithin]
  refine (Reads.u1 _).bind ?_
  exact (h depth hdepth).map fun _ => ()

theorem readsValue_array {items : List Bytes} (h : ∀ item ∈ items, ReadsValue pool item)
    (hlength : items.length < 65536) : ReadsValue pool (tagged '[' (countedBytes items)) := by
  apply readsValue_of_content
  intro depth hdepth
  rw [length_countedBytes] at hdepth
  have hitems := ReadsWithin.items (forall₂_map_map (f := id) (g := fun _ => ()) h) depth
    (by rw [List.map_id]; omega)
  rw [List.map_id] at hitems
  have hread := Reads.counted hitems (by rwa [List.length_map])
  rw [Annotations.skipValueWithin]
  refine (Reads.u1 _).bind ?_
  exact hread.map fun _ => ()

/-- An element of an annotation: the number of its name, then its value. -/
def elementBytes (element : UInt16 × Bytes) : Bytes := indexBytes element.1 ++ element.2

theorem readsMark {index : UInt16} {type : String} {elements : List (UInt16 × Bytes)}
    (htype : pool.text index = .ok type) (h : ∀ element ∈ elements, ReadsValue pool element.2)
    (hlength : elements.length < 65536) :
    ReadsMark pool (indexBytes index ++ countedBytes (elements.map elementBytes)) type := by
  intro depth hdepth
  rw [List.length_append, length_countedBytes] at hdepth
  -- An element is shorter than the annotation, so the same bound does for its value.
  have helement : ∀ element ∈ elements,
      ReadsWithin (fun depth => do
        Reader.skip 2
        Annotations.skipValueWithin depth pool) (elementBytes element) () := by
    intro element helement bound hbound
    rw [elementBytes, List.length_append] at hbound
    have hvalue := h element helement bound (by omega)
    exact (Reads.skip (length_indexBytes element.1)).bind hvalue
  have hitems := ReadsWithin.items (forall₂_map_map (g := fun _ => ()) helement) depth (by omega)
  have hread := Reads.counted hitems (by rwa [List.length_map])
  show Reads (Annotations.readWithin depth pool) _ type
  rw [Annotations.readWithin]
  refine (Reads.text htype).bind ?_
  exact hread.map fun _ => type

end Values

/-! ## Trees -/

/-- An element value.  Only the types of annotations in it refer to the pool in a
way that is checked. -/
inductive ElementValue (pool : ConstantPool)
  | constant (kind : ValueKind) (index : UInt16)
  | enum (type name : UInt16)
  | nested (type : TextRef pool) (count : UInt16) (names : Fin count.toNat → UInt16)
      (values : Fin count.toNat → ElementValue pool)
  | array (count : UInt16) (values : Fin count.toNat → ElementValue pool)

/-- An annotation: its type and its named element values. -/
structure AnnotationTree (pool : ConstantPool) where
  type : TextRef pool
  count : UInt16
  names : Fin count.toNat → UInt16
  values : Fin count.toNat → ElementValue pool

section Trees

variable {pool : ConstantPool}

/-- An annotation whose element values are already written. -/
def annotationBytes {count : Nat} (type : TextRef pool) (names : Fin count → UInt16)
    (values : Fin count → Bytes) : Bytes :=
  indexBytes type.index ++ countedBytes ((List.ofFn fun i => (names i, values i)).map elementBytes)

namespace ElementValue

def bytes : ElementValue pool → Bytes
  | constant kind index => tagged kind.tag (indexBytes index)
  | enum type name => tagged 'e' (indexBytes type ++ indexBytes name)
  | nested type _ names values =>
      tagged '@' (annotationBytes type names fun i => (values i).bytes)
  | array _ values => tagged '[' (countedBytes (List.ofFn fun i => (values i).bytes))

end ElementValue

def AnnotationTree.bytes (tree : AnnotationTree pool) : Bytes :=
  annotationBytes tree.type tree.names fun i => (tree.values i).bytes

theorem readsMark_of_values {count : UInt16} (type : TextRef pool)
    (names : Fin count.toNat → UInt16) {values : Fin count.toNat → Bytes}
    (h : ∀ i, ReadsValue pool (values i)) :
    ReadsMark pool (annotationBytes type names values) type.text := by
  apply readsMark (ConstantPool.text_of_holds type.holds)
  · intro element helement
    obtain ⟨i, rfl⟩ := List.mem_ofFn.1 helement
    exact h i
  · rw [List.length_ofFn]
    exact count.toNat_lt

/-- Every element value is passed over, however deep it nests. -/
theorem ElementValue.readsValue (value : ElementValue pool) : ReadsValue pool value.bytes := by
  induction value with
  | constant kind index => exact readsValue_constant kind index
  | enum type name => exact readsValue_enum type name
  | nested type count names values ih =>
      exact readsValue_nested (readsMark_of_values type names ih)
  | array count values ih =>
      apply readsValue_array
      · intro item hitem
        obtain ⟨i, rfl⟩ := List.mem_ofFn.1 hitem
        exact ih i
      · rw [List.length_ofFn]
        exact count.toNat_lt

theorem AnnotationTree.readsMark (tree : AnnotationTree pool) :
    ReadsMark pool tree.bytes tree.type.text :=
  readsMark_of_values tree.type tree.names fun i => (tree.values i).readsValue

/-! ## Lists of annotations -/

theorem reads_annotationList {marks : List Bytes} {types : List String}
    (h : List.Forall₂ (ReadsMark pool) marks types) (hlength : types.length < 65536) :
    Reads (Annotations.readList pool) (countedBytes marks) types :=
  ReadsWithin.list h hlength

theorem AnnotationTree.reads_trees (trees : List (AnnotationTree pool))
    (hlength : trees.length < 65536) :
    Reads (Annotations.readList pool) (countedBytes (trees.map bytes))
      (trees.map fun tree => tree.type.text) := by
  apply reads_annotationList (forall₂_map_map fun tree _ => tree.readsMark)
  rwa [List.length_map]

/-- The annotations on each parameter, after the number of parameters in one byte. -/
theorem reads_parameterLists {lists : List Bytes} {types : List (List String)}
    (h : List.Forall₂ (Reads (Annotations.readList pool)) lists types)
    (hlength : types.length < 256) :
    Reads (Annotations.readParameterLists pool) (UInt8.ofNat types.length :: lists.flatten)
      types := by
  have hcount : (UInt8.ofNat types.length).toNat = types.length := Nat.mod_eq_of_lt hlength
  refine (Reads.u1 _).bind ?_
  rw [hcount]
  exact .times h

theorem reads_parameterLists_map {α : Type} {encode : α → Bytes} {typesOf : α → List String}
    {lists : List α}
    (h : ∀ list ∈ lists, Reads (Annotations.readList pool) (encode list) (typesOf list))
    (hlength : lists.length < 256) :
    Reads (Annotations.readParameterLists pool)
      (UInt8.ofNat lists.length :: lists.flatMap encode) (lists.map typesOf) := by
  have hread := reads_parameterLists (forall₂_map_map h) (by rwa [List.length_map])
  rwa [List.length_map, ← List.flatMap_def] at hread

end Trees

end ClassFile
end Classpath
