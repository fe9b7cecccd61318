import Classpath.Proofs.ClassFile.AnnotationTree

/-!
# Annotations on the use of a type, and their bytes

A type annotation says what it sits on, the path to the annotated part of the
type, and then is an annotation like any other.  The description of the target
has a length that depends on its kind.
-/

namespace Classpath
namespace ClassFile

open Writer (countedBytes)

/-- The bytes are one type annotation. -/
def ReadsTypeUse (pool : ConstantPool) (bytes : Bytes) (use : AnnotatedType) : Prop :=
  ReadsWithin (fun depth => AnnotatedType.readWithin depth pool) bytes use

theorem readsTypeUse {pool : ConstantPool} {kind steps : UInt8} {content path mark : Bytes}
    {type : String} (hcontent : Reads (AnnotatedType.skipTarget kind) content ())
    (hpath : path.length = steps.toNat * 2) (hmark : ReadsMark pool mark type) :
    ReadsTypeUse pool (kind :: (content ++ steps :: (path ++ mark))) ⟨kind, type⟩ := by
  intro depth hdepth
  have hdepth' : mark.length ≤ depth := by
    simp only [List.length_cons, List.length_append] at hdepth
    omega
  refine (Reads.u1 kind).bind (hcontent.bind ?_)
  refine (Reads.u1 steps).bind ((Reads.skip hpath).bind ?_)
  exact (hmark depth hdepth').map (AnnotatedType.mk kind)

theorem reads_typeUseList {pool : ConstantPool} {encoded : List Bytes} {uses : List AnnotatedType}
    (h : List.Forall₂ (ReadsTypeUse pool) encoded uses) (hlength : uses.length < 65536) :
    Reads (AnnotatedType.readList pool) (countedBytes encoded) uses :=
  ReadsWithin.list h hlength

/-! ## Targets -/

/-- What a type annotation sits on, with the data that describes the place. -/
inductive TypeTarget
  | classTypeParameter (position : UInt8)
  | methodTypeParameter (position : UInt8)
  | supertype (position : UInt16)
  | classTypeParameterBound (position bound : UInt8)
  | methodTypeParameterBound (position bound : UInt8)
  | field
  | result
  | receiver
  | formalParameter (position : UInt8)
  | thrown (position : UInt16)
  | localVariable (count : UInt16) (rows : Fin count.toNat → UInt16 × UInt16 × UInt16)
  | resourceVariable (count : UInt16) (rows : Fin count.toNat → UInt16 × UInt16 × UInt16)
  | caught (position : UInt16)
  | instanceof (offset : UInt16)
  | new (offset : UInt16)
  | constructorReference (offset : UInt16)
  | methodReference (offset : UInt16)
  | cast (offset : UInt16) (position : UInt8)
  | constructorCallArgument (offset : UInt16) (position : UInt8)
  | methodCallArgument (offset : UInt16) (position : UInt8)
  | constructorReferenceArgument (offset : UInt16) (position : UInt8)
  | methodReferenceArgument (offset : UInt16) (position : UInt8)

namespace TypeTarget

def kind : TypeTarget → UInt8
  | classTypeParameter _ => 0x00
  | methodTypeParameter _ => 0x01
  | supertype _ => 0x10
  | classTypeParameterBound _ _ => 0x11
  | methodTypeParameterBound _ _ => 0x12
  | field => 0x13
  | result => 0x14
  | receiver => 0x15
  | formalParameter _ => 0x16
  | thrown _ => 0x17
  | localVariable _ _ => 0x40
  | resourceVariable _ _ => 0x41
  | caught _ => 0x42
  | instanceof _ => 0x43
  | new _ => 0x44
  | constructorReference _ => 0x45
  | methodReference _ => 0x46
  | cast _ _ => 0x47
  | constructorCallArgument _ _ => 0x48
  | methodCallArgument _ _ => 0x49
  | constructorReferenceArgument _ _ => 0x4A
  | methodReferenceArgument _ _ => 0x4B

/-- Is this a local variable or a resource variable? -/
def isLocal : TypeTarget → Bool
  | localVariable _ _ | resourceVariable _ _ => true
  | _ => false

/-- Where a variable lives in the code, and its slot. -/
def rowBytes (row : UInt16 × UInt16 × UInt16) : Bytes :=
  indexBytes row.1 ++ indexBytes row.2.1 ++ indexBytes row.2.2

def tableBytes {count : Nat} (rows : Fin count → UInt16 × UInt16 × UInt16) : Bytes :=
  countedBytes ((List.ofFn rows).map rowBytes)

def content : TypeTarget → Bytes
  | classTypeParameter position | methodTypeParameter position | formalParameter position =>
      [position]
  | classTypeParameterBound position bound | methodTypeParameterBound position bound =>
      [position, bound]
  | field | result | receiver => []
  | supertype position | thrown position | caught position => indexBytes position
  | localVariable _ rows | resourceVariable _ rows => tableBytes rows
  | instanceof offset | new offset | constructorReference offset | methodReference offset =>
      indexBytes offset
  | cast offset position | constructorCallArgument offset position
  | methodCallArgument offset position | constructorReferenceArgument offset position
  | methodReferenceArgument offset position => indexBytes offset ++ [position]

theorem reads_rows {kind : UInt8} (hkind : kind = 0x40 ∨ kind = 0x41) {rows : List Bytes}
    (hrows : ∀ row ∈ rows, row.length = 6) (hlength : rows.length < 65536) :
    Reads (AnnotatedType.skipTarget kind) (countedBytes rows) () := by
  obtain ⟨count, hcount, hskip⟩ := Reads.table hrows hlength
  rcases hkind with rfl | rfl
  · exact hcount.bind hskip
  · exact hcount.bind hskip

theorem length_rowBytes (row : UInt16 × UInt16 × UInt16) : (rowBytes row).length = 6 := by
  simp only [rowBytes, List.length_append, length_indexBytes]

theorem reads_tableBytes {kind : UInt8} (hkind : kind = 0x40 ∨ kind = 0x41) {count : UInt16}
    (rows : Fin count.toNat → UInt16 × UInt16 × UInt16) :
    Reads (AnnotatedType.skipTarget kind) (tableBytes rows) () := by
  apply reads_rows hkind
  · intro row hrow
    obtain ⟨fields, _, rfl⟩ := List.mem_map.1 hrow
    exact length_rowBytes fields
  · rw [List.length_map, List.length_ofFn]
    exact count.toNat_lt

theorem reads_content (target : TypeTarget) :
    Reads (AnnotatedType.skipTarget target.kind) target.content () := by
  -- The kind selects how many bytes are skipped, or a table.
  cases target with
  | classTypeParameter position => exact Reads.skip (n := 1) rfl
  | methodTypeParameter position => exact Reads.skip (n := 1) rfl
  | supertype position => exact Reads.skip (length_indexBytes position)
  | classTypeParameterBound position bound => exact Reads.skip (n := 2) rfl
  | methodTypeParameterBound position bound => exact Reads.skip (n := 2) rfl
  | field => exact Reads.pure ()
  | result => exact Reads.pure ()
  | receiver => exact Reads.pure ()
  | formalParameter position => exact Reads.skip (n := 1) rfl
  | thrown position => exact Reads.skip (length_indexBytes position)
  | localVariable count rows => exact reads_tableBytes (.inl rfl) rows
  | resourceVariable count rows => exact reads_tableBytes (.inr rfl) rows
  | caught position => exact Reads.skip (length_indexBytes position)
  | instanceof offset => exact Reads.skip (length_indexBytes offset)
  | new offset => exact Reads.skip (length_indexBytes offset)
  | constructorReference offset => exact Reads.skip (length_indexBytes offset)
  | methodReference offset => exact Reads.skip (length_indexBytes offset)
  | cast offset position => exact Reads.skip (n := 3) rfl
  | constructorCallArgument offset position => exact Reads.skip (n := 3) rfl
  | methodCallArgument offset position => exact Reads.skip (n := 3) rfl
  | constructorReferenceArgument offset position => exact Reads.skip (n := 3) rfl
  | methodReferenceArgument offset position => exact Reads.skip (n := 3) rfl

/-- The kinds of target that the class-file format defines. -/
def definedKinds : List UInt8 :=
  [0x00, 0x01, 0x10, 0x11, 0x12, 0x13, 0x14, 0x15, 0x16, 0x17, 0x40, 0x41, 0x42, 0x43, 0x44, 0x45,
    0x46, 0x47, 0x48, 0x49, 0x4A, 0x4B]

/-- There is a target of every defined kind, and of no other. -/
theorem exists_kind_iff {kind : UInt8} :
    (∃ target : TypeTarget, target.kind = kind) ↔ kind ∈ definedKinds := by
  constructor
  · rintro ⟨target, rfl⟩
    cases target <;> simp [TypeTarget.kind, definedKinds]
  · intro h
    have htargets : kind ∈ [classTypeParameter 0, methodTypeParameter 0, supertype 0,
        classTypeParameterBound 0 0, methodTypeParameterBound 0 0, field, result, receiver,
        formalParameter 0, thrown 0, localVariable 0 fun i => i.elim0,
        resourceVariable 0 fun i => i.elim0, caught 0, instanceof 0, new 0, constructorReference 0,
        methodReference 0, cast 0 0, constructorCallArgument 0 0, methodCallArgument 0 0,
        constructorReferenceArgument 0 0, methodReferenceArgument 0 0].map TypeTarget.kind := h
    obtain ⟨target, _, htarget⟩ := List.mem_map.1 htargets
    exact ⟨target, htarget⟩

end TypeTarget

/-- A type annotation: its target, the path to the annotated part of the type as
pairs of a kind of step and a position, and the annotation. -/
structure TypeUse (pool : ConstantPool) where
  target : TypeTarget
  steps : UInt8
  path : Fin steps.toNat → UInt8 × UInt8
  mark : AnnotationTree pool

namespace TypeUse

variable {pool : ConstantPool}

def pathBytes {steps : Nat} (path : Fin steps → UInt8 × UInt8) : Bytes :=
  (List.ofFn path).flatMap fun step => [step.1, step.2]

def bytes (use : TypeUse pool) : Bytes :=
  use.target.kind ::
    (use.target.content ++ use.steps :: (pathBytes use.path ++ use.mark.bytes))

/-- What is kept of a type annotation. -/
def annotatedType (use : TypeUse pool) : AnnotatedType :=
  ⟨use.target.kind, use.mark.type.text⟩

theorem isOnLocal_annotatedType (use : TypeUse pool) :
    use.annotatedType.isOnLocal = use.target.isLocal := by
  obtain ⟨target, steps, path, mark⟩ := use
  cases target <;> rfl

theorem length_pathBytes {steps : Nat} (path : Fin steps → UInt8 × UInt8) :
    (pathBytes path).length = steps * 2 := by
  simp [pathBytes, List.length_flatMap, Function.comp_def]

theorem readsTypeUse (use : TypeUse pool) : ReadsTypeUse pool use.bytes use.annotatedType :=
  ClassFile.readsTypeUse use.target.reads_content (length_pathBytes use.path)
    use.mark.readsMark

theorem reads_uses (uses : List (TypeUse pool)) (hlength : uses.length < 65536) :
    Reads (AnnotatedType.readList pool) (countedBytes (uses.map bytes))
      (uses.map annotatedType) := by
  apply reads_typeUseList (forall₂_map_map fun use _ => use.readsTypeUse)
  rwa [List.length_map]

end TypeUse

/-- The lists of annotations on the parameters of a method, after their number. -/
def parameterBytes {pool : ConstantPool} (parameters : List (List (AnnotationTree pool))) : Bytes :=
  UInt8.ofNat parameters.length ::
    parameters.flatMap fun trees => countedBytes (trees.map AnnotationTree.bytes)

theorem reads_parameterBytes {pool : ConstantPool} {parameters : List (List (AnnotationTree pool))}
    (hlength : parameters.length < 256) (hlists : ∀ trees ∈ parameters, trees.length < 65536) :
    Reads (Annotations.readParameterLists pool) (parameterBytes parameters)
      (parameters.map fun trees => trees.map fun tree => tree.type.text) := by
  refine reads_parameterLists_map (fun trees htrees => ?_) hlength
  exact AnnotationTree.reads_trees trees (hlists trees htrees)

/-- However deep an annotation nests, reading takes its bytes and none of those that
follow, and yields the type of the outermost annotation.  Lists of annotations, lists for
each parameter and lists of type annotations on every kind of target are read the same
way, in order. -/
theorem annotations_take_their_bytes (pool : ConstantPool) :
    (∀ (tree : AnnotationTree pool) (depth : Nat) (rest : Bytes), tree.bytes.length ≤ depth →
      Annotations.readWithin depth pool (tree.bytes ++ rest) = .ok tree.type.text rest) ∧
    (∀ (trees : List (AnnotationTree pool)) (rest : Bytes), trees.length < 65536 →
      Annotations.readList pool (countedBytes (trees.map AnnotationTree.bytes) ++ rest) =
        .ok (trees.map fun tree => tree.type.text) rest) ∧
    (∀ (parameters : List (List (AnnotationTree pool))) (rest : Bytes),
      parameters.length < 256 → (∀ trees ∈ parameters, trees.length < 65536) →
      Annotations.readParameterLists pool (parameterBytes parameters ++ rest) =
        .ok (parameters.map fun trees => trees.map fun tree => tree.type.text) rest) ∧
    (∀ kind : UInt8, (∃ target : TypeTarget, target.kind = kind) ↔
      kind ∈ TypeTarget.definedKinds) ∧
    ∀ (uses : List (TypeUse pool)) (rest : Bytes), uses.length < 65536 →
      AnnotatedType.readList pool (countedBytes (uses.map TypeUse.bytes) ++ rest) =
        .ok (uses.map fun use => ⟨use.target.kind, use.mark.type.text⟩) rest := by
  refine ⟨fun tree depth rest hdepth => tree.readsMark depth hdepth rest,
    fun trees rest hlength => AnnotationTree.reads_trees trees hlength rest,
    fun parameters rest hlength hlists => reads_parameterBytes hlength hlists rest,
    fun kind => TypeTarget.exists_kind_iff, fun uses rest hlength => ?_⟩
  exact TypeUse.reads_uses uses hlength rest

/-- A pool with one text. -/
def singlePool : ConstantPool := ⟨[none, some (.utf8 "La;")]⟩

/-- An annotation with an array that holds another annotation. -/
def nestedMark : AnnotationTree singlePool :=
  let type : TextRef singlePool := ⟨1, "La;", rfl⟩
  { type, count := 1, names := fun _ => 7,
    values := fun _ => .array 1 fun _ => .nested type 0 (fun i => i.elim0) fun i => i.elim0 }

theorem nestedMark_takes_its_bytes :
    nestedMark.bytes.length ≤ 20 ∧
      Annotations.readWithin 20 singlePool (nestedMark.bytes ++ [0x40]) = .ok "La;" [0x40] := by
  have hlength : nestedMark.bytes.length ≤ 20 := by decide +kernel
  exact ⟨hlength, (annotations_take_their_bytes singlePool).1 nestedMark 20 [0x40] hlength⟩

end ClassFile
end Classpath
