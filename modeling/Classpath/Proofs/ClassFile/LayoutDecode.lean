import Classpath.Proofs.ClassFile.Layout

/-!
# Decoding keeps what a class file says

Main statement: every class file decodes, and what is kept of it is its `model`,
whatever attributes it has, in whatever order and however often.
-/

namespace Classpath
namespace ClassFile

open Writer (countedBytes)

/-! ## Joining lists position by position -/

section Positions

variable {α : Type}

theorem joinPositions_nil (xs : List (List α)) : joinPositions xs [] = xs := by
  cases xs <;> rfl

theorem length_joinPositions (xs ys : List (List α)) :
    (joinPositions xs ys).length = max xs.length ys.length := by
  fun_induction joinPositions xs ys with
  | case1 ys => simp
  | case2 xs => simp
  | case3 x xs y ys ih => simp [ih]

theorem getD_joinPositions (xs ys : List (List α)) (position : Nat) :
    (joinPositions xs ys).getD position [] = xs.getD position [] ++ ys.getD position [] := by
  fun_induction joinPositions xs ys generalizing position with
  | case1 ys => simp
  | case2 xs => simp
  | case3 x xs y ys ih =>
      cases position with
      | zero => simp
      | succ position => simpa using ih position

theorem joinPositions_assoc (xs ys zs : List (List α)) :
    joinPositions (joinPositions xs ys) zs = joinPositions xs (joinPositions ys zs) := by
  -- At each position both sides append the same three lists.
  apply List.ext_getElem
  · simp only [length_joinPositions, Nat.max_assoc]
  · intro position hleft hright
    rw [List.getElem_eq_getD [], List.getElem_eq_getD []]
    simp only [getD_joinPositions, List.append_assoc]

theorem length_le_longest {lists : List (List (List α))} {list : List (List α)}
    (h : list ∈ lists) : list.length ≤ (lists.map List.length).foldr max 0 := by
  induction lists with
  | nil => cases h
  | cons first lists ih =>
      rw [List.map_cons, List.foldr_cons]
      rcases List.mem_cons.1 h with rfl | hrest
      · exact Nat.le_max_left _ _
      · exact Nat.le_trans (ih hrest) (Nat.le_max_right _ _)

/-- Beyond the longest list nothing is left to join. -/
theorem getD_concatByPosition (lists : List (List (List α))) (position : Nat) :
    (concatByPosition lists).getD position [] =
      lists.flatMap fun list => list.getD position [] := by
  by_cases h : position < (lists.map List.length).foldr max 0
  · simp [concatByPosition, List.getD_eq_getElem?_getD, h]
  · have hempty : ∀ list ∈ lists, list.getD position [] = [] := by
      intro list hlist
      have hlength := length_le_longest hlist
      rw [List.getD_eq_getElem?_getD, List.getElem?_eq_none (by omega), Option.getD_none]
    have hright : (lists.flatMap fun list => list.getD position []) = [] :=
      List.flatMap_eq_nil_iff.2 hempty
    have hlength : (concatByPosition lists).length ≤ position := by
      simp only [concatByPosition, List.length_map, List.length_range]
      omega
    rw [hright, List.getD_eq_getElem?_getD, List.getElem?_eq_none hlength, Option.getD_none]

theorem concatByPosition_cons (list : List (List α)) (lists : List (List (List α))) :
    concatByPosition (list :: lists) = joinPositions list (concatByPosition lists) := by
  apply List.ext_getElem
  · simp [length_joinPositions, concatByPosition]
  · intro position hleft hright
    rw [List.getElem_eq_getD [], List.getElem_eq_getD []]
    simp only [getD_joinPositions, getD_concatByPosition, List.flatMap_cons]

theorem foldl_joinPositions (start : List (List α)) (lists : List (List (List α))) :
    lists.foldl joinPositions start = joinPositions start (concatByPosition lists) := by
  induction lists generalizing start with
  | nil => exact (joinPositions_nil start).symm
  | cons list lists ih =>
      rw [List.foldl_cons, ih, joinPositions_assoc, concatByPosition_cons]

end Positions

/-! ## Method bodies -/

section Bodies

variable {pool : ConstantPool}

theorem LocalRow.reads (row : LocalRow pool) :
    Reads (LocalEntry.read pool) row.bytes row.entry := by
  have h := LocalEntry.reads row.start.toNat row.length.toNat row.slot.toNat
    (ConstantPool.text_of_holds row.name.holds) (ConstantPool.text_of_holds row.text.holds)
  simp only [UInt16.ofNat_toNat] at h
  exact h

theorem Counted.reads {α β : Type} {item : Reader β} {encode : α → Bytes} {value : α → β}
    (list : Counted α) (h : ∀ x, Reads item (encode x) (value x)) :
    Reads (Reader.counted item) (list.bytes encode) (list.items.map value) := by
  apply Reads.counted (forall₂_map_map fun x _ => h x)
  rw [List.length_map]
  exact list.fits

theorem TypeUse.reads_list (uses : Counted (TypeUse pool)) :
    Reads (AnnotatedType.readList pool) (uses.bytes TypeUse.bytes)
      (uses.items.map TypeUse.annotatedType) :=
  reads_uses uses.items uses.fits

namespace CodeContent

/-- What an attribute of a body is decoded as. -/
def value : CodeContent pool → CodeAttribute
  | describedLocals rows => .describedLocals (rows.items.map LocalRow.entry)
  | typedLocals rows => .typedLocals (rows.items.map LocalRow.entry)
  | typeAnnotations _ uses => .typeAnnotations (uses.items.map TypeUse.annotatedType)
  | other _ _ _ => .other

theorem decode_bytes (content : CodeContent pool) :
    CodeAttribute.decode pool content.name content.bytes = .ok content.value := by
  cases content with
  | describedLocals rows => exact CodeAttribute.decode_describedLocals (rows.reads LocalRow.reads)
  | typedLocals rows => exact CodeAttribute.decode_typedLocals (rows.reads LocalRow.reads)
  | typeAnnotations visible uses =>
      apply CodeAttribute.decode_typeAnnotations (TypeUse.reads_list uses)
      cases visible <;> simp [name]
  | other name unknown content => exact CodeAttribute.decode_other unknown

theorem describedEntries_value (content : CodeContent pool) :
    content.value.describedEntries = content.describedRows := by
  cases content <;> rfl

theorem typedEntries_value (content : CodeContent pool) :
    content.value.typedEntries = content.typedRows := by
  cases content <;> rfl

theorem localAnnotations_value (content : CodeContent pool) :
    content.value.localAnnotations = content.localAnnotations := by
  cases content with
  | typeAnnotations visible uses =>
      simp only [value, localAnnotations, CodeAttribute.localAnnotations, List.filter_map,
        List.map_map, Function.comp_def, TypeUse.isOnLocal_annotatedType]
      rfl
  | describedLocals rows => rfl
  | typedLocals rows => rfl
  | other name unknown content => rfl

end CodeContent

theorem CodeInfo.length_handlerBytes (handler : UInt16 × UInt16 × UInt16 × UInt16) :
    (handlerBytes handler).length = 8 := by
  simp only [handlerBytes, List.length_append, length_indexBytes]

/-- What a body is decoded as. -/
def CodeInfo.body (info : CodeInfo pool) : Body where
  instructions := info.instructions
  localVariables := info.localVariables
  localVariableAnnotations := info.localAnnotations

theorem CodeInfo.ofAttributes_contents (info : CodeInfo pool) :
    Body.ofAttributes info.instructions (info.contents.map CodeContent.value) = info.body := by
  simp only [Body.ofAttributes, mergeLocals_eq_pairedLocals, List.flatMap_map,
    CodeContent.describedEntries_value, CodeContent.typedEntries_value,
    CodeContent.localAnnotations_value]
  rfl

theorem CodeInfo.reads (info : CodeInfo pool) : Reads (Body.read pool) info.bytes info.body := by
  rw [← info.ofAttributes_contents]
  apply Body.reads _ _ info.spells info.fits
  · intro row hrow
    obtain ⟨handler, _, rfl⟩ := List.mem_map.1 hrow
    exact length_handlerBytes handler
  · rw [List.length_map]
    exact info.handlers.fits
  · rw [CodeInfo.contents, List.map_map]
    apply forall₂_map_map
    intro attached _
    apply CodeAttribute.reads (ConstantPool.text_of_holds attached.nameRef.holds) attached.fits
    rw [attached.named]
    exact attached.content.decode_bytes
  · rw [CodeInfo.contents, List.length_map, List.length_map]
    exact info.attributes.fits

end Bodies

/-! ## Members -/

section Members

variable {pool : ConstantPool}

theorem AnnotationTree.reads_list (marks : Counted (AnnotationTree pool)) :
    Reads (Annotations.readList pool) (marks.bytes AnnotationTree.bytes) (Content.typesOf marks) :=
  reads_trees marks.items marks.fits

namespace Content

/-- What an attribute is decoded as. -/
def value : Content pool → Attribute
  | signature text => .signature text.text
  | annotations _ marks => .annotations (typesOf marks)
  | parameterAnnotations _ lists _ => .parameterAnnotations (lists.map typesOf)
  | typeAnnotations _ uses => .typeAnnotations (uses.items.map TypeUse.annotatedType)
  | code info => .code info.body
  | other _ _ _ => .other

theorem reads_parameters {lists : List (Counted (AnnotationTree pool))} (fits : lists.length < 256)
    (visible : Bool) :
    Reads (Annotations.readParameterLists pool) (parameterAnnotations visible lists fits).bytes
      (lists.map typesOf) :=
  reads_parameterLists_map (fun marks _ => AnnotationTree.reads_list marks) fits

theorem decode_bytes (content : Content pool) :
    Attribute.decode pool content.name content.bytes = .ok content.value := by
  cases content with
  | signature text => exact Attribute.decode_signature text.reads
  | annotations visible marks =>
      apply Attribute.decode_annotations (AnnotationTree.reads_list marks)
      cases visible <;> simp [name]
  | parameterAnnotations visible lists fits =>
      apply Attribute.decode_parameterAnnotations (reads_parameters fits visible)
      cases visible <;> simp [name]
  | typeAnnotations visible uses =>
      apply Attribute.decode_typeAnnotations (TypeUse.reads_list uses)
      cases visible <;> simp [name]
  | code info => exact Attribute.decode_code info.reads
  | other name unknown content => exact Attribute.decode_other unknown

theorem signature?_value (content : Content pool) :
    content.value.signature? = content.signature? := by
  cases content <;> rfl

theorem body?_value (content : Content pool) :
    content.value.body? = content.code?.map CodeInfo.body := by
  cases content <;> rfl

theorem ownAnnotations_value (content : Content pool) :
    content.value.ownAnnotations = content.ownAnnotations := by
  cases content <;> rfl

theorem annotationsOnTypes_value (content : Content pool) :
    content.value.annotationsOnTypes = content.annotationsOnTypes := by
  cases content with
  | typeAnnotations visible uses => exact List.map_map
  | _ => rfl

theorem annotationsOnParameters_value (content : Content pool) :
    content.value.annotationsOnParameters = content.annotationsOnParameters := by
  cases content <;> rfl

end Content

namespace AttributeList

/-- What the attributes are decoded as. -/
def values (attributes : AttributeList pool) : List Attribute :=
  attributes.contents.map Content.value

theorem reads (attributes : AttributeList pool) :
    List.Forall₂ (Reads (Attribute.read pool)) (attributes.items.map Attached.bytes)
      attributes.values := by
  rw [values, contents, List.map_map]
  apply forall₂_map_map
  intro attached _
  apply Attribute.reads (ConstantPool.text_of_holds attached.nameRef.holds) attached.fits
  rw [attached.named]
  exact attached.content.decode_bytes

theorem length_values (attributes : AttributeList pool) : attributes.values.length < 65536 := by
  rw [values, contents, List.length_map, List.length_map]
  exact attributes.fits

theorem allAnnotations_values (attributes : AttributeList pool) :
    allAnnotations attributes.values = attributes.annotations := by
  simp only [allAnnotations, values, List.flatMap_map, Content.ownAnnotations_value,
    Content.annotationsOnTypes_value]
  rfl

theorem lastSignature?_values (attributes : AttributeList pool) :
    ClassFile.lastSignature? attributes.values = attributes.lastSignature? := by
  simp only [ClassFile.lastSignature?, values, List.filterMap_map, Function.comp_def,
    Content.signature?_value]
  rfl

theorem lastBody_values (attributes : AttributeList pool) :
    lastBody attributes.values = (attributes.lastCode?.map CodeInfo.body).getD {} := by
  have hbodies : attributes.values.filterMap Attribute.body? =
      (attributes.contents.filterMap Content.code?).map CodeInfo.body := by
    simp only [values, List.filterMap_map, Function.comp_def, Content.body?_value,
      List.map_filterMap]
  rw [lastBody, hbodies, List.getLast?_map]
  rfl

theorem allParameterAnnotations_values (attributes : AttributeList pool) :
    allParameterAnnotations attributes.values = attributes.parameterAnnotations := by
  -- Attributes that hold no parameter annotations are joined as empty lists.
  have hfold : allParameterAnnotations attributes.values =
      (attributes.contents.map Content.annotationsOnParameters).foldl joinPositions [] := by
    simp only [allParameterAnnotations, values, List.foldl_map,
      Content.annotationsOnParameters_value]
  rw [hfold, foldl_joinPositions]
  rfl

end AttributeList

namespace MemberInfo

theorem fieldOf_values (info : MemberInfo pool) :
    fieldOf info.descriptor.text info.attributes.values = info.field := by
  rw [fieldOf, AttributeList.lastSignature?_values, AttributeList.allAnnotations_values]
  rfl

theorem methodOf_values (info : MemberInfo pool) :
    methodOf info.name.text info.descriptor.text info.attributes.values = info.method := by
  rw [methodOf, AttributeList.lastBody_values, AttributeList.allAnnotations_values,
    AttributeList.allParameterAnnotations_values, MemberInfo.method]
  cases info.attributes.lastCode? <;> rfl

theorem reads_field (info : MemberInfo pool) :
    Reads (readField pool) info.bytes info.field := by
  rw [← info.fieldOf_values]
  exact ClassFile.reads_field _ (ConstantPool.text_of_holds info.name.holds)
    (ConstantPool.text_of_holds info.descriptor.holds) info.attributes.reads
    info.attributes.length_values

theorem reads_method (info : MemberInfo pool) :
    Reads (readMethod pool) info.bytes info.method := by
  rw [← info.methodOf_values]
  exact ClassFile.reads_method _ (ConstantPool.text_of_holds info.name.holds)
    (ConstantPool.text_of_holds info.descriptor.holds) info.attributes.reads
    info.attributes.length_values

theorem reads_fields (infos : List (MemberInfo pool)) :
    List.Forall₂ (Reads (readField pool)) (infos.map bytes) (infos.map field) :=
  forall₂_map_map fun info _ => info.reads_field

theorem reads_methods (infos : List (MemberInfo pool)) :
    List.Forall₂ (Reads (readMethod pool)) (infos.map bytes) (infos.map method) :=
  forall₂_map_map fun info _ => info.reads_method

end MemberInfo

end Members

/-! ## Whole files -/

namespace ClassLayout

theorem decode_bytes (file : ClassLayout) :
    decode file.bytes = .ok ⟨file.thisClass.name.text, file.major, file.model⟩ := by
  have hname := ConstantPool.className_of_holds file.thisClass.holds file.thisClass.name.holds
  have hinterfaces : ∀ row ∈ file.interfaces.items.map indexBytes, row.length = 2 := by
    intro row hrow
    obtain ⟨index, _, rfl⟩ := List.mem_map.1 hrow
    exact length_indexBytes index
  have hfields := MemberInfo.reads_fields file.fields.items
  have hmethods := MemberInfo.reads_methods file.methods.items
  have h := decode_classBytes file.minor.toNat file.major.toNat file.flags.toNat file.superClass
    (ConstantPool.reads_ofEntries file.fits) hname hinterfaces
    (by rw [List.length_map]; exact file.interfaces.fits) hfields
    (by rw [List.length_map]; exact file.fields.fits) hmethods
    (by rw [List.length_map]; exact file.methods.fits) file.attributes.reads
    file.attributes.length_values
  rw [UInt16.ofNat_toNat, AttributeList.allAnnotations_values] at h
  exact h

end ClassLayout

end ClassFile
end Classpath
