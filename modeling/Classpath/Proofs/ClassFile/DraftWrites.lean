import Classpath.Proofs.ClassFile.AttributeReads
import Classpath.Proofs.ClassFile.DraftModel

/-!
# What is written for a draft

Every part of a draft is written as bytes that are read back as what the draft
says, in every pool that grows out of the one at hand.
-/

namespace Classpath
namespace ClassFile

open Writer

/-! ## Texts that every draft needs -/

/-- The names of the elements of a full annotation. -/
def elementNames : List String := ["i", "j", "s", "e", "c", "n", "a"]

/-- Names of attributes, and the texts of the sample values. -/
def ownTexts : List String :=
  ["java/lang/Object", "Signature", "Code", "LocalVariableTable", "LocalVariableTypeTable",
    "RuntimeVisibleAnnotations", "RuntimeVisibleTypeAnnotations",
    "RuntimeInvisibleTypeAnnotations", "RuntimeInvisibleParameterAnnotations", "SourceFile",
    "Fixture.java", "text", "Lpkg/Mode;", "FAST", "Lpkg/Literal;", "Lpkg/Nested;"] ++ elementNames

/-- A short text of plain characters, as a test that can be run. -/
def isShortPlain (text : String) : Bool :=
  text.toList.length < 100 && text.toList.all fun c => 0 < c.toNat && c.toNat ≤ 0xFFFF

theorem isStorable_of_short {text : String} (hplain : ∀ c ∈ text.toList, Text.IsPlain c)
    (hlength : text.toList.length < 100) : IsStorable text := by
  have hbytes := Text.length_utf8Bytes_le text
  exact ⟨hplain, by omega⟩

theorem isStorable_of_isShortPlain {text : String} (h : isShortPlain text = true) :
    IsStorable text := by
  simp only [isShortPlain, Bool.and_eq_true, decide_eq_true_eq, List.all_eq_true] at h
  exact isStorable_of_short h.2 h.1

theorem isStorable_own {text : String} (h : text ∈ ownTexts) : IsStorable text := by
  have hall : ownTexts.all isShortPlain = true := by decide +kernel
  exact isStorable_of_isShortPlain (List.all_eq_true.1 hall text h)

theorem isStorable_slotName {slot : Nat} (h : slot < 65536) : IsStorable s!"v{slot}" := by
  have hchars : (s!"v{slot}").toList = 'v' :: Nat.toDigits 10 slot := by
    show ("v" ++ toString slot).toList = _
    rw [String.toList_append, Nat.toString_eq_ofList_toDigits, String.toList_ofList,
      String.toList_ofList, List.singleton_append]
  have hdigits : (Nat.toDigits 10 slot).length ≤ 5 :=
    (Nat.length_toDigits_le_iff (by decide) (by decide)).2 (Nat.lt_trans h (by decide))
  apply isStorable_of_short
  · intro c hc
    rw [hchars] at hc
    rcases List.mem_cons.1 hc with rfl | hdigit
    · exact ⟨by decide, by decide⟩
    · have hrange := Nat.isDigit_of_mem_toDigits (by decide) (by decide) hdigit
      simp only [Char.isDigit, Bool.and_eq_true, decide_eq_true_eq, ge_iff_le,
        UInt32.le_iff_toNat_le] at hrange
      have hlow : 48 ≤ c.toNat := hrange.1
      have hhigh : c.toNat ≤ 57 := hrange.2
      exact ⟨by omega, by omega⟩
  · rw [hchars, List.length_cons]
    omega

/-! ## Attributes and annotations -/

theorem writes_attribute {name : String} (hname : IsStorable name) (content : Bytes) :
    Writes (writeAttribute name content) fun pool bytes =>
      ∃ index, pool.text index = .ok name ∧ bytes = attributeBytes index content := by
  refine (PoolWriter.writes_text hname).bind fun index => ?_
  exact .pure fun pool hindex => ⟨index, ConstantPool.text_of_holds hindex, rfl⟩

/-- An attribute with one of the usual names is read back if its content is, which
may depend on what was granted before. -/
theorem writes_decoded {name : String} (hname : name ∈ ownTexts) {content : Bytes}
    {attr : Attribute} {R : ConstantPool → Prop}
    (hdecode : ∀ pool, R pool → Attribute.decode pool name content = .ok attr)
    (hlength : ∀ pool, R pool → content.length < 4294967296) :
    Writes (writeAttribute name content) fun pool bytes =>
      R pool → Reads (Attribute.read pool) bytes attr := by
  refine (writes_attribute (isStorable_own hname) content).mono ?_
  rintro pool bytes ⟨index, hindex, rfl⟩ hgranted
  exact Attribute.reads hindex (hlength pool hgranted) (hdecode pool hgranted)

/-- One value, or none. -/
def optional {α : Type} (empty : Bool) (value : α) : List α := if empty then [] else [value]

theorem length_optional_le_one {α : Type} (empty : Bool) (value : α) :
    (optional empty value).length ≤ 1 := by
  cases empty with
  | true => exact Nat.zero_le 1
  | false => exact Nat.le_refl 1

/-- Leaving out a value that holds nothing changes nothing. -/
theorem flatMap_optional {α β : Type} {f : α → List β} {empty : Bool} {value : α}
    (h : empty = true → f value = []) : (optional empty value).flatMap f = f value := by
  cases empty with
  | true => exact (h rfl).symm
  | false => exact List.flatMap_singleton f value

theorem writes_optional {α : Type} (R : ConstantPool → Bytes → α → Prop) {empty : Bool} {value : α}
    {writer : PoolWriter Bytes}
    (h : empty = false → Writes writer fun pool bytes => R pool bytes value) :
    Writes (writeUnless empty writer) fun pool encoded =>
      List.Forall₂ (R pool) encoded (optional empty value) := by
  cases empty with
  | true => exact .pure fun _ => .nil
  | false => exact (h rfl).bind fun bytes => .pure fun pool hbytes => .cons hbytes .nil

/-- Items of bounded length take a bounded number of bytes together. -/
theorem length_flatten_le {α : Type} {R : Bytes → α → Prop} {width : Nat} {encoded : List Bytes}
    {items : List α} (h : List.Forall₂ R encoded items)
    (hwidth : ∀ bytes x, R bytes x → bytes.length ≤ width) :
    encoded.flatten.length ≤ width * items.length := by
  induction h with
  | nil => exact Nat.le_refl _
  | @cons bytes x encoded items hfirst _ ih =>
      have hbytes := hwidth bytes x hfirst
      rw [List.flatten_cons, List.length_append, List.length_cons, Nat.mul_add]
      omega

theorem length_attributeBytes (index : UInt16) (content : Bytes) :
    (attributeBytes index content).length = 6 + content.length := by
  rw [attributeBytes, List.length_append, List.length_append, length_indexBytes, u4Bytes,
    length_bigEndianBytes]

theorem writes_plainMark {type : String} (h : IsStorable type) :
    Writes (writePlainMark type) fun pool bytes =>
      ReadsMark pool bytes type ∧ bytes.length ≤ 4 := by
  refine (PoolWriter.writes_text h).bind fun index => ?_
  refine .pure fun pool hindex => ⟨?_, Nat.le_refl 4⟩
  have hnone : ∀ element ∈ ([] : List (UInt16 × Bytes)), ReadsValue pool element.2 := by simp
  exact readsMark (ConstantPool.text_of_holds hindex) hnone (by decide)

theorem writes_element {name : String} (hname : IsStorable name) (value : Bytes) :
    Writes (writeElement name value) fun _ bytes => ∃ index, bytes = elementBytes (index, value) := by
  refine (PoolWriter.writes_text hname).bind fun index => ?_
  exact .pure fun _ _ => ⟨index, rfl⟩

/-- The elements keep their values, whatever numbers their names get. -/
theorem exists_elements {items : List (String × Bytes)} {encoded : List Bytes}
    (h : List.Forall₂ (fun bytes item => ∃ index, bytes = elementBytes (index, item.2))
      encoded items) :
    ∃ elements : List (UInt16 × Bytes), encoded = elements.map elementBytes ∧
      elements.map Prod.snd = items.map Prod.snd := by
  induction h with
  | nil => exact ⟨[], rfl, rfl⟩
  | @cons bytes item encoded items hfirst _ ih =>
      obtain ⟨index, rfl⟩ := hfirst
      obtain ⟨elements, rfl, hvalues⟩ := ih
      exact ⟨(index, item.2) :: elements, rfl, by rw [List.map_cons, List.map_cons, hvalues]⟩

theorem length_elements (elements : List (UInt16 × Bytes)) :
    (elements.map elementBytes).flatten.length =
      ((elements.map Prod.snd).map fun value => 2 + value.length).sum := by
  induction elements with
  | nil => rfl
  | cons element elements ih =>
      rw [List.map_cons, List.flatten_cons, List.length_append, ih, elementBytes,
        List.length_append, length_indexBytes, List.map_cons, List.map_cons, List.sum_cons]

theorem writes_fullMark {type : String} (h : IsStorable type) :
    Writes (writeFullMark type) fun pool bytes =>
      ReadsMark pool bytes type ∧ bytes.length ≤ 49 := by
  refine (PoolWriter.writes_text h).bind fun index => ?_
  refine (PoolWriter.writes_integer 7).bind fun number => ?_
  refine (PoolWriter.writes_long 0x10000000000).bind fun bigNumber => ?_
  refine (PoolWriter.writes_text (isStorable_own (by simp [ownTexts]))).bind fun string => ?_
  refine (PoolWriter.writes_text (isStorable_own (by simp [ownTexts]))).bind fun enumType => ?_
  refine (PoolWriter.writes_text (isStorable_own (by simp [ownTexts]))).bind fun enumName => ?_
  refine (PoolWriter.writes_text (isStorable_own (by simp [ownTexts]))).bind fun literal => ?_
  refine (writes_plainMark (isStorable_own (by simp [ownTexts]))).bind fun nested => ?_
  refine (Writes.mapM fun item hitem => writes_element ?_ item.2).bind fun elements => ?_
  · have hname : item.1 ∈ elementNames := List.mem_map_of_mem hitem
    exact isStorable_own (List.mem_append_right _ hname)
  · refine .pure fun pool helements hnested _ _ _ _ _ _ hindex => ?_
    -- Only the values matter, and these are known from the order they are written in.
    obtain ⟨elements, rfl, hvalues⟩ := exists_elements helements
    have hreads : ∀ value ∈ elements.map Prod.snd, ReadsValue pool value := by
      rw [hvalues]
      simp only [List.map_cons, List.map_nil, List.forall_mem_cons]
      refine ⟨readsValue_constant .int number, readsValue_constant .long bigNumber,
        readsValue_constant .string string, readsValue_enum enumType enumName,
        readsValue_constant .classLiteral literal, readsValue_nested hnested.1,
        readsValue_array ?_ (by show 2 < 65536; decide), by simp⟩
      simp only [List.forall_mem_cons]
      exact ⟨readsValue_constant .int number, readsValue_constant .classLiteral literal, by simp⟩
    have hcount : elements.length = 7 := by
      rw [← List.length_map (f := Prod.snd), hvalues]
      rfl
    have hlength := length_elements elements
    rw [hvalues] at hlength
    constructor
    · apply readsMark (ConstantPool.text_of_holds hindex)
      · intro element helement
        exact hreads _ (List.mem_map_of_mem helement)
      · omega
    · have hshort := hnested.2
      rw [List.length_append, length_indexBytes, length_countedBytes, hlength]
      simp only [List.map_cons, List.map_nil, List.sum_cons, List.sum_nil, tagged,
        List.length_cons, List.length_append, length_indexBytes, length_countedBytes,
        List.flatten_cons, List.flatten_nil, List.length_nil]
      omega

theorem writes_classMark {mark : ClassMark} (h : IsStorable mark.type) :
    Writes (writeClassMark mark) fun pool bytes =>
      ReadsMark pool bytes mark.type ∧ bytes.length ≤ 49 := by
  unfold writeClassMark
  split
  · exact writes_fullMark h
  · refine (writes_plainMark h).mono ?_
    rintro pool bytes ⟨hread, hlength⟩
    exact ⟨hread, by omega⟩

theorem forall₂_map_right {α β γ : Type} {P : β → α → Prop} {R : β → γ → Prop} {g : α → γ}
    {encoded : List β} {items : List α} (h : List.Forall₂ P encoded items)
    (himp : ∀ bytes x, P bytes x → R bytes (g x)) : List.Forall₂ R encoded (items.map g) :=
  List.forall₂_map_right_iff.2 (h.imp himp)

/-- The attribute of a list of annotations, however each of them is written. -/
theorem writes_annotations {α : Type} {write : α → PoolWriter Bytes} {typeOf : α → String}
    {items : List α} (hlength : items.length < 65536)
    (h : ∀ x ∈ items, Writes (write x) fun pool bytes =>
      ReadsMark pool bytes (typeOf x) ∧ bytes.length ≤ 49) :
    Writes (do
      let marks ← items.mapM write
      writeAttribute "RuntimeVisibleAnnotations" (countedBytes marks)) fun pool bytes =>
      Reads (Attribute.read pool) bytes (.annotations (items.map typeOf)) := by
  refine (Writes.mapM h).bind fun marks => ?_
  apply writes_decoded (by simp [ownTexts])
  · intro pool hmarks
    have hlist := reads_annotationList (forall₂_map_right hmarks fun bytes x hmark => hmark.1)
      (by rwa [List.length_map])
    exact Attribute.decode_annotations hlist (.inl rfl)
  · intro pool hmarks
    have hsize := length_flatten_le hmarks fun bytes x hmark => hmark.2
    rw [length_countedBytes]
    omega

theorem writes_marks {types : List String} (htypes : ∀ type ∈ types, IsStorable type)
    (hlength : types.length < 65536) :
    Writes (writeMarks types) fun pool bytes =>
      Reads (Attribute.read pool) bytes (.annotations types) := by
  have hmarks : ∀ type ∈ types, Writes (writePlainMark type) fun pool bytes =>
      ReadsMark pool bytes (id type) ∧ bytes.length ≤ 49 := by
    intro type htype
    refine (writes_plainMark (htypes type htype)).mono ?_
    rintro pool bytes ⟨hread, hshort⟩
    exact ⟨hread, by omega⟩
  have h := writes_annotations hlength hmarks
  rw [List.map_id] at h
  exact h

theorem writes_classMarks {marks : List ClassMark} (hmarks : ∀ mark ∈ marks, IsStorable mark.type)
    (hlength : marks.length < 65536) :
    Writes (writeClassMarks marks) fun pool bytes =>
      Reads (Attribute.read pool) bytes (.annotations (marks.map ClassMark.type)) :=
  writes_annotations hlength fun mark hmark => writes_classMark (hmarks mark hmark)

/-- The annotations on each parameter. -/
theorem writes_parameterMarks {types : List (List String)}
    (htypes : ∀ list ∈ types, ∀ type ∈ list, IsStorable type) (hcount : types.length < 256)
    (hlength : ∀ list ∈ types, list.length < 65536) :
    Writes (writeParameterMarks types) fun pool bytes =>
      Reads (Attribute.read pool) bytes (.parameterAnnotations types) := by
  have hlists : ∀ list ∈ types, Writes (do
      return countedBytes (← list.mapM writePlainMark)) fun pool bytes =>
        Reads (Annotations.readList pool) bytes list ∧ bytes.length ≤ 262142 := by
    intro list hlist
    refine (Writes.mapM fun type htype => writes_plainMark (htypes list hlist type htype)).bind
      fun marks => ?_
    refine .pure fun pool hmarks => ?_
    have hfits := hlength list hlist
    have hsize := length_flatten_le hmarks fun bytes x hmark => hmark.2
    refine ⟨reads_annotationList (hmarks.imp fun bytes x hmark => hmark.1) hfits, ?_⟩
    rw [length_countedBytes]
    omega
  refine (Writes.mapM hlists).bind fun lists => ?_
  apply writes_decoded (by simp [ownTexts])
  · intro pool hmarks
    have hread := reads_parameterLists (hmarks.imp fun bytes x hlist => hlist.1) hcount
    exact Attribute.decode_parameterAnnotations hread (.inr rfl)
  · intro pool hmarks
    have hsize := length_flatten_le hmarks fun bytes x hlist => hlist.2
    rw [List.length_cons]
    omega

theorem writes_typeParameterMarks {types : List String}
    (htypes : ∀ type ∈ types, IsStorable type) (hlength : types.length < 65536) :
    Writes (writeTypeParameterMarks types) fun pool bytes =>
      Reads (Attribute.read pool) bytes (.typeAnnotations (types.map fun type => ⟨0, type⟩)) := by
  have hmarks : ∀ type ∈ types, Writes (do
      return [0, 0, 0] ++ (← writePlainMark type)) fun pool bytes =>
        ReadsTypeUse pool bytes ⟨0, type⟩ ∧ bytes.length ≤ 7 := by
    intro type htype
    refine (writes_plainMark (htypes type htype)).bind fun mark => ?_
    refine .pure fun pool hmark => ⟨?_, ?_⟩
    · have hcontent : Reads (AnnotatedType.skipTarget 0) [0] () :=
        (TypeTarget.classTypeParameter 0).reads_content
      have hpath : ([] : Bytes).length = (0 : UInt8).toNat * 2 := rfl
      exact readsTypeUse hcontent hpath hmark.1
    · have hshort := hmark.2
      rw [List.length_append]
      show 3 + mark.length ≤ 7
      omega
  refine (Writes.mapM hmarks).bind fun marks => ?_
  apply writes_decoded (by simp [ownTexts])
  · intro pool hmarks
    have hlist := reads_typeUseList (forall₂_map_right hmarks fun bytes x hmark => hmark.1)
      (by rwa [List.length_map])
    exact Attribute.decode_typeAnnotations hlist (.inr rfl)
  · intro pool hmarks
    have hsize := length_flatten_le hmarks fun bytes x hmark => hmark.2
    rw [length_countedBytes]
    omega

end ClassFile
end Classpath
