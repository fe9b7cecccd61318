import Classpath.Proofs.ClassFile.LayoutDecode
import Mathlib.Data.List.Flatten

/-!
# What decoding passes over

The minor version, the flags, the superclass, the interfaces, the limits and
handlers of method bodies, and every attribute with a name of no interest can be
taken out of a class file without a change to what it decodes to.
-/

namespace Classpath
namespace ClassFile

open Writer (countedBytes)

theorem flatMap_filter_of_nil {α β : Type} {keep : α → Bool} {f : α → List β}
    (h : ∀ x, keep x = false → f x = []) (items : List α) :
    (items.filter keep).flatMap f = items.flatMap f := by
  induction items with
  | nil => rfl
  | cons x items ih =>
      cases hx : keep x with
      | true => rw [List.filter_cons_of_pos hx, List.flatMap_cons, List.flatMap_cons, ih]
      | false =>
          rw [List.filter_cons_of_neg (by simp [hx]), List.flatMap_cons, h x hx, ih,
            List.nil_append]

/-! ## Attributes that are kept -/

section Kept

variable {pool : ConstantPool}

def CodeContent.isKnown : CodeContent pool → Bool
  | other _ _ _ => false
  | _ => true

/-- A body without its limits, its handlers and its unknown attributes. -/
def CodeInfo.stripped (info : CodeInfo pool) : CodeInfo pool :=
  { info with
    maxStack := 0
    maxLocals := 0
    handlers := .empty
    attributes := info.attributes.filter fun attached => attached.content.isKnown }

theorem length_countedBytes_le {shorter longer : List Bytes} (h : shorter.Sublist longer) :
    (countedBytes shorter).length ≤ (countedBytes longer).length := by
  rw [length_countedBytes, length_countedBytes]
  exact Nat.add_le_add_left h.flatten.length_le 2

theorem CodeInfo.length_bytes_stripped (info : CodeInfo pool) :
    info.stripped.bytes.length ≤ info.bytes.length := by
  have hhandlers : (countedBytes (info.stripped.handlers.items.map handlerBytes)).length ≤
      (countedBytes (info.handlers.items.map handlerBytes)).length :=
    length_countedBytes_le (List.nil_sublist _)
  have hattributes : (countedBytes (info.stripped.attributes.items.map Attached.bytes)).length ≤
      (countedBytes (info.attributes.items.map Attached.bytes)).length :=
    length_countedBytes_le (List.filter_sublist.map _)
  have hcode : info.stripped.code = info.code := rfl
  simp only [bytes, bodyBytes, List.length_append, u2Bytes, u4Bytes, length_bigEndianBytes, hcode]
  omega

theorem CodeContent.value_eq_other {content : CodeContent pool} (h : content.isKnown = false) :
    content.value = .other := by
  cases content with
  | other name unknown bytes => rfl
  | _ => cases h

theorem CodeInfo.body_stripped (info : CodeInfo pool) : info.stripped.body = info.body := by
  have hcontents : info.stripped.contents = info.contents.filter CodeContent.isKnown := by
    rw [contents, contents, List.filter_map]
    rfl
  -- An unknown attribute has no rows and no annotations.
  have hflat : ∀ {β : Type} (f : CodeAttribute → List β), f .other = [] →
      (info.stripped.contents.map CodeContent.value).flatMap f =
        (info.contents.map CodeContent.value).flatMap f := by
    intro β f hf
    rw [hcontents, List.flatMap_map, List.flatMap_map]
    apply flatMap_filter_of_nil
    intro content hcontent
    rw [CodeContent.value_eq_other hcontent, hf]
  rw [← ofAttributes_contents, ← ofAttributes_contents, Body.ofAttributes, Body.ofAttributes,
    hflat _ rfl, hflat _ rfl, hflat _ rfl]
  rfl

namespace Content

def isKnown : Content pool → Bool
  | other _ _ _ => false
  | _ => true

def stripped : Content pool → Content pool
  | code info => code info.stripped
  | content => content

theorem name_stripped (content : Content pool) : content.stripped.name = content.name := by
  cases content <;> rfl

theorem length_bytes_stripped (content : Content pool) :
    content.stripped.bytes.length ≤ content.bytes.length := by
  cases content with
  | code info => exact info.length_bytes_stripped
  | _ => exact Nat.le_refl _

theorem value_stripped (content : Content pool) : content.stripped.value = content.value := by
  cases content with
  | code info => exact congrArg Attribute.code info.body_stripped
  | _ => rfl

theorem value_eq_other {content : Content pool} (h : content.isKnown = false) :
    content.value = .other := by
  cases content with
  | other name unknown bytes => rfl
  | _ => cases h

end Content

namespace AttributeList

def stripOne (attached : Attached pool (Content pool) Content.name Content.bytes) :
    Attached pool (Content pool) Content.name Content.bytes where
  content := attached.content.stripped
  nameRef := attached.nameRef
  named := by rw [Content.name_stripped]; exact attached.named
  fits := Nat.lt_of_le_of_lt attached.content.length_bytes_stripped attached.fits

/-- The known attributes, each stripped. -/
def stripped (attributes : AttributeList pool) : AttributeList pool :=
  (attributes.filter fun attached => attached.content.isKnown).map stripOne

theorem values_stripped (attributes : AttributeList pool) :
    attributes.stripped.values =
      (attributes.contents.filter Content.isKnown).map Content.value := by
  rw [values, contents, contents, List.filter_map, List.map_map]
  simp only [stripped, Counted.map, Counted.filter, List.map_map, Function.comp_def, stripOne,
    Content.value_stripped]

theorem flatMap_values_stripped {β : Type} {f : Attribute → List β} (hf : f .other = [])
    (attributes : AttributeList pool) :
    attributes.stripped.values.flatMap f = attributes.values.flatMap f := by
  rw [values_stripped, values, List.flatMap_map, List.flatMap_map]
  apply flatMap_filter_of_nil
  intro content hcontent
  rw [Content.value_eq_other hcontent, hf]

theorem filterMap_values_stripped {β : Type} {f : Attribute → Option β} (hf : f .other = none)
    (attributes : AttributeList pool) :
    attributes.stripped.values.filterMap f = attributes.values.filterMap f := by
  rw [List.filterMap_eq_flatMap_toList, List.filterMap_eq_flatMap_toList]
  exact flatMap_values_stripped (by rw [hf]; rfl) attributes

theorem allAnnotations_stripped (attributes : AttributeList pool) :
    allAnnotations attributes.stripped.values = allAnnotations attributes.values := by
  rw [allAnnotations, allAnnotations, flatMap_values_stripped rfl, flatMap_values_stripped rfl]

theorem allParameterAnnotations_stripped (attributes : AttributeList pool) :
    allParameterAnnotations attributes.stripped.values =
      allParameterAnnotations attributes.values := by
  -- Joining with an attribute that is left out would have changed nothing.
  rw [allParameterAnnotations, allParameterAnnotations, values_stripped, values, List.foldl_map,
    List.foldl_map, List.foldl_filter]
  congr 1
  funext joined content
  split
  · rfl
  · next hunknown =>
      rw [Content.value_eq_other (Bool.eq_false_of_not_eq_true hunknown)]
      exact (joinPositions_nil joined).symm

end AttributeList

namespace MemberInfo

/-- A member without its flags and its unknown attributes. -/
def stripped (info : MemberInfo pool) : MemberInfo pool :=
  { info with
    flags := 0
    attributes := info.attributes.stripped }

theorem field_stripped (info : MemberInfo pool) : info.stripped.field = info.field := by
  have hsignature : lastSignature? info.stripped.attributes.values =
      lastSignature? info.attributes.values := by
    rw [lastSignature?, lastSignature?]
    exact congrArg _ (AttributeList.filterMap_values_stripped rfl info.attributes)
  have hannotations := AttributeList.allAnnotations_stripped info.attributes
  rw [← fieldOf_values, ← fieldOf_values, fieldOf, fieldOf, hsignature]
  exact congrArg (Field.mk _ _) hannotations

theorem method_stripped (info : MemberInfo pool) : info.stripped.method = info.method := by
  have hbody : lastBody info.stripped.attributes.values = lastBody info.attributes.values := by
    rw [lastBody, lastBody]
    exact congrArg (fun bodies : List Body => bodies.getLast?.getD {})
      (AttributeList.filterMap_values_stripped rfl info.attributes)
  have hannotations : allAnnotations info.stripped.attributes.values =
      allAnnotations info.attributes.values :=
    AttributeList.allAnnotations_stripped info.attributes
  have hparameters : allParameterAnnotations info.stripped.attributes.values =
      allParameterAnnotations info.attributes.values :=
    AttributeList.allParameterAnnotations_stripped info.attributes
  rw [← methodOf_values, ← methodOf_values, methodOf, methodOf, hbody, hannotations, hparameters]
  rfl

end MemberInfo

end Kept

namespace ClassLayout

/-- The file without everything that decoding passes over. -/
def stripped (file : ClassLayout) : ClassLayout :=
  { file with
    minor := 0
    flags := 0
    superClass := 0
    interfaces := .empty
    fields := file.fields.map MemberInfo.stripped
    methods := file.methods.map MemberInfo.stripped
    attributes := file.attributes.stripped }

theorem model_stripped (file : ClassLayout) : file.stripped.model = file.model := by
  have hfields : file.stripped.fields.items.map MemberInfo.field =
      file.fields.items.map MemberInfo.field := by
    simp only [stripped, Counted.map, List.map_map, Function.comp_def, MemberInfo.field_stripped]
  have hmethods : file.stripped.methods.items.map MemberInfo.method =
      file.methods.items.map MemberInfo.method := by
    simp only [stripped, Counted.map, List.map_map, Function.comp_def, MemberInfo.method_stripped]
  have hannotations : file.stripped.attributes.annotations = file.attributes.annotations := by
    rw [← AttributeList.allAnnotations_values, ← AttributeList.allAnnotations_values]
    exact AttributeList.allAnnotations_stripped file.attributes
  rw [model, model, hfields, hmethods, hannotations]

/-- A class file decodes to its name, its major version and its model.  Files that
differ only in what is stripped decode alike. -/
theorem decode_bytes_eq_model (file : ClassLayout) :
    decode file.bytes = .ok ⟨file.thisClass.name.text, file.major, file.model⟩ ∧
      ∀ other : ClassLayout, other.stripped = file.stripped →
        decode other.bytes = decode file.bytes := by
  constructor
  · exact file.decode_bytes
  · intro other hsame
    -- What a file decodes to can be read off its stripped form.
    have hstripped : ∀ layout : ClassLayout, decode layout.bytes =
        .ok ⟨layout.stripped.thisClass.name.text, layout.stripped.major, layout.stripped.model⟩ := by
      intro layout
      rw [model_stripped]
      exact layout.decode_bytes
    rw [hstripped other, hstripped file, hsame]

/-- The entry of an ASCII text. -/
def textEntry (text : String) (encoded : Bytes) (hlength : encoded.length < 65536)
    (htext : Text.ofModifiedUtf8? encoded = some text) : PoolEntry where
  constant := .utf8 text
  bytes := 1 :: (u2Bytes encoded.length ++ encoded)
  spelling := .utf8 hlength htext

/-- The constants of `generic`. -/
def genericConstants : List PoolEntry :=
  [textEntry "G" [71] (by decide) (by decide +kernel), ⟨.classInfo 1, _, .classInfo 1⟩,
    textEntry "Signature" [83, 105, 103, 110, 97, 116, 117, 114, 101] (by decide) (by decide +kernel),
    textEntry "TT;" [84, 84, 59] (by decide) (by decide +kernel),
    textEntry "TU;" [84, 85, 59] (by decide) (by decide +kernel)]

/-- A class with one field, whose signature is given twice around an attribute that
is not known. -/
def generic : ClassLayout where
  minor := 3
  major := 61
  constants := genericConstants
  fits := by decide
  flags := 0x21
  thisClass := ⟨2, ⟨1, "G", rfl⟩, rfl⟩
  superClass := 9
  interfaces := ⟨[7], by decide⟩
  fields := ⟨[{
    flags := 2
    name := ⟨1, "G", rfl⟩
    descriptor := ⟨4, "TT;", rfl⟩
    attributes := ⟨[
      { content := .signature ⟨4, "TT;", rfl⟩, nameRef := ⟨3, "Signature", rfl⟩, named := rfl
        fits := by decide },
      { content := .other "G" (by decide) [1, 2, 3], nameRef := ⟨1, "G", rfl⟩, named := rfl
        fits := by decide },
      { content := .signature ⟨5, "TU;", rfl⟩, nameRef := ⟨3, "Signature", rfl⟩, named := rfl
        fits := by decide }], by decide⟩ }], by decide⟩
  methods := .empty
  attributes := .empty

example : decode generic.bytes = .ok ⟨"G", 61, { fields := [⟨"TT;", some "TU;", []⟩] }⟩ := by
  decide +kernel

end ClassLayout
end ClassFile
end Classpath
