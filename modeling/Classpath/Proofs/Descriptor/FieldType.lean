import Classpath.Proofs.Descriptor.Scan
import Classpath.Reference

/-!
# One class, many mentions

A class is mentioned by its name as the operand or owner of an instruction, by an object
type in a descriptor, an array operand or a signature, and by the type of an annotation.
Each kind of mention is read by a scan of its own.  They lead to the same class, but for
the operands of a class whose whole name is the code of a primitive type: these are taken
for the primitive type.
-/

namespace Classpath
namespace Descriptor

/-- The type of the elements of an array, or of a single value. -/
inductive ElementType
  | base (type : BaseType)
  | object (name : QualifiedName)

def ElementType.text : ElementType → List Char
  | base type => [type.code]
  | object name => 'L' :: (name.internal ++ [';'])

/-- The class that the element type names. -/
def ElementType.classes : ElementType → List ClassName
  | base _ => []
  | object name => [name.className]

/-- A text behind the marks of an array. -/
def arrayText (dimensions : Nat) (element : List Char) : List Char :=
  List.replicate dimensions '[' ++ element

/-- The type of a field, of a parameter or of a result.  Without dimensions it is no array. -/
structure FieldType where
  dimensions : Nat
  element : ElementType

def FieldType.text (type : FieldType) : List Char := arrayText type.dimensions type.element.text

/-- The scan of a descriptor finds the class of its elements. -/
theorem classNames_fieldType (type : FieldType) :
    classNames (String.ofList type.text) = type.element.classes := by
  obtain ⟨dimensions, element⟩ := type
  rw [classNames_ofList, FieldType.text, arrayText, scan_arrayMarks]
  cases element with
  | base type => simp [ElementType.text, ElementType.classes]
  | object name =>
      rw [ElementType.text, scan_object false [] name rfl]
      simp [ElementType.classes]

@[simp] theorem unwrapObject_object (cs : List Char) : unwrapObject ('L' :: (cs ++ [';'])) = cs := by
  rw [unwrapObject, List.getLast?_concat, if_pos rfl, List.dropLast_concat]

theorem unwrapObject_cons_other {c : Char} (h : c ≠ 'L') (cs : List Char) :
    unwrapObject (c :: cs) = c :: cs := by
  unfold unwrapObject
  split
  · next heq => exact absurd (List.cons.inj heq).1 h
  · rfl

/-- A text without a semicolon is no object type. -/
theorem unwrapObject_of_notMem {cs : List Char} (h : ';' ∉ cs) : unwrapObject cs = cs := by
  unfold unwrapObject
  split
  · next rest =>
      refine if_neg fun hlast => h ?_
      exact List.mem_cons_of_mem _ (List.mem_of_getLast? hlast)
  · rfl

@[simp] theorem dropWhile_arrayText (dimensions : Nat) (cs : List Char) :
    (arrayText dimensions cs).dropWhile (· = '[') = cs.dropWhile (· = '[') := by
  rw [arrayText, List.dropWhile_append_of_pos]
  intro c hc
  simpa using List.eq_of_mem_replicate hc

/-- Only dots and slashes are confused by writing dots for slashes. -/
theorem dotForSlash_eq_iff {c d : Char} (hdot : d ≠ '.') (hslash : d ≠ '/') :
    dotForSlash c = d ↔ c = d := by
  unfold dotForSlash
  by_cases h : c = '/'
  · simp [h, Ne.symm hdot, Ne.symm hslash]
  · simp [h]

@[simp] theorem unwrapObject_map_dotForSlash (cs : List Char) :
    unwrapObject (cs.map dotForSlash) = (unwrapObject cs).map dotForSlash := by
  match cs with
  | [] => rfl
  | c :: rest =>
      by_cases hobject : c = 'L'
      · subst hobject
        -- A semicolon is neither a dot nor a slash, so both texts have one at their end or none.
        have hlast : (rest.map dotForSlash).getLast? = some ';' ↔ rest.getLast? = some ';' := by
          rw [List.getLast?_map, Option.map_eq_some_iff]
          simp [dotForSlash_eq_iff]
        show unwrapObject ('L' :: rest.map dotForSlash) = _
        rw [unwrapObject, unwrapObject]
        by_cases h : rest.getLast? = some ';'
        · rw [if_pos h, if_pos (hlast.2 h), List.map_dropLast]
        · rw [if_neg h, if_neg (mt hlast.1 h)]
          rfl
      · have hdotted : dotForSlash c ≠ 'L' :=
          mt (dotForSlash_eq_iff (by decide) (by decide)).1 hobject
        rw [List.map_cons, unwrapObject_cons_other hdotted, unwrapObject_cons_other hobject,
          List.map_cons]

/-- No separator is the code of a primitive type. -/
@[simp] theorem isPrimitive_map_dotForSlash (cs : List Char) :
    isPrimitive (cs.map dotForSlash) = isPrimitive cs := by
  match cs with
  | [] => rfl
  | [c] =>
      by_cases h : c = '/'
      · subst h; decide
      · rw [List.map_singleton, dotForSlash, if_neg h]
  | _ :: _ :: _ => rfl

theorem isPrimitive_eq_false_iff {cs : List Char} :
    isPrimitive cs = false ↔ ∀ code ∈ primitiveCodes, cs ≠ [code] := by
  match cs with
  | [] => simp [isPrimitive]
  | [c] =>
      rw [isPrimitive, List.contains_eq_mem, decide_eq_false_iff_not]
      constructor
      · rintro h code hcode heq
        exact h ((List.cons.inj heq).1 ▸ hcode)
      · exact fun h hc => h c hc rfl
  | _ :: _ :: _ => simp [isPrimitive]

/-- An operand names the class of its internal form, once the marks of an array and of an
object type are gone.  It does not matter that the slashes are replaced first. -/
theorem operandClass?_ofList {cs element : List Char}
    (h : unwrapObject (cs.dropWhile (· = '[')) = element) :
    operandClass? (String.ofList cs) =
      if element.isEmpty || isPrimitive element then none
      else some (ClassName.ofInternal (String.ofList element)) := by
  have hmarks : (cs.map dotForSlash).dropWhile (· = '[') =
      (cs.dropWhile (· = '[')).map dotForSlash := by
    rw [List.dropWhile_map]
    congr 2
    funext c
    simp [dotForSlash_eq_iff]
  have helement : unwrapObject ((cs.map dotForSlash).dropWhile (· = '[')) =
      element.map dotForSlash := by
    rw [hmarks, unwrapObject_map_dotForSlash, h]
  have hoperand : operandClass? (String.ofList cs) =
      if (element.map dotForSlash).isEmpty || isPrimitive (element.map dotForSlash) then none
      else some ⟨String.ofList (element.map dotForSlash)⟩ := by
    rw [← helement, operandClass?, String.toList_ofList]
    rfl
  rw [hoperand, List.isEmpty_map, isPrimitive_map_dotForSlash, ofInternal_eq_map,
    String.toList_ofList]

namespace QualifiedName

variable (name : QualifiedName)

/-- The internal form, as an operand or owner. -/
def text : String := String.ofList name.internal

/-- The object type of the class. -/
def object : List Char := (ElementType.object name).text

theorem operandClass?_of_element {cs : List Char}
    (h : unwrapObject (cs.dropWhile (· = '[')) = name.internal) :
    operandClass? (String.ofList cs) =
      if isPrimitive name.internal then none else some name.className := by
  have hempty : name.internal.isEmpty = false := by simp
  rw [operandClass?_ofList h, hempty, Bool.false_or, name.ofInternal_internal]

theorem operandClass?_text :
    operandClass? name.text = if isPrimitive name.internal then none else some name.className := by
  apply name.operandClass?_of_element
  have hmarks : name.internal.dropWhile (· = '[') = name.internal := by
    obtain ⟨first, rest, hname⟩ := List.exists_cons_of_ne_nil name.internal_ne_nil
    have hfirst : first ≠ '[' := by
      rintro rfl
      exact name.arrayMark_notMem_internal (hname ▸ List.mem_cons_self)
    rw [hname, List.dropWhile_cons_of_neg (by simpa using hfirst)]
  rw [hmarks, unwrapObject_of_notMem name.semicolon_notMem_internal]

theorem operandClass?_arrayText (dimensions : Nat) :
    operandClass? (String.ofList (arrayText dimensions name.object)) =
      if isPrimitive name.internal then none else some name.className := by
  apply name.operandClass?_of_element
  rw [dropWhile_arrayText]
  exact unwrapObject_object name.internal

theorem annotationClass?_object :
    annotationClass? (String.ofList name.object) = some name.className := by
  have hunwrapped : unwrapObject name.object = name.internal := unwrapObject_object name.internal
  rw [annotationClass?, String.toList_ofList]
  show (if (unwrapObject name.object).isEmpty then none
    else some (ClassName.ofInternal (String.ofList (unwrapObject name.object)))) = _
  rw [hunwrapped, if_neg (by simp), name.ofInternal_internal]

/-- Every mention of the class leads to the class of its internal form, whether it is an
operand or owner of an instruction, a type in a descriptor, or an annotation. -/
structure RecordedAlike : Prop where
  operand : operandClass? name.text = some (ClassName.ofInternal name.text)
  arrayOperand : ∀ n, operandClass? (String.ofList (arrayText (n + 1) name.object)) =
    some (ClassName.ofInternal name.text)
  signature : ∀ n, classNames (String.ofList (arrayText n name.object)) =
    [ClassName.ofInternal name.text]
  annotation : annotationMentions [String.ofList name.object] = [ClassName.ofInternal name.text]
  methodOwner : ∀ op call, (Instruction.type op name.text).mention? =
    (Instruction.invoke call name.text).mention?
  fieldOwner : ∀ op access, (Instruction.type op name.text).mention? =
    (Instruction.field access name.text).mention?

theorem recordedAlike_of_not_isPrimitive (h : isPrimitive name.internal = false) :
    name.RecordedAlike := by
  have hclass : ClassName.ofInternal name.text = name.className := name.ofInternal_internal
  have hoperand : operandClass? name.text = some name.className := by
    rw [name.operandClass?_text, h]
    rfl
  constructor
  case operand => rw [hclass, hoperand]
  case arrayOperand =>
    intro n
    rw [name.operandClass?_arrayText, h, hclass]
    rfl
  case signature =>
    intro n
    rw [hclass]
    exact classNames_fieldType ⟨n, .object name⟩
  case annotation =>
    rw [annotationMentions, List.filterMap_cons, name.annotationClass?_object, hclass]
    rfl
  case methodOwner =>
    intro op call
    rw [Instruction.mention?, Instruction.mention?, hoperand, hclass]
  case fieldOwner =>
    intro op access
    rw [Instruction.mention?, Instruction.mention?, hoperand, hclass]

end QualifiedName

theorem operandClass?_primitiveArray (n : Nat) {code : Char} (h : code ∈ primitiveCodes) :
    operandClass? (String.ofList (arrayText n [code])) = none := by
  have hletters : (primitiveCodes.all fun c => c != '[' && c != ';') = true := rfl
  have hcode := List.all_eq_true.1 hletters code h
  rw [Bool.and_eq_true, bne_iff_ne, bne_iff_ne] at hcode
  have helement : unwrapObject ((arrayText n [code]).dropWhile (· = '[')) = [code] := by
    rw [dropWhile_arrayText, List.dropWhile_cons_of_neg (by simpa using hcode.1),
      unwrapObject_of_notMem (by simpa using Ne.symm hcode.2)]
  have hprimitive : isPrimitive [code] = true := by
    rw [isPrimitive, List.contains_eq_mem, decide_eq_true h]
  rw [operandClass?_ofList helement, hprimitive, Bool.or_true, if_pos rfl]

/-- All mentions of a class lead to it exactly if its internal form is not the code of a
primitive type.  Operands that are arrays of a primitive type lead to no class. -/
theorem recordedAlike_iff (name : QualifiedName) :
    (name.RecordedAlike ↔ ∀ code ∈ primitiveCodes, name.internal ≠ [code]) ∧
    ∀ n, ∀ code ∈ primitiveCodes,
      operandClass? (String.ofList (arrayText (n + 1) [code])) = none := by
  refine ⟨?_, fun n code hcode => operandClass?_primitiveArray (n + 1) hcode⟩
  rw [← isPrimitive_eq_false_iff]
  constructor
  · intro h
    rw [← Bool.not_eq_true]
    intro hprimitive
    -- The name alone, as an operand, is already taken for the primitive type.
    have hoperand := h.operand
    rw [name.operandClass?_text, hprimitive] at hoperand
    exact absurd hoperand (by simp)
  · exact name.recordedAlike_of_not_isPrimitive

/-- The class `I` of the default package. -/
def classI : QualifiedName where
  parts := [.ofChars ['I'] rfl rfl]
  nonempty := List.cons_ne_nil _ _

/-- An array of the class `I` names the class in a descriptor, but not as an operand. -/
theorem classI_lost_as_operand :
    String.ofList (arrayText 1 classI.object) = "[LI;" ∧
    classNames "[LI;" = [⟨"I"⟩] ∧ operandClass? "[LI;" = none ∧
    (Instruction.invoke .invokestatic classI.text).mention? = some ⟨"I"⟩ ∧
    (Instruction.type .new classI.text).mention? = none := by
  decide +kernel

end Descriptor
end Classpath
