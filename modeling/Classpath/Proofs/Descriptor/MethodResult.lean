import Classpath.Proofs.Descriptor.FieldType
import Mathlib.Data.List.DropRight

/-!
# The result of a method

A method descriptor is a list of parameter types in parentheses, followed by the type of
the result.  The result is taken to be the text after the last closing parenthesis.  Since
a class name may hold a parenthesis too, that is the type of the result exactly if no
class name in it has one.  Parentheses in the parameters do no harm.
-/

namespace Classpath
namespace Descriptor

/-- The types of a method.  A method without a result is `void`. -/
structure MethodType where
  parameters : List FieldType
  result : Option FieldType

namespace MethodType

def resultText (method : MethodType) : List Char :=
  match method.result with
  | none => ['V']
  | some type => type.text

/-- The class of the result, or of its elements if it is an array. -/
def resultClasses (method : MethodType) : List ClassName :=
  match method.result with
  | none => []
  | some type => type.element.classes

def descriptor (method : MethodType) : String :=
  String.ofList ('(' :: (method.parameters.flatMap FieldType.text ++ ')' :: method.resultText))

end MethodType

/-- The characters after the last closing parenthesis. -/
def afterParenthesis (cs : List Char) : List Char := cs.rtakeWhile (· != ')')

theorem afterParenthesis_append (before after : List Char) :
    afterParenthesis (before ++ ')' :: after) = afterParenthesis after := by
  unfold afterParenthesis
  -- From the back, the parenthesis is met before anything that stands in front of it.
  induction after using List.reverseRecOn with
  | nil => rw [List.rtakeWhile_concat_neg _ _ _ (by decide), List.rtakeWhile_nil]
  | append_singleton cs c ih =>
      rw [← List.cons_append, ← List.append_assoc, List.rtakeWhile_concat,
        List.rtakeWhile_concat, ih]

theorem afterParenthesis_eq_self_iff {cs : List Char} : afterParenthesis cs = cs ↔ ')' ∉ cs := by
  rw [afterParenthesis, List.rtakeWhile_eq_self_iff]
  constructor
  · intro h hmem
    exact absurd (h ')' hmem) (by decide)
  · intro h c hc
    rw [bne_iff_ne]
    rintro rfl
    exact h hc

theorem returnType?_ofList (cs : List Char) :
    returnType? (String.ofList cs) =
      if cs.contains ')' && !(afterParenthesis cs).isEmpty then
        some (String.ofList (afterParenthesis cs)) else none := by
  rw [returnType?, String.toList_ofList]
  rfl

/-- What stands before a closing parenthesis does not matter to the result. -/
theorem returnType?_append (before after : List Char) (h : afterParenthesis after ≠ []) :
    returnType? (String.ofList (before ++ ')' :: after)) =
      some (String.ofList (afterParenthesis after)) := by
  rw [returnType?_ofList, afterParenthesis_append]
  exact if_pos (by simpa using h)

namespace MethodType

variable (method : MethodType)

/-- No type ends with a parenthesis. -/
theorem exists_last_resultText :
    ∃ start last, method.resultText = start ++ [last] ∧ last ≠ ')' := by
  unfold resultText
  split
  · exact ⟨[], 'V', rfl, by decide⟩
  · next type _ =>
      unfold FieldType.text arrayText
      cases type.element with
      | base element => exact ⟨_, element.code, rfl, by cases element <;> decide⟩
      | object name =>
          refine ⟨List.replicate type.dimensions '[' ++ 'L' :: name.internal, ';', ?_, by decide⟩
          rw [ElementType.text, List.append_assoc]
          rfl

/-- The result is read as the part of its text after the last parenthesis in it. -/
theorem returnType?_descriptor :
    returnType? method.descriptor = some (String.ofList (afterParenthesis method.resultText)) := by
  apply returnType?_append ('(' :: method.parameters.flatMap FieldType.text)
  obtain ⟨start, last, htext, hlast⟩ := method.exists_last_resultText
  rw [htext, afterParenthesis, List.rtakeWhile_concat_pos _ _ _ (by simpa using hlast)]
  exact List.append_ne_nil_of_right_ne_nil _ (List.cons_ne_nil _ _)

theorem returnType?_eq_resultText_iff :
    returnType? method.descriptor = some (String.ofList method.resultText) ↔
      ')' ∉ method.resultText := by
  rw [returnType?_descriptor, Option.some_inj, String.ofList_inj, afterParenthesis_eq_self_iff]

theorem classNames_resultText :
    classNames (String.ofList method.resultText) = method.resultClasses := by
  unfold resultText resultClasses
  split
  · decide +kernel
  · next type _ => exact classNames_fieldType type

end MethodType

/-- The result of a method is read, and its class recorded, exactly if the type of the
result has no closing parenthesis.  The parameters never matter. -/
theorem method_result_iff (method : MethodType) :
    ((returnType? method.descriptor = some (String.ofList method.resultText) ∧
        resultMentions method.descriptor = method.resultClasses) ↔ ')' ∉ method.resultText) ∧
    ∀ parameters, resultMentions (MethodType.mk parameters method.result).descriptor =
      resultMentions method.descriptor := by
  rw [← method.returnType?_eq_resultText_iff]
  refine ⟨⟨And.left, fun h => ⟨h, ?_⟩⟩, ?_⟩
  · rw [resultMentions, h]
    exact method.classNames_resultText
  · intro parameters
    rw [resultMentions, resultMentions, MethodType.returnType?_descriptor,
      MethodType.returnType?_descriptor]
    rfl

/-- The method with the descriptor `(Lb;)La)Lb;`, whose result is the class `a)Lb`. -/
def parenthesisInResult : MethodType where
  parameters := [⟨0, .object ⟨[.ofChars ['b'] rfl rfl], List.cons_ne_nil _ _⟩⟩]
  result := some ⟨0, .object ⟨[.ofChars ['a', ')', 'L', 'b'] rfl rfl],
    List.cons_ne_nil _ _⟩⟩

/-- A parenthesis in the class of the result hides it behind another class. -/
theorem parenthesisInResult_lost :
    parenthesisInResult.descriptor = "(Lb;)La)Lb;" ∧
    returnType? parenthesisInResult.descriptor = some "Lb;" ∧
    resultMentions parenthesisInResult.descriptor = [⟨"b"⟩] ∧
    parenthesisInResult.resultClasses = [⟨"a)Lb"⟩] := by
  decide +kernel

end Descriptor
end Classpath
