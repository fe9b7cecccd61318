import Classpath.Proofs.Descriptor.MethodResult
import Classpath.Proofs.NameOrder

/-!
# Where a class names other classes

A class names others in the operands of its instructions, in the types of its local
variables, fields and method results, and in annotations.  `Names` says so member by
member.  The references of a class are the names that arise at one of these places and
that the platform does not provide, so classes put together refer to what each of them
refers to.
-/

namespace Classpath

/-! ## The places -/

/-- The operand of the instruction is the class, or its owner is. -/
def Instruction.Names : Instruction → ClassName → Prop
  | .type _ operand, name => Descriptor.operandClass? operand = some name
  | .invoke _ owner, name => name = .ofInternal owner
  | .field _ owner, name => name = .ofInternal owner
  | .plain _, _ => False

/-- The class occurs in the descriptor of a type or in the signature beside it. -/
def TypeNames (descriptor : String) (signature : Option String) (name : ClassName) : Prop :=
  name ∈ Descriptor.classNames descriptor ∨
    ∃ text, signature = some text ∧ name ∈ Descriptor.classNames text

/-- The class occurs in what follows the last closing parenthesis of a method's
descriptor. -/
def ResultNames (descriptor : String) (name : ClassName) : Prop :=
  ∃ before after, descriptor.toList = before ++ ')' :: after ∧ ')' ∉ after ∧ after ≠ [] ∧
    name ∈ Descriptor.classNames (String.ofList after)

/-- The text inside of `L` and `;`, or the whole text if it does not stand between these. -/
def Descriptor.Unwraps (text inside : List Char) : Prop :=
  text = 'L' :: (inside ++ [';']) ∨
    (∀ other, text ≠ 'L' :: (other ++ [';'])) ∧ text = inside

/-- The class is the type of an annotation with the descriptor. -/
def AnnotationNames (descriptor : String) (name : ClassName) : Prop :=
  ∃ inside, Descriptor.Unwraps descriptor.toList inside ∧ inside ≠ [] ∧
    name = .ofInternal (String.ofList inside)

def Method.Names (method : Method) (name : ClassName) : Prop :=
  (∃ instruction ∈ method.instructions, instruction.Names name) ∨
    (∃ slot ∈ method.localVariables, TypeNames slot.descriptor slot.signature name) ∨
    ResultNames method.descriptor name ∨
    (∃ descriptor ∈ method.annotations, AnnotationNames descriptor name) ∨
    (∃ parameter ∈ method.parameterAnnotations,
      ∃ descriptor ∈ parameter, AnnotationNames descriptor name) ∨
    ∃ descriptor ∈ method.localVariableAnnotations, AnnotationNames descriptor name

def Field.Names (field : Field) (name : ClassName) : Prop :=
  TypeNames field.descriptor field.signature name ∨
    ∃ descriptor ∈ field.annotations, AnnotationNames descriptor name

def ClassModel.Names (model : ClassModel) (name : ClassName) : Prop :=
  (∃ method ∈ model.methods, method.Names name) ∨ (∃ field ∈ model.fields, field.Names name) ∨
    ∃ descriptor ∈ model.annotations, AnnotationNames descriptor name

/-! ## What is collected there -/

theorem Instruction.mention?_eq_some_iff {instruction : Instruction} {name : ClassName} :
    instruction.mention? = some name ↔ instruction.Names name := by
  cases instruction with
  | type op operand => exact Iff.rfl
  | invoke op owner => simp only [mention?, Names, Option.some_inj, eq_comm]
  | field op owner => simp only [mention?, Names, Option.some_inj, eq_comm]
  | plain opcode => simp only [mention?, Names, reduceCtorEq]

theorem mem_typeMentions {descriptor : String} {signature : Option String} {name : ClassName} :
    name ∈ typeMentions descriptor signature ↔ TypeNames descriptor signature name := by
  cases signature with
  | none => simp [typeMentions, TypeNames]
  | some text => simp [typeMentions, TypeNames]

namespace Descriptor

theorem exists_last_parenthesis {cs : List Char} (h : ')' ∈ cs) :
    ∃ before after, cs = before ++ ')' :: after ∧ ')' ∉ after := by
  -- The last one is the first one from the back.
  obtain ⟨after, before, hsplit, hafter⟩ :=
    List.eq_append_cons_of_mem (List.mem_reverse.2 h)
  refine ⟨before.reverse, after.reverse, ?_, by rwa [List.mem_reverse]⟩
  rw [← List.reverse_reverse cs, hsplit, List.reverse_append, List.reverse_cons,
    List.append_assoc]
  rfl

theorem returnType?_eq_some_iff {descriptor result : String} :
    returnType? descriptor = some result ↔
      ∃ before after, descriptor.toList = before ++ ')' :: after ∧ ')' ∉ after ∧ after ≠ [] ∧
        result = String.ofList after := by
  obtain ⟨cs, rfl⟩ := descriptor.exists_eq_ofList
  rw [String.toList_ofList]
  constructor
  · intro h
    rw [returnType?_ofList] at h
    split at h
    · next hresult =>
        simp only [Bool.and_eq_true, List.contains_iff_mem, Bool.not_eq_true',
          List.isEmpty_eq_false_iff] at hresult
        obtain ⟨before, after, rfl, hafter⟩ := exists_last_parenthesis hresult.1
        rw [afterParenthesis_append, afterParenthesis_eq_self_iff.2 hafter] at h hresult
        exact ⟨before, after, rfl, hafter, hresult.2, (Option.some_inj.1 h).symm⟩
    · cases h
  · rintro ⟨before, after, rfl, hafter, hne, rfl⟩
    rw [← afterParenthesis_eq_self_iff] at hafter
    rw [returnType?_append before after (by rwa [hafter]), hafter]

theorem unwrapObject_of_not_object {text : List Char}
    (h : ∀ other, text ≠ 'L' :: (other ++ [';'])) : unwrapObject text = text := by
  unfold unwrapObject
  split
  · next rest =>
      refine if_neg fun hlast => ?_
      obtain ⟨other, rfl⟩ := List.getLast?_eq_some_iff.1 hlast
      exact h other rfl
  · rfl

theorem unwraps_iff {text inside : List Char} :
    Unwraps text inside ↔ unwrapObject text = inside := by
  by_cases hobject : ∃ other, text = 'L' :: (other ++ [';'])
  · obtain ⟨other, rfl⟩ := hobject
    simp [Unwraps]
  · rw [not_exists] at hobject
    rw [unwrapObject_of_not_object hobject, Unwraps, or_iff_right (hobject inside),
      and_iff_right hobject]

end Descriptor

theorem mem_resultMentions {descriptor : String} {name : ClassName} :
    name ∈ resultMentions descriptor ↔ ResultNames descriptor name := by
  constructor
  · intro h
    unfold resultMentions at h
    split at h
    · next result hresult =>
        obtain ⟨before, after, hsplit, hlast, hne, rfl⟩ :=
          Descriptor.returnType?_eq_some_iff.1 hresult
        exact ⟨before, after, hsplit, hlast, hne, h⟩
    · cases h
  · rintro ⟨before, after, hsplit, hlast, hne, hname⟩
    rw [resultMentions,
      Descriptor.returnType?_eq_some_iff.2 ⟨before, after, hsplit, hlast, hne, rfl⟩]
    exact hname

theorem annotationClass?_eq_some_iff {descriptor : String} {name : ClassName} :
    Descriptor.annotationClass? descriptor = some name ↔ AnnotationNames descriptor name := by
  simp only [Descriptor.annotationClass?, AnnotationNames, Descriptor.unwraps_iff,
    exists_eq_left', List.isEmpty_iff]
  by_cases h : Descriptor.unwrapObject descriptor.toList = []
  · simp [h]
  · rw [if_neg h, Option.some_inj, and_iff_right h, eq_comm]

theorem mem_annotationMentions {annotations : List String} {name : ClassName} :
    name ∈ annotationMentions annotations ↔
      ∃ descriptor ∈ annotations, AnnotationNames descriptor name := by
  simp only [annotationMentions, List.mem_filterMap, annotationClass?_eq_some_iff]

theorem Method.mem_mentions {method : Method} {name : ClassName} :
    name ∈ method.mentions ↔ method.Names name := by
  simp only [mentions, Names, List.mem_append, List.mem_filterMap, List.mem_flatMap,
    Instruction.mention?_eq_some_iff, LocalVariable.mentions, mem_typeMentions,
    mem_resultMentions, mem_annotationMentions, or_assoc]

theorem Field.mem_mentions {field : Field} {name : ClassName} :
    name ∈ field.mentions ↔ field.Names name := by
  simp only [mentions, Names, List.mem_append, mem_typeMentions, mem_annotationMentions]

namespace ClassModel

theorem mem_mentions {model : ClassModel} {name : ClassName} :
    name ∈ model.mentions ↔ model.Names name := by
  simp only [mentions, Names, List.mem_append, List.mem_flatMap, Method.mem_mentions,
    Field.mem_mentions, mem_annotationMentions, or_assoc]

end ClassModel

theorem PlatformFilter.provides_iff {filter : PlatformFilter} {name : ClassName} :
    filter.provides name = true ↔
      ∃ start ∈ filter.starts, start.toList <+: name.dotted.toList := by
  simp only [provides, List.any_eq_true, ClassName.beginsWith, Text.beginsWith,
    List.isPrefixOf_iff_prefix]

/-- The references of a class are the names that arise in it and begin with no start of
the filter. -/
theorem ClassModel.mem_references_iff {filter : PlatformFilter} {model : ClassModel}
    {name : ClassName} :
    name ∈ model.references filter ↔
      (∀ start ∈ filter.starts, ¬ start.toList <+: name.dotted.toList) ∧ model.Names name := by
  rw [mem_references, mem_mentions, PlatformFilter.provides_iff, and_comm]
  simp only [not_exists, not_and]

/-! ## Classes put together -/

/-- The members of both classes. -/
def ClassModel.append (model other : ClassModel) : ClassModel where
  methods := model.methods ++ other.methods
  fields := model.fields ++ other.fields
  annotations := model.annotations ++ other.annotations

namespace ClassModel

variable {model other : ClassModel} {name : ClassName}

theorem names_append : (model.append other).Names name ↔ model.Names name ∨ other.Names name := by
  simp only [Names, append, List.mem_append, or_and_right, exists_or]
  grind

theorem mem_references_append {filter : PlatformFilter} :
    name ∈ (model.append other).references filter ↔
      name ∈ model.references filter ∨ name ∈ other.references filter := by
  simp only [mem_references_iff, names_append, and_or_left]

/-- Classes that name the same refer to the same, in the same order. -/
theorem references_congr (h : ∀ name, model.Names name ↔ other.Names name)
    (filter : PlatformFilter) : model.references filter = other.references filter := by
  apply ascending_congr
  intro name
  simp only [List.mem_filter, mem_mentions, h]

end ClassModel
end Classpath
