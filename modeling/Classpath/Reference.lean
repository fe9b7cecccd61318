import Classpath.Descriptor
import Classpath.Model
import Classpath.PlatformFilter

/-!
# References of a class

The classes a decoded class mentions: operands of instructions, types of local
variables, fields and method results, and annotations.  Parameter types of
methods are not counted.  `references` is the set of mentions that the platform
does not provide.
-/

namespace Classpath

/-- The class an instruction mentions. -/
def Instruction.mention? : Instruction → Option ClassName
  | .type _ operand => Descriptor.operandClass? operand
  | .invoke _ owner => some (ClassName.ofInternal owner)
  | .field _ owner => some (ClassName.ofInternal owner)
  | .plain _ => none

/-- The classes of a descriptor and of the signature beside it. -/
def typeMentions (descriptor : String) (signature : Option String) : List ClassName :=
  Descriptor.classNames descriptor ++
    match signature with
    | some text => Descriptor.classNames text
    | none => []

def LocalVariable.mentions (slot : LocalVariable) : List ClassName :=
  typeMentions slot.descriptor slot.signature

/-- The classes of a method's result. -/
def resultMentions (descriptor : String) : List ClassName :=
  match Descriptor.returnType? descriptor with
  | some result => Descriptor.classNames result
  | none => []

def annotationMentions (annotations : List String) : List ClassName :=
  annotations.filterMap Descriptor.annotationClass?

def Method.mentions (method : Method) : List ClassName :=
  method.instructions.filterMap Instruction.mention? ++
    method.localVariables.flatMap LocalVariable.mentions ++
    resultMentions method.descriptor ++
    annotationMentions method.annotations ++
    method.parameterAnnotations.flatMap annotationMentions ++
    annotationMentions method.localVariableAnnotations

def Field.mentions (field : Field) : List ClassName :=
  typeMentions field.descriptor field.signature ++ annotationMentions field.annotations

namespace ClassModel

/-- Every class the model mentions, with repeats. -/
def mentions (model : ClassModel) : List ClassName :=
  model.methods.flatMap Method.mentions ++
    model.fields.flatMap Field.mentions ++
    annotationMentions model.annotations

/-- The classes the model needs: its mentions that the platform does not
provide, each once, in ascending order. -/
def references (filter : PlatformFilter) (model : ClassModel) : List ClassName :=
  ascending (model.mentions.filter fun name => !filter.provides name)

/-- The methods whose descriptor names no result.  They contribute no result
class, and a check warns about each. -/
def malformedMethods (model : ClassModel) : List Method :=
  model.methods.filter fun method => (Descriptor.returnType? method.descriptor).isNone

end ClassModel
end Classpath
