import Classpath.Name

/-!
# Class names inside descriptors and signatures

Descriptors such as `([La/B;I)V` and generic signatures such as
`Ljava/util/List<La/B;>;` mention classes.  The functions here scan for those
mentions without checking the grammar: text that does not look like an object
type yields no names.
-/

namespace Classpath
namespace Descriptor

/-- The one-letter codes of `void` and the primitive types. -/
def primitiveCodes : List Char := ['V', 'Z', 'B', 'C', 'S', 'I', 'J', 'F', 'D']

/-- Is the text exactly one primitive code? -/
def isPrimitive : List Char → Bool
  | [code] => primitiveCodes.contains code
  | _ => false

/-- Remove the `L` and `;` around an object type.  Other text is kept as it is. -/
def unwrapObject : List Char → List Char
  | 'L' :: rest => if rest.getLast? = some ';' then rest.dropLast else 'L' :: rest
  | text => text

/-- Is the character one of the signs of a wildcard bound? -/
def isBoundSign (c : Char) : Bool := c = '+' || c = '-'

/-- Does the character end a token of a signature? -/
def isTokenEnd (c : Char) : Bool := c = ';' || c = '<' || c = '>'

/-- The class a signature token names: after its bound signs the token starts
with `L` and goes on. -/
def tokenClass? (token : List Char) : Option ClassName :=
  match token.dropWhile isBoundSign with
  | 'L' :: c :: rest => some (ClassName.ofInternal (String.ofList (c :: rest)))
  | _ => none

/-- Every class a descriptor or signature mentions, in order and with repeats.
Array marks are dropped first, then the text is cut at `;`, `<` and `>`. -/
def classNames (signature : String) : List ClassName :=
  (Text.pieces isTokenEnd (signature.toList.filter (· != '['))).filterMap tokenClass?

/-- The text after the last `)` of a method descriptor, if there is any. -/
def returnType? (descriptor : String) : Option String :=
  let cs := descriptor.toList
  let after := (cs.reverse.takeWhile (· != ')')).reverse
  if cs.contains ')' && !after.isEmpty then some (String.ofList after) else none

/-- The class operand of an instruction that creates or tests a type.  The
operand is an internal name or an array descriptor; arrays of primitives name
no class. -/
def operandClass? (operand : String) : Option ClassName :=
  let dotted := operand.toList.map fun c => if c = '/' then '.' else c
  let element := unwrapObject (dotted.dropWhile (· = '['))
  if element.isEmpty || isPrimitive element then none
  else some ⟨String.ofList element⟩

/-- The class of an annotation, given the descriptor of its type.  An empty
descriptor names none. -/
def annotationClass? (descriptor : String) : Option ClassName :=
  let name := unwrapObject descriptor.toList
  if name.isEmpty then none else some (ClassName.ofInternal (String.ofList name))

end Descriptor
end Classpath
