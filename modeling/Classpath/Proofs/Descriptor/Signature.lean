import Classpath.Proofs.Descriptor.Scan

/-!
# Class types of a generic signature

A signature is the text of a tree: class types with type arguments, type variables and
arrays.  Every text of an argument ends with a semicolon, but for a wildcard `*` and for an
array of a primitive type.  The argument after one of these is written in the same token,
so a class type there is not found.  All other class types are found, in the order of the
text, and nothing else is.

The grammar keeps colons out of identifiers as well; the scan does not depend on that.
-/

namespace Classpath
namespace Descriptor

/-- How a type argument bounds its type. -/
inductive Bound
  | exact | upper | lower
deriving DecidableEq, Repr

def Bound.sign : Bound → List Char
  | exact => []
  | upper => ['+']
  | lower => ['-']

mutual
/-- A type of a signature. -/
inductive JavaType
  | base (type : BaseType)
  | reference (type : ReferenceType)
/-- A type that is not primitive. -/
inductive ReferenceType
  | classType (name : QualifiedName) (arguments : List TypeArgument)
  | typeVariable (name : Identifier)
  | array (element : JavaType)
/-- An argument of a class type: a wildcard alone, or a type with a bound. -/
inductive TypeArgument
  | wildcard
  | bounded (bound : Bound) (type : ReferenceType)
end

mutual
def JavaType.text : JavaType → List Char
  | .base type => [type.code]
  | .reference type => type.text
def ReferenceType.text : ReferenceType → List Char
  | .classType name arguments =>
      'L' :: (name.internal ++
        if arguments.isEmpty then [';'] else '<' :: (TypeArgument.texts arguments ++ ['>', ';']))
  | .typeVariable name => 'T' :: (name.chars ++ [';'])
  | .array element => '[' :: element.text
def TypeArgument.text : TypeArgument → List Char
  | .wildcard => ['*']
  | .bounded bound type => bound.sign ++ type.text
/-- The texts of arguments, which follow one another with nothing between them. -/
def TypeArgument.texts : List TypeArgument → List Char
  | [] => []
  | argument :: rest => argument.text ++ TypeArgument.texts rest
end

/-- The signature of a reference type. -/
def ReferenceType.signature (type : ReferenceType) : String := String.ofList type.text

mutual
def JavaType.hasPrimitiveElement : JavaType → Bool
  | .base _ => true
  | .reference type => type.isPrimitiveArray
/-- Is the type an array, of any depth, of a primitive type? -/
def ReferenceType.isPrimitiveArray : ReferenceType → Bool
  | .classType _ _ => false
  | .typeVariable _ => false
  | .array element => element.hasPrimitiveElement
end

/-- Does the argument lack an end, so that the next one goes on in the same token? -/
def TypeArgument.isOpen : TypeArgument → Bool
  | .wildcard => true
  | .bounded _ type => type.isPrimitiveArray

/-- A class type at its place in a signature. -/
structure Occurrence where
  name : QualifiedName
  arguments : List TypeArgument
  /-- The argument right before the one that the class type makes up, up to array marks and
  a bound, in the same list of arguments. -/
  before : Option TypeArgument

/-- Is the class type written in the token of the argument before it? -/
def Occurrence.isLeftOut (occurrence : Occurrence) : Bool :=
  occurrence.before.any TypeArgument.isOpen

mutual
def JavaType.occurrences (before : Option TypeArgument) : JavaType → List Occurrence
  | .base _ => []
  | .reference type => type.occurrences before
/-- The class types in a reference type, in the order of the text. -/
def ReferenceType.occurrences (before : Option TypeArgument) : ReferenceType → List Occurrence
  | .classType name arguments =>
      ⟨name, arguments, before⟩ :: TypeArgument.occurrencesAmong none arguments
  | .typeVariable _ => []
  | .array element => element.occurrences before
def TypeArgument.occurrences (before : Option TypeArgument) : TypeArgument → List Occurrence
  | .wildcard => []
  | .bounded _ type => type.occurrences before
/-- The class types in a list of arguments that goes on after the argument `before`. -/
def TypeArgument.occurrencesAmong (before : Option TypeArgument) :
    List TypeArgument → List Occurrence
  | [] => []
  | argument :: rest =>
      argument.occurrences before ++ TypeArgument.occurrencesAmong (some argument) rest
end

/-- The class types of a signature, in the order of the text. -/
def ReferenceType.classTypes (type : ReferenceType) : List Occurrence := type.occurrences none

/-- The classes of those class types that are not left out. -/
def found (occurrences : List Occurrence) : List ClassName :=
  (occurrences.filter (!·.isLeftOut)).map (·.name.className)

theorem found_cons (occurrence : Occurrence) (rest : List Occurrence) :
    found (occurrence :: rest) =
      (if occurrence.isLeftOut then [] else [occurrence.name.className]) ++ found rest := by
  unfold found
  cases h : occurrence.isLeftOut with
  | true => rw [List.filter_cons_of_neg (by simp [h])]; rfl
  | false => rw [List.filter_cons_of_pos (by simp [h])]; rfl

@[simp] theorem found_append (first second : List Occurrence) :
    found (first ++ second) = found first ++ found second := by
  rw [found, List.filter_append, List.map_append, found, found]

@[simp] theorem scan_bound (spoilt : Bool) (bound : Bound) (cs : List Char) :
    scan spoilt (bound.sign ++ cs) = scan spoilt cs := by
  cases bound with
  | exact => rfl
  | upper => exact scan_cons_boundSign spoilt cs rfl
  | lower => exact scan_cons_boundSign spoilt cs rfl

-- One statement a kind of node, each about the text in front of any other text.  A token
-- is spoilt before the node exactly if the argument before it is open, and after the node
-- exactly if the node is open itself.
mutual
theorem JavaType.scan_text (type : JavaType) (before : Option TypeArgument) (cs : List Char) :
    scan (before.any TypeArgument.isOpen) (type.text ++ cs) =
      found (type.occurrences before) ++ scan type.hasPrimitiveElement cs := by
  cases type with
  | base type => exact scan_cons_code _ cs type
  | reference type => exact type.scan_text before cs

theorem ReferenceType.scan_text (type : ReferenceType) (before : Option TypeArgument)
    (cs : List Char) :
    scan (before.any TypeArgument.isOpen) (type.text ++ cs) =
      found (type.occurrences before) ++ scan type.isPrimitiveArray cs := by
  cases type with
  | classType name arguments =>
      rw [ReferenceType.occurrences, found_cons, Occurrence.isLeftOut, List.append_assoc]
      cases arguments with
      | nil =>
          rw [ReferenceType.text, List.cons_append, List.append_assoc]
          exact scan_object _ cs name rfl
      | cons first rest =>
          have htext : (ReferenceType.classType name (first :: rest)).text ++ cs =
              'L' :: (name.internal ++
                '<' :: (TypeArgument.texts (first :: rest) ++ '>' :: ';' :: cs)) := by
            simp [ReferenceType.text]
          -- `<` ends the token of the name.  Between `>` and `;` there is an empty token.
          have harguments := TypeArgument.scan_texts (first :: rest) none (';' :: cs)
          rw [scan_cons_tokenEnd false cs rfl] at harguments
          rw [htext, scan_object _ _ name rfl]
          exact congrArg _ harguments
  | typeVariable name =>
      rw [ReferenceType.text, List.cons_append, List.append_assoc]
      exact scan_typeVariable _ cs name
  | array element =>
      rw [ReferenceType.text, List.cons_append, scan_cons_arrayMark]
      exact element.scan_text before cs

theorem TypeArgument.scan_text (argument : TypeArgument) (before : Option TypeArgument)
    (cs : List Char) :
    scan (before.any TypeArgument.isOpen) (argument.text ++ cs) =
      found (argument.occurrences before) ++ scan argument.isOpen cs := by
  cases argument with
  | wildcard => exact scan_cons_other _ cs rfl (by decide) rfl (by decide)
  | bounded bound type =>
      rw [TypeArgument.text, List.append_assoc, scan_bound]
      exact type.scan_text before cs

theorem TypeArgument.scan_texts (arguments : List TypeArgument) (before : Option TypeArgument)
    (cs : List Char) :
    scan (before.any TypeArgument.isOpen) (TypeArgument.texts arguments ++ '>' :: cs) =
      found (TypeArgument.occurrencesAmong before arguments) ++ scan false cs := by
  cases arguments with
  | nil => exact scan_cons_tokenEnd _ cs rfl
  | cons argument rest =>
      have hrest := TypeArgument.scan_texts rest (some argument) cs
      rw [Option.any_some] at hrest
      rw [TypeArgument.texts, TypeArgument.occurrencesAmong, found_append, List.append_assoc,
        argument.scan_text before, hrest, List.append_assoc]
end

/-- The scan finds exactly the class types that are not left out. -/
theorem classNames_signature_eq_found (type : ReferenceType) :
    classNames type.signature = found type.classTypes := by
  have h := type.scan_text none []
  rw [List.append_nil, scan_nil, List.append_nil] at h
  rw [ReferenceType.signature, classNames_ofList]
  exact h

section Nested

variable {occurrence : Occurrence}

-- The class types in the arguments of a class type stand together among all class types.
mutual
theorem JavaType.isInfix_occurrences (type : JavaType) {before : Option TypeArgument}
    (h : occurrence ∈ type.occurrences before) :
    TypeArgument.occurrencesAmong none occurrence.arguments <:+: type.occurrences before := by
  cases type with
  | base type => exact absurd h List.not_mem_nil
  | reference type => exact type.isInfix_occurrences h

theorem ReferenceType.isInfix_occurrences (type : ReferenceType) {before : Option TypeArgument}
    (h : occurrence ∈ type.occurrences before) :
    TypeArgument.occurrencesAmong none occurrence.arguments <:+: type.occurrences before := by
  cases type with
  | classType name arguments =>
      rw [ReferenceType.occurrences] at h ⊢
      have htail := (List.suffix_cons (Occurrence.mk name arguments before)
        (TypeArgument.occurrencesAmong none arguments)).isInfix
      rcases List.mem_cons.1 h with rfl | hinside
      · exact htail
      · exact (TypeArgument.isInfix_occurrencesAmong arguments hinside).trans htail
  | typeVariable name => exact absurd h List.not_mem_nil
  | array element => exact element.isInfix_occurrences h

theorem TypeArgument.isInfix_occurrences (argument : TypeArgument) {before : Option TypeArgument}
    (h : occurrence ∈ argument.occurrences before) :
    TypeArgument.occurrencesAmong none occurrence.arguments <:+: argument.occurrences before := by
  cases argument with
  | wildcard => exact absurd h List.not_mem_nil
  | bounded bound type => exact type.isInfix_occurrences h

theorem TypeArgument.isInfix_occurrencesAmong (arguments : List TypeArgument)
    {before : Option TypeArgument}
    (h : occurrence ∈ TypeArgument.occurrencesAmong before arguments) :
    TypeArgument.occurrencesAmong none occurrence.arguments <:+:
      TypeArgument.occurrencesAmong before arguments := by
  cases arguments with
  | nil => exact absurd h List.not_mem_nil
  | cons argument rest =>
      rw [TypeArgument.occurrencesAmong] at h ⊢
      rcases List.mem_append.1 h with hfirst | hrest
      · exact (argument.isInfix_occurrences hfirst).trans (List.prefix_append _ _).isInfix
      · exact (TypeArgument.isInfix_occurrencesAmong rest hrest).trans
          (List.suffix_append _ _).isInfix
end

end Nested

/-- The scan finds the class types that are not left out, in the order of the text, and
nothing else.  The class types in the arguments of a class type are treated alike whether
or not that class type is left out itself. -/
theorem classNames_signature (type : ReferenceType) :
    classNames type.signature = found type.classTypes ∧
    (classNames type.signature).Sublist (type.classTypes.map (·.name.className)) ∧
    ∀ occurrence ∈ type.classTypes,
      found (TypeArgument.occurrencesAmong none occurrence.arguments) <:+:
        classNames type.signature := by
  rw [classNames_signature_eq_found]
  refine ⟨rfl, List.filter_sublist.map _, ?_⟩
  intro occurrence h
  exact ((type.isInfix_occurrences h).filter _).map _

/-- A class of the package `pkg`. -/
def inPkg (name : Identifier) : QualifiedName where
  parts := [.ofChars ['p', 'k', 'g'] rfl rfl, name]
  nonempty := List.cons_ne_nil _ _

/-- The argument of `Lpkg/Item<Lpkg/Part;>;`. -/
def itemOfPart : List TypeArgument :=
  [.bounded .exact (.classType (inPkg (.ofChars ['P', 'a', 'r', 't'] rfl rfl)) [])]

def pkgItem : QualifiedName := inPkg (.ofChars ['I', 't', 'e', 'm'] rfl rfl)

/-- The type with the signature `Lpkg/Map<*Lpkg/Item<Lpkg/Part;>;>;`. -/
def afterWildcard : ReferenceType :=
  .classType (inPkg (.ofChars ['M', 'a', 'p'] rfl rfl))
    [.wildcard, .bounded .exact (.classType pkgItem itemOfPart)]

/-- The item is left out after the wildcard, and the part inside it is found. -/
theorem afterWildcard_finds_part :
    Occurrence.isLeftOut ⟨pkgItem, itemOfPart, some .wildcard⟩ = true ∧
    ⟨pkgItem, itemOfPart, some .wildcard⟩ ∈ afterWildcard.classTypes ∧
    [⟨"pkg.Part"⟩] <:+: classNames afterWildcard.signature := by
  have hmem : ⟨pkgItem, itemOfPart, some .wildcard⟩ ∈ afterWildcard.classTypes :=
    .tail _ (.head _)
  have hpart : found (TypeArgument.occurrencesAmong none itemOfPart) = [⟨"pkg.Part"⟩] := by
    decide +kernel
  refine ⟨rfl, hmem, ?_⟩
  rw [← hpart]
  exact (classNames_signature afterWildcard).2.2 _ hmem

/-- Every class type is found exactly if none stands right after an argument without end. -/
theorem classNames_signature_eq_all_iff (type : ReferenceType) :
    classNames type.signature = type.classTypes.map (·.name.className) ↔
      ∀ occurrence ∈ type.classTypes, occurrence.isLeftOut = false := by
  rw [classNames_signature_eq_found, found]
  constructor
  · intro h
    -- Leaving out one class type already makes the list shorter.
    have hlength := congrArg List.length h
    rw [List.length_map, List.length_map] at hlength
    simpa using List.length_filter_eq_length_iff.1 hlength
  · intro h
    rw [List.filter_eq_self.2 fun occurrence hmem => by rw [h occurrence hmem]; rfl]

/-- The class type after a wildcard is not found. -/
theorem afterWildcard_loses_item :
    afterWildcard.signature = "Lpkg/Map<*Lpkg/Item<Lpkg/Part;>;>;" ∧
    classNames afterWildcard.signature = [⟨"pkg.Map"⟩, ⟨"pkg.Part"⟩] ∧
    afterWildcard.classTypes.map (·.name.className) =
      [⟨"pkg.Map"⟩, ⟨"pkg.Item"⟩, ⟨"pkg.Part"⟩] := by
  decide +kernel

end Descriptor
end Classpath
