import Classpath.Descriptor

/-!
# Names as descriptors spell them

A class name is a sequence of identifiers.  Class files write a slash between them, and
the dotted name has a dot there.  An identifier may hold any character but the few that
separate, so the letters and signs of descriptors can all occur inside a name.
-/

namespace Classpath

namespace Text

variable {α : Type} {separator : α} {texts : List (List α)}

/-- A character of joined texts is a separator or stands in one of them. -/
theorem mem_rejoin {c : α} (h : c ∈ rejoin separator texts) :
    c = separator ∨ ∃ text ∈ texts, c ∈ text := by
  fun_induction rejoin separator texts with
  | case1 => simp at h
  | case2 text => exact .inr ⟨text, by simp, h⟩
  | case3 text next more ih =>
      rcases List.mem_append.1 h with hfirst | hrest
      · exact .inr ⟨text, by simp, hfirst⟩
      · rcases List.mem_cons.1 hrest with rfl | hlater
        · exact .inl rfl
        · rcases ih hlater with heq | ⟨other, hother, hc⟩
          · exact .inl heq
          · exact .inr ⟨other, List.mem_cons_of_mem _ hother, hc⟩

/-- A change of characters that only concerns the separator changes the separator. -/
theorem map_rejoin {f : α → α} (h : ∀ text ∈ texts, ∀ c ∈ text, f c = c) :
    (rejoin separator texts).map f = rejoin (f separator) texts := by
  have hsame : ∀ text ∈ texts, text.map f = text := fun text htext =>
    (List.map_congr_left (h text htext)).trans (List.map_id' text)
  clear h
  fun_induction rejoin separator texts with
  | case1 => rfl
  | case2 text => exact hsame text (by simp)
  | case3 text next more ih =>
      rw [rejoin, List.map_append, List.map_cons, hsame text (by simp),
        ih fun other hother => hsame other (List.mem_cons_of_mem _ hother)]

theorem rejoin_ne_nil (hne : texts ≠ []) (h : ∀ text ∈ texts, text ≠ []) :
    rejoin separator texts ≠ [] := by
  fun_cases rejoin separator texts with
  | case1 => exact absurd rfl hne
  | case2 text => exact h text (by simp)
  | case3 text next more => simp

end Text

namespace Descriptor

/-- The characters that no identifier holds. -/
def reserved : List Char := ['.', ';', '[', '/', '<', '>']

/-- An identifier: one part of a class name, or the name of a type variable. -/
structure Identifier where
  chars : List Char
  nonempty : chars ≠ []
  legal : ∀ c ∈ chars, c ∉ reserved

/-- An identifier from characters that pass the tests for one. -/
def Identifier.ofChars (chars : List Char) (hne : chars.isEmpty = false)
    (hlegal : (chars.all fun c => !reserved.contains c) = true) : Identifier where
  chars := chars
  nonempty := List.isEmpty_eq_false_iff.1 hne
  legal := fun c hc hreserved => by
    have hc := List.all_eq_true.1 hlegal c hc
    rw [List.contains_iff_mem.2 hreserved] at hc
    exact Bool.false_ne_true hc

/-- A class name with its package: one or more identifiers. -/
structure QualifiedName where
  parts : List Identifier
  nonempty : parts ≠ []

/-- What the dotted form makes of a character of the internal form. -/
def dotForSlash (c : Char) : Char := if c = '/' then '.' else c

theorem ofInternal_eq_map (text : String) :
    ClassName.ofInternal text = ⟨String.ofList (text.toList.map dotForSlash)⟩ := rfl

namespace QualifiedName

/-- The identifiers with a separator between neighbours. -/
def spelled (separator : Char) (name : QualifiedName) : List Char :=
  Text.rejoin separator (name.parts.map (·.chars))

/-- The form that class files use, with slashes. -/
def internal (name : QualifiedName) : List Char := name.spelled '/'

/-- The name of the class, with dots. -/
def className (name : QualifiedName) : ClassName := ⟨String.ofList (name.spelled '.')⟩

variable (name : QualifiedName)

@[simp] theorem internal_ne_nil : name.internal ≠ [] := by
  apply Text.rejoin_ne_nil
  · simpa using name.nonempty
  · intro text htext
    obtain ⟨part, _, rfl⟩ := List.mem_map.1 htext
    exact part.nonempty

/-- The only reserved character of an internal name is the slash. -/
theorem eq_slash_of_mem_internal {c : Char} (h : c ∈ name.internal) (hc : c ∈ reserved) :
    c = '/' := by
  rcases Text.mem_rejoin h with heq | ⟨text, htext, hmem⟩
  · exact heq
  · obtain ⟨part, _, rfl⟩ := List.mem_map.1 htext
    exact absurd hc (part.legal c hmem)

@[simp] theorem semicolon_notMem_internal : ';' ∉ name.internal := fun h =>
  absurd (name.eq_slash_of_mem_internal h (by decide)) (by decide)

@[simp] theorem arrayMark_notMem_internal : '[' ∉ name.internal := fun h =>
  absurd (name.eq_slash_of_mem_internal h (by decide)) (by decide)

@[simp] theorem map_internal : name.internal.map dotForSlash = name.spelled '.' := by
  apply Text.map_rejoin
  intro text htext c hc
  obtain ⟨part, _, rfl⟩ := List.mem_map.1 htext
  -- No identifier holds a slash.
  have hslash : c ≠ '/' := by
    rintro rfl
    exact part.legal '/' hc (by decide)
  exact if_neg hslash

/-- Reading the internal form of a name gives the class of that name. -/
@[simp] theorem ofInternal_internal :
    ClassName.ofInternal (String.ofList name.internal) = name.className := by
  rw [ofInternal_eq_map, String.toList_ofList, map_internal, className]

end QualifiedName

/-- The primitive types that a value can have. -/
inductive BaseType
  | byte | char | double | float | int | long | short | boolean
deriving DecidableEq, Repr

def BaseType.code : BaseType → Char
  | byte => 'B'
  | char => 'C'
  | double => 'D'
  | float => 'F'
  | int => 'I'
  | long => 'J'
  | short => 'S'
  | boolean => 'Z'

end Descriptor
end Classpath
