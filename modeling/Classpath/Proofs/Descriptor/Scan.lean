import Classpath.Proofs.Descriptor.Names

/-!
# Scanning a signature character by character

The scan cuts a whole text into tokens and asks of each whether it names a class.  Here
the same scan is described by what one more character in front of a text does.  All that
the text has to know about the characters before it is whether they have spoilt its first
token, that is, left it unable to name a class.
-/

namespace Classpath
namespace Descriptor

/-- The tokens of a text. -/
def tokens (cs : List Char) : List (List Char) :=
  Text.pieces isTokenEnd (cs.filter (· != '['))

/-- The classes found in a text.  If its first token is spoilt, they are those of the
other tokens. -/
def scan : (spoilt : Bool) → List Char → List ClassName
  | false, cs => (tokens cs).filterMap tokenClass?
  | true, cs => (tokens cs).tail.filterMap tokenClass?

theorem classNames_ofList (cs : List Char) : classNames (String.ofList cs) = scan false cs := by
  rw [classNames, String.toList_ofList]
  rfl

section Tokens

variable {c : Char} (cs : List Char)

theorem tokens_cons_tokenEnd (h : isTokenEnd c = true) : tokens (c :: cs) = [] :: tokens cs := by
  have hmark : c ≠ '[' := by
    rintro rfl
    simp [isTokenEnd] at h
  rw [tokens, List.filter_cons_of_pos (by simpa using hmark), Text.pieces_cons_separator h]
  rfl

/-- Any other character becomes the first one of the first token. -/
theorem tokens_cons_other (h : isTokenEnd c = false) (hmark : c ≠ '[') :
    ∃ first more, tokens cs = first :: more ∧ tokens (c :: cs) = (c :: first) :: more := by
  obtain ⟨first, more, htokens, hcons⟩ :=
    Text.pieces_cons_other (Bool.eq_false_iff.1 h) (cs.filter (· != '['))
  refine ⟨first, more, htokens, ?_⟩
  rw [tokens, List.filter_cons_of_pos (by simpa using hmark), hcons]

theorem tokens_append_tokenEnd {word : List Char} (hword : ∀ d ∈ word, isTokenEnd d = false)
    (hmark : '[' ∉ word) (hc : isTokenEnd c = true) :
    tokens (word ++ c :: cs) = word :: tokens cs := by
  induction word with
  | nil => exact tokens_cons_tokenEnd cs hc
  | cons d word ih =>
      rw [List.mem_cons, not_or] at hmark
      have hrest := ih (fun d hd => hword d (List.mem_cons_of_mem _ hd)) hmark.2
      obtain ⟨first, more, htokens, hcons⟩ :=
        tokens_cons_other (word ++ c :: cs) (hword d (by simp)) (Ne.symm hmark.1)
      rw [hrest] at htokens
      obtain ⟨rfl, rfl⟩ := List.cons.inj htokens
      exact hcons

end Tokens

section TokenClass

variable {c : Char} (token : List Char)

theorem tokenClass?_cons_boundSign (h : isBoundSign c = true) :
    tokenClass? (c :: token) = tokenClass? token := by
  rw [tokenClass?, List.dropWhile_cons_of_pos h, tokenClass?]

theorem tokenClass?_cons_other (h : isBoundSign c = false) (hobject : c ≠ 'L') :
    tokenClass? (c :: token) = none := by
  rw [tokenClass?, List.dropWhile_cons_of_neg (by simp [h])]
  split
  · next heq => exact absurd (List.cons.inj heq).1 hobject
  · rfl

@[simp] theorem tokenClass?_object (name : QualifiedName) :
    tokenClass? ('L' :: name.internal) = some name.className := by
  obtain ⟨first, rest, hname⟩ := List.exists_cons_of_ne_nil name.internal_ne_nil
  rw [← name.ofInternal_internal, hname]
  rfl

end TokenClass

section Characters

variable (spoilt : Bool) {c : Char} (cs : List Char)

@[simp] theorem scan_nil : scan spoilt [] = [] := by
  cases spoilt <;> rfl

@[simp] theorem scan_cons_arrayMark : scan spoilt ('[' :: cs) = scan spoilt cs := by
  cases spoilt <;> rfl

@[simp] theorem scan_arrayMarks (n : Nat) : scan spoilt (List.replicate n '[' ++ cs) = scan spoilt cs := by
  induction n with
  | zero => rfl
  | succ n ih => rw [List.replicate_succ, List.cons_append, scan_cons_arrayMark, ih]

/-- After the end of a token the scan starts afresh. -/
theorem scan_cons_tokenEnd (h : isTokenEnd c = true) : scan spoilt (c :: cs) = scan false cs := by
  cases spoilt with
  | true => rw [scan, scan, tokens_cons_tokenEnd cs h, List.tail_cons]
  | false =>
      rw [scan, scan, tokens_cons_tokenEnd cs h]
      rfl

/-- In a spoilt token no character but an end changes anything. -/
theorem scan_true_cons (h : isTokenEnd c = false) : scan true (c :: cs) = scan true cs := by
  by_cases hmark : c = '['
  · rw [hmark, scan_cons_arrayMark]
  · obtain ⟨first, more, hcs, hcons⟩ := tokens_cons_other cs h hmark
    rw [scan, scan, hcons, hcs, List.tail_cons, List.tail_cons]

theorem scan_true_append {word : List Char} (h : ∀ c ∈ word, isTokenEnd c = false) :
    scan true (word ++ cs) = scan true cs := by
  induction word with
  | nil => rfl
  | cons c word ih =>
      rw [List.cons_append, scan_true_cons _ (h c (by simp)),
        ih fun d hd => h d (List.mem_cons_of_mem _ hd)]

/-- The sign of a bound may stand before an object type. -/
theorem scan_cons_boundSign (h : isBoundSign c = true) :
    scan spoilt (c :: cs) = scan spoilt cs := by
  have hsign : c = '+' ∨ c = '-' := by simpa [isBoundSign] using h
  have hend : isTokenEnd c = false := by rcases hsign with rfl | rfl <;> rfl
  have hmark : c ≠ '[' := by rcases hsign with rfl | rfl <;> decide
  cases spoilt with
  | true => exact scan_true_cons cs hend
  | false =>
      obtain ⟨first, more, hcs, hcons⟩ := tokens_cons_other cs hend hmark
      rw [scan, scan, hcons, hcs, List.filterMap_cons, List.filterMap_cons,
        tokenClass?_cons_boundSign first h]

/-- A character that neither starts an object type nor may stand before one spoils the
token that it starts. -/
theorem scan_cons_other (hend : isTokenEnd c = false) (hmark : c ≠ '[')
    (hsign : isBoundSign c = false) (hobject : c ≠ 'L') :
    scan spoilt (c :: cs) = scan true cs := by
  cases spoilt with
  | true => exact scan_true_cons cs hend
  | false =>
      obtain ⟨first, more, hcs, hcons⟩ := tokens_cons_other cs hend hmark
      rw [scan, scan, hcons, hcs, List.filterMap_cons, tokenClass?_cons_other first hsign hobject,
        List.tail_cons]

end Characters

section Names

variable (spoilt : Bool) (cs : List Char)

/-- The code of a primitive type spoils the token. -/
@[simp] theorem scan_cons_code (type : BaseType) : scan spoilt (type.code :: cs) = scan true cs := by
  apply scan_cons_other <;> cases type <;> decide

theorem mem_reserved_of_isTokenEnd {c : Char} (h : isTokenEnd c = true) :
    c ∈ reserved ∧ c ≠ '/' := by
  have hcases : (c = ';' ∨ c = '<') ∨ c = '>' := by simpa [isTokenEnd] using h
  rcases hcases with (rfl | rfl) | rfl <;> decide

theorem Identifier.isTokenEnd_eq_false (name : Identifier) :
    ∀ c ∈ name.chars, isTokenEnd c = false := by
  intro c hc
  rw [← Bool.not_eq_true]
  exact fun hend => name.legal c hc (mem_reserved_of_isTokenEnd hend).1

theorem QualifiedName.isTokenEnd_eq_false (name : QualifiedName) :
    ∀ c ∈ name.internal, isTokenEnd c = false := by
  intro c hc
  rw [← Bool.not_eq_true]
  intro hend
  obtain ⟨hreserved, hslash⟩ := mem_reserved_of_isTokenEnd hend
  exact hslash (name.eq_slash_of_mem_internal hc hreserved)

/-- The name of an object type is found unless its token is spoilt. -/
theorem scan_object (name : QualifiedName) {c : Char} (hc : isTokenEnd c = true) :
    scan spoilt ('L' :: (name.internal ++ c :: cs)) =
      (if spoilt then [] else [name.className]) ++ scan false cs := by
  cases spoilt with
  | true =>
      rw [scan_true_cons _ rfl, scan_true_append _ name.isTokenEnd_eq_false,
        scan_cons_tokenEnd _ _ hc]
      rfl
  | false =>
      have hword : ∀ d ∈ 'L' :: name.internal, isTokenEnd d = false := by
        rw [List.forall_mem_cons]
        exact ⟨rfl, name.isTokenEnd_eq_false⟩
      have hmark : '[' ∉ 'L' :: name.internal := by
        rw [List.mem_cons, not_or]
        exact ⟨by decide, name.arrayMark_notMem_internal⟩
      rw [← List.cons_append, scan, tokens_append_tokenEnd cs hword hmark hc, List.filterMap_cons,
        tokenClass?_object]
      rfl

/-- A type variable is passed over. -/
@[simp] theorem scan_typeVariable (name : Identifier) :
    scan spoilt ('T' :: (name.chars ++ ';' :: cs)) = scan false cs := by
  rw [scan_cons_other spoilt _ rfl (by decide) rfl (by decide),
    scan_true_append _ name.isTokenEnd_eq_false, scan_cons_tokenEnd _ _ rfl]

end Names

end Descriptor
end Classpath
