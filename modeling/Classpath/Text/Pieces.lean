/-!
# Cutting text at separators

A text is cut at every separator, so a text with `n` separators has `n + 1`
pieces, some of them possibly empty.
-/

namespace Classpath
namespace Text

/-- The pieces between separators, in order.  Two separators side by side
enclose an empty piece. -/
def pieces {α : Type} (isSeparator : α → Bool) : List α → List (List α)
  | [] => [[]]
  | x :: rest =>
      if isSeparator x then
        [] :: pieces isSeparator rest
      else
        match pieces isSeparator rest with
        | [] => [[x]]
        | piece :: more => (x :: piece) :: more

/-- Pieces put together again, with a separator between neighbours. -/
def rejoin {α : Type} (separator : α) : List (List α) → List α
  | [] => []
  | [piece] => piece
  | piece :: next :: more => piece ++ separator :: rejoin separator (next :: more)

/-- The characters of a text, read as a new text after `f`. -/
def onChars (f : List Char → List Char) (text : String) : String :=
  String.ofList (f text.toList)

/-- Replace each character on its own. -/
def mapChars (f : Char → Char) (text : String) : String :=
  onChars (List.map f) text

/-- Does `text` begin with `start`? -/
def beginsWith (start text : String) : Bool :=
  start.toList.isPrefixOf text.toList

/-- The part before `ending`, if the characters end so. -/
def dropEnding? (ending cs : List Char) : Option (List Char) :=
  if ending.isSuffixOf cs then some (cs.take (cs.length - ending.length)) else none

/-- The part after `start`, if the characters begin so. -/
def dropStart? : (start cs : List Char) → Option (List Char)
  | [], cs => some cs
  | _ :: _, [] => none
  | a :: start, c :: cs => if a = c then dropStart? start cs else none

/-- Texts joined with a separator between neighbours. -/
def joined (separator : String) (texts : List String) : String :=
  String.intercalate separator texts

theorem pieces_ne_nil {α : Type} (isSeparator : α → Bool) (xs : List α) :
    pieces isSeparator xs ≠ [] := by
  induction xs with
  | nil => simp [pieces]
  | cons x rest ih =>
      rw [pieces]
      split
      · simp
      · split <;> simp

/-- A separator at the front encloses an empty piece. -/
theorem pieces_cons_separator {α : Type} {isSeparator : α → Bool} {x : α}
    (h : isSeparator x = true) (rest : List α) :
    pieces isSeparator (x :: rest) = [] :: pieces isSeparator rest := by
  rw [pieces, if_pos h]

/-- Any other character becomes the first one of the first piece. -/
theorem pieces_cons_other {α : Type} {isSeparator : α → Bool} {x : α}
    (h : ¬ isSeparator x = true) (rest : List α) :
    ∃ first more, pieces isSeparator rest = first :: more ∧
      pieces isSeparator (x :: rest) = (x :: first) :: more := by
  obtain ⟨first, more, hrest⟩ := List.exists_cons_of_ne_nil (pieces_ne_nil isSeparator rest)
  refine ⟨first, more, hrest, ?_⟩
  rw [pieces, if_neg h, hrest]

/-- Texts with a separator between them are cut there. -/
theorem pieces_append_separator {α : Type} {isSeparator : α → Bool} {separator : α}
    (h : isSeparator separator = true) (xs ys : List α) :
    pieces isSeparator (xs ++ separator :: ys) = pieces isSeparator xs ++ pieces isSeparator ys := by
  induction xs with
  | nil => exact pieces_cons_separator h ys
  | cons x xs ih =>
      rw [List.cons_append]
      by_cases hx : isSeparator x = true
      · rw [pieces_cons_separator hx, pieces_cons_separator hx, ih, List.cons_append]
      · obtain ⟨first, more, hxs, hcons⟩ := pieces_cons_other hx xs
        rw [pieces, if_neg hx, ih, hxs, hcons]
        rfl

/-- To cut at separators of two kinds is to cut at those of one kind first. -/
theorem pieces_or {α : Type} (isFirst isSecond : α → Bool) (xs : List α) :
    pieces (fun x => isFirst x || isSecond x) xs =
      (pieces isFirst xs).flatMap (pieces isSecond) := by
  induction xs with
  | nil => rfl
  | cons x xs ih =>
      by_cases hfirst : isFirst x = true
      · rw [pieces_cons_separator (by simp [hfirst]), pieces_cons_separator hfirst, ih]
        rfl
      · obtain ⟨piece, more, hxs, hcons⟩ := pieces_cons_other hfirst xs
        rw [hxs, List.flatMap_cons] at ih
        rw [hcons, List.flatMap_cons]
        by_cases hsecond : isSecond x = true
        · rw [pieces_cons_separator (by simp [hsecond]), pieces_cons_separator hsecond, ih]
          rfl
        · obtain ⟨inner, others, hpiece, hinner⟩ := pieces_cons_other hsecond piece
          rw [pieces, if_neg (by simp [hfirst, hsecond]), ih, hpiece, hinner]
          rfl

/-- Cutting loses nothing when there is only one separator. -/
theorem rejoin_pieces {α : Type} [DecidableEq α] (separator : α) (xs : List α) :
    rejoin separator (pieces (· == separator) xs) = xs := by
  induction xs with
  | nil => rfl
  | cons x rest ih =>
      by_cases h : x = separator
      · subst h
        obtain ⟨piece, more, hrest⟩ := List.exists_cons_of_ne_nil (pieces_ne_nil (· == x) rest)
        rw [hrest] at ih
        rw [pieces_cons_separator (by simp), hrest, rejoin, ih]
        rfl
      · obtain ⟨piece, more, hrest, hcons⟩ :
            ∃ piece more, pieces (· == separator) rest = piece :: more ∧
              pieces (· == separator) (x :: rest) = (x :: piece) :: more :=
          pieces_cons_other (by simpa using h) rest
        rw [hrest] at ih
        rw [hcons]
        cases more with
        | nil => simpa [rejoin] using ih
        | cons next more => simpa [rejoin] using ih

theorem dropStart?_eq_some_iff {start cs rest : List Char} :
    dropStart? start cs = some rest ↔ cs = start ++ rest := by
  induction start generalizing cs with
  | nil => simp [dropStart?]
  | cons a start ih =>
      cases cs with
      | nil => simp [dropStart?]
      | cons c cs =>
          by_cases h : a = c
          · subst h; simp [dropStart?, ih]
          · simp [dropStart?, h, Ne.symm h]

end Text
end Classpath
