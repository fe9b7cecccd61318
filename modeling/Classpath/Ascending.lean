/-!
# Ascending lists without repeats

Listings and reference sets are reported in ascending order, each element once.
-/

namespace Classpath

/-- The elements of a list, each once, in ascending order. -/
def ascending {α : Type} [BEq α] [LE α] [DecidableLE α] (xs : List α) : List α :=
  xs.eraseDups.mergeSort fun a b => decide (a ≤ b)

theorem mem_ascending {α : Type} [BEq α] [LawfulBEq α] [LE α] [DecidableLE α] {a : α}
    {xs : List α} : a ∈ ascending xs ↔ a ∈ xs := by
  simp [ascending, List.mem_eraseDups]

end Classpath
