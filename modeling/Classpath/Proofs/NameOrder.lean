import Classpath.Reference
import Classpath.Proofs.Text.Utf8Order

/-!
# The order of class names

Class names are ordered like the bytes of their texts, and this order is total.
The references of a class are listed in strictly ascending order.
-/

namespace Classpath

theorem nodup_eraseDups {α : Type} [BEq α] [LawfulBEq α] (xs : List α) : xs.eraseDups.Nodup := by
  match xs with
  | [] => simp
  | x :: xs =>
      rw [List.eraseDups_cons, List.nodup_cons]
      constructor
      · intro hmem
        simp at hmem
      · exact nodup_eraseDups (xs.filter fun y => !y == x)
termination_by xs.length
decreasing_by
  exact Nat.lt_succ_of_le (List.length_filter_le _ _)

theorem nodup_ascending {α : Type} [BEq α] [LawfulBEq α] [LE α] [DecidableLE α] (xs : List α) :
    (ascending xs).Nodup :=
  (List.mergeSort_perm _ _).nodup_iff.2 (nodup_eraseDups xs)

/-- A list put in ascending order is strictly ascending. -/
theorem pairwise_lt_ascending {α : Type} [BEq α] [LawfulBEq α] [LE α] [DecidableLE α] [LT α]
    [Std.IsLinearOrder α] [Std.LawfulOrderLT α] (xs : List α) :
    (ascending xs).Pairwise (· < ·) := by
  have hsorted : (ascending xs).Pairwise fun a b => decide (a ≤ b) = true := by
    apply List.pairwise_mergeSort
    · intro a b c hab hbc
      simp only [decide_eq_true_eq] at hab hbc ⊢
      exact Std.le_trans hab hbc
    · intro a b
      simpa using Std.le_total
  -- Sorted without repeats is strictly sorted.
  refine (hsorted.and (nodup_ascending xs)).imp fun {a b} h => ?_
  rw [Std.lt_iff_le_and_ne]
  exact ⟨by simpa using h.1, h.2⟩

/-- A list put in ascending order depends on its members alone. -/
theorem ascending_congr {α : Type} [BEq α] [LawfulBEq α] [LE α] [DecidableLE α] [LT α]
    [Std.IsLinearOrder α] [Std.LawfulOrderLT α] {xs ys : List α} (h : ∀ a, a ∈ xs ↔ a ∈ ys) :
    ascending xs = ascending ys := by
  have hperm : (ascending xs).Perm (ascending ys) := by
    rw [List.perm_ext_iff_of_nodup (nodup_ascending xs) (nodup_ascending ys)]
    intro a
    rw [mem_ascending, mem_ascending, h]
  refine hperm.eq_of_pairwise ?_ (pairwise_lt_ascending xs) (pairwise_lt_ascending ys)
  intro a b _ _ hab hba
  exact absurd (Std.lt_trans hab hba) Std.lt_irrefl

namespace ClassName

/-- The UTF-8 bytes of a name. -/
def bytes (name : ClassName) : List UInt8 := Text.utf8Bytes name.dotted

/-- Names are ordered by their bytes. -/
theorem lt_iff_bytes_lt {a b : ClassName} : a < b ↔ a.bytes < b.bytes :=
  Text.lt_iff_utf8Bytes_lt

instance : Std.IsLinearOrder ClassName where
  le_refl a := Std.le_refl a.dotted
  le_trans a b c := Std.le_trans (a := a.dotted)
  le_antisymm a b hab hba := by
    have : a.dotted = b.dotted := Std.le_antisymm hab hba
    cases a
    simp_all
  le_total a b := Std.le_total (a := a.dotted)

instance : Std.LawfulOrderLT ClassName where
  lt_iff a b := Std.LawfulOrderLT.lt_iff a.dotted b.dotted

end ClassName

theorem ClassModel.mem_references {model : ClassModel} {filter : PlatformFilter}
    {name : ClassName} :
    name ∈ model.references filter ↔ name ∈ model.mentions ∧ ¬ filter.provides name = true := by
  simp [references, mem_ascending]

/-- The references of a class are listed in the order of their bytes. -/
theorem ClassModel.pairwise_references (filter : PlatformFilter) (model : ClassModel) :
    (model.references filter).Pairwise fun a b => a.bytes < b.bytes :=
  (pairwise_lt_ascending _).imp ClassName.lt_iff_bytes_lt.1

theorem ClassModel.nodup_references (filter : PlatformFilter) (model : ClassModel) :
    (model.references filter).Nodup :=
  nodup_ascending _

end Classpath
