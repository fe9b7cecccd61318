import Mathlib.Data.List.Lex
import Mathlib.Data.Char
import Mathlib.Tactic.SplitIfs

/-!
# UTF-8 keeps the order of texts

Texts are compared by code points.  Their UTF-8 bytes compare the same way,
because the bytes of a smaller character are smaller at the first place where
the bytes of two characters differ.
-/

namespace Classpath
namespace Text

/-- The UTF-8 bytes of a text. -/
def utf8Bytes (text : String) : List UInt8 := text.toUTF8.data.toList

theorem utf8Bytes_eq_flatMap (text : String) :
    utf8Bytes text = text.toList.flatMap String.utf8EncodeChar := by
  obtain ⟨chars, rfl⟩ := text.exists_eq_ofList
  simp [utf8Bytes, List.utf8Encode]

theorem length_utf8Bytes_le (text : String) :
    (utf8Bytes text).length ≤ 4 * text.toList.length := by
  rw [utf8Bytes_eq_flatMap]
  induction text.toList with
  | nil => exact Nat.le_refl 0
  | cons c chars ih =>
      have hsize := c.utf8Size_le_four
      rw [List.flatMap_cons, List.length_append, String.length_utf8EncodeChar, List.length_cons]
      omega

/-- The bytes of a smaller character decide every comparison they begin. -/
theorem utf8EncodeChar_append_lt {c d : Char} (hlt : c < d) (xs ys : List UInt8) :
    String.utf8EncodeChar c ++ xs < String.utf8EncodeChar d ++ ys := by
  have hval : c.val.toNat < d.val.toNat := hlt
  have hmax : d.val.toNat < 0x110000 := by
    have := d.valid
    grind
  -- Base-64 digits are taken off one at a time, so that each is linear in the next.
  have hdigits (v : Nat) : v / 4096 = v / 64 / 64 ∧ v / 262144 = v / 64 / 64 / 64 := by omega
  unfold String.utf8EncodeChar
  simp only [hdigits]
  split_ifs <;>
    simp only [List.cons_append, List.nil_append, List.cons_lt_cons_iff, UInt8.lt_iff_toNat_lt,
      ← UInt8.toNat_inj, UInt8.toNat_ofNat'] <;>
    omega

theorem flatMap_utf8EncodeChar_lt {cs ds : List Char} (hlt : cs < ds) :
    cs.flatMap String.utf8EncodeChar < ds.flatMap String.utf8EncodeChar := by
  induction hlt with
  | @nil d ds =>
      have hne : String.utf8EncodeChar d ≠ [] := String.utf8EncodeChar_ne_nil
      obtain ⟨byte, bytes, hbytes⟩ := List.exists_cons_of_ne_nil hne
      simp [hbytes]
  | cons _ ih =>
      rw [List.flatMap_cons, List.flatMap_cons]
      exact List.append_left_lt ih
  | rel hchar =>
      rw [List.flatMap_cons, List.flatMap_cons]
      exact utf8EncodeChar_append_lt hchar _ _

/-- Texts compare by code points exactly as their bytes do. -/
theorem lt_iff_utf8Bytes_lt {a b : String} : a < b ↔ utf8Bytes a < utf8Bytes b := by
  rw [utf8Bytes_eq_flatMap, utf8Bytes_eq_flatMap, String.lt_iff]
  constructor
  · exact flatMap_utf8EncodeChar_lt
  · intro hbytes
    rcases lt_trichotomy a.toList b.toList with hlt | heq | hgt
    · exact hlt
    · rw [heq] at hbytes
      exact absurd hbytes (List.lt_irrefl _)
    · have hback := flatMap_utf8EncodeChar_lt hgt
      exact absurd (List.lt_trans hbytes hback) (List.lt_irrefl _)

end Text
end Classpath
