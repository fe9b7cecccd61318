/-!
# Big-endian numbers

Class files store numbers with the most significant byte first.
-/

namespace Classpath

/-- A string of bytes. -/
abbrev Bytes := List UInt8

/-- What holds of the numbers below 256 holds of every byte. -/
theorem forall_byte {p : UInt8 → Bool} (h : ∀ n < 256, p (UInt8.ofNat n) = true) (byte : UInt8) :
    p byte = true := by
  have hbyte := h byte.toNat byte.toNat_lt
  rwa [UInt8.ofNat_toNat] at hbyte

/-- The number a byte string spells, most significant byte first. -/
def bigEndian (bytes : Bytes) : Nat :=
  bytes.foldl (fun n byte => n * 256 + byte.toNat) 0

/-- The `width` low bytes of a number, most significant byte first. -/
def bigEndianBytes : (width n : Nat) → Bytes
  | 0, _ => []
  | width + 1, n => bigEndianBytes width (n / 256) ++ [UInt8.ofNat n]

theorem length_bigEndianBytes (width n : Nat) : (bigEndianBytes width n).length = width := by
  induction width generalizing n with
  | zero => rfl
  | succ width ih => simp [bigEndianBytes, ih]

theorem bigEndian_append_singleton (bytes : Bytes) (byte : UInt8) :
    bigEndian (bytes ++ [byte]) = bigEndian bytes * 256 + byte.toNat := by
  simp [bigEndian]

/-- Writing a number in `width` bytes keeps it modulo the `width`-th power of 256. -/
theorem bigEndian_bigEndianBytes (width n : Nat) :
    bigEndian (bigEndianBytes width n) = n % Nat.pow 256 width := by
  induction width generalizing n with
  | zero => simp [bigEndian, bigEndianBytes, Nat.mod_one]
  | succ width ih =>
      have hpow : Nat.pow 256 (width + 1) = 256 * Nat.pow 256 width := Nat.pow_succ'
      rw [bigEndianBytes, bigEndian_append_singleton, ih, hpow, Nat.mod_mul]
      simp
      omega

/-- A number is written in so many high and so many low bytes. -/
theorem bigEndianBytes_add (high low n : Nat) :
    bigEndianBytes (high + low) n =
      bigEndianBytes high (n / Nat.pow 256 low) ++ bigEndianBytes low n := by
  induction low generalizing n with
  | zero => simp [bigEndianBytes]
  | succ low ih =>
      have hpow : Nat.pow 256 (low + 1) = 256 * Nat.pow 256 low := Nat.pow_succ'
      rw [← Nat.add_assoc, bigEndianBytes, ih, bigEndianBytes, hpow, ← Nat.div_div_eq_div_mul,
        List.append_assoc]

end Classpath
