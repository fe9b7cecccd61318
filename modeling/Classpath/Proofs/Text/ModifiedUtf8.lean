import Classpath.Proofs.Text.Utf8Order
import Classpath.Text.ModifiedUtf8

/-!
# Texts that both encodings write alike

UTF-8 and modified UTF-8 differ only in the character zero and in characters
beyond U+FFFF.  A text without these is read back from its UTF-8 bytes.
-/

namespace Classpath
namespace Text

/-- Neither the character zero nor a character beyond U+FFFF. -/
def IsPlain (c : Char) : Prop := 0 < c.toNat ∧ c.toNat ≤ 0xFFFF

/-- The one code unit of a plain character. -/
def unitOf (c : Char) : UInt16 := UInt16.ofNat c.toNat

theorem toNat_unitOf {c : Char} (h : IsPlain c) : (unitOf c).toNat = c.toNat :=
  Nat.mod_eq_of_lt (Nat.lt_succ_of_le h.2)

/-- A valid code point is that of its character. -/
theorem toNat_charOf {code : Nat} (h : code.isValidChar) : (Char.ofNat code).toNat = code := by
  rw [Char.ofNat, dif_pos h]
  rfl

/-! ## Groups of one, two and three bytes -/

theorem modifiedUnits?_one {first : UInt8} (hpos : 0 < first.toNat) (hmax : first.toNat < 128)
    (rest : List UInt8) :
    modifiedUnits? (first :: rest) =
      (modifiedUnits? rest).map (UInt16.ofNat first.toNat :: ·) := by
  have hsmall : first < 0x80 := UInt8.lt_iff_toNat_lt.2 hmax
  have hne : first ≠ 0 := by
    rintro rfl
    cases hpos
  rw [modifiedUnits?.eq_def]
  simp only [if_pos hsmall, if_neg hne]

theorem isContinuation_ofNat {bits : Nat} (h : bits < 64) :
    isContinuation (UInt8.ofNat (bits + 128)) = true := by
  have hbyte : (UInt8.ofNat (bits + 128)).toNat = bits + 128 := Nat.mod_eq_of_lt (by omega)
  simp only [isContinuation, Bool.and_eq_true, decide_eq_true_eq, UInt8.le_iff_toNat_le, hbyte]
  exact ⟨by show 128 ≤ bits + 128; omega, by show bits + 128 ≤ 191; omega⟩

theorem continuationBits_ofNat {bits : Nat} (h : bits < 64) :
    continuationBits (UInt8.ofNat (bits + 128)) = bits := by
  have hbyte : (UInt8.ofNat (bits + 128)).toNat = bits + 128 := Nat.mod_eq_of_lt (by omega)
  rw [continuationBits, hbyte]
  omega

theorem modifiedUnits?_two {high low : Nat} (hhigh : high < 32) (hlow : low < 64)
    (rest : List UInt8) :
    modifiedUnits? (UInt8.ofNat (high + 192) :: UInt8.ofNat (low + 128) :: rest) =
      (modifiedUnits? rest).map (UInt16.ofNat (high * 64 + low) :: ·) := by
  have hbyte : (UInt8.ofNat (high + 192)).toNat = high + 192 := Nat.mod_eq_of_lt (by omega)
  have hlarge : ¬ UInt8.ofNat (high + 192) < 0x80 := by
    rw [UInt8.lt_iff_toNat_lt, hbyte]
    show ¬ high + 192 < 128
    omega
  have hrange : (0xC0 ≤ UInt8.ofNat (high + 192) && UInt8.ofNat (high + 192) ≤ 0xDF) = true := by
    simp only [Bool.and_eq_true, decide_eq_true_eq, UInt8.le_iff_toNat_le, hbyte]
    exact ⟨by show 192 ≤ high + 192; omega, by show high + 192 ≤ 223; omega⟩
  have hbits : (high + 192) % 32 = high := by omega
  rw [modifiedUnits?.eq_def]
  simp only [if_neg hlarge, if_pos hrange, isContinuation_ofNat hlow, continuationBits_ofNat hlow,
    hbyte, hbits, if_true]

theorem modifiedUnits?_three {high middle low : Nat} (hhigh : high < 16) (hmiddle : middle < 64)
    (hlow : low < 64) (rest : List UInt8) :
    modifiedUnits?
        (UInt8.ofNat (high + 224) :: UInt8.ofNat (middle + 128) :: UInt8.ofNat (low + 128) :: rest) =
      (modifiedUnits? rest).map (UInt16.ofNat (high * 4096 + middle * 64 + low) :: ·) := by
  have hbyte : (UInt8.ofNat (high + 224)).toNat = high + 224 := Nat.mod_eq_of_lt (by omega)
  have hlarge : ¬ UInt8.ofNat (high + 224) < 0x80 := by
    rw [UInt8.lt_iff_toNat_lt, hbyte]
    show ¬ high + 224 < 128
    omega
  have hnotTwo : ¬ (0xC0 ≤ UInt8.ofNat (high + 224) && UInt8.ofNat (high + 224) ≤ 0xDF) = true := by
    simp only [Bool.and_eq_true, decide_eq_true_eq, UInt8.le_iff_toNat_le, hbyte]
    show ¬ (192 ≤ high + 224 ∧ high + 224 ≤ 223)
    omega
  have hrange : (0xE0 ≤ UInt8.ofNat (high + 224) && UInt8.ofNat (high + 224) ≤ 0xEF) = true := by
    simp only [Bool.and_eq_true, decide_eq_true_eq, UInt8.le_iff_toNat_le, hbyte]
    exact ⟨by show 224 ≤ high + 224; omega, by show high + 224 ≤ 239; omega⟩
  have hbits : (high + 224) % 16 = high := by omega
  rw [modifiedUnits?.eq_def]
  simp only [if_neg hlarge, if_neg hnotTwo, if_pos hrange, isContinuation_ofNat hmiddle,
    isContinuation_ofNat hlow, continuationBits_ofNat hmiddle, continuationBits_ofNat hlow, hbyte,
    hbits, Bool.and_self, if_true]

/-- The bytes of a plain character are one group. -/
theorem modifiedUnits?_utf8EncodeChar {c : Char} (h : IsPlain c) (rest : List UInt8) :
    modifiedUnits? (String.utf8EncodeChar c ++ rest) =
      (modifiedUnits? rest).map (unitOf c :: ·) := by
  obtain ⟨hpos, hmax⟩ := h
  have hval : c.val.toNat = c.toNat := rfl
  rw [String.utf8EncodeChar]
  simp only [hval, unitOf]
  -- One group for each of the lengths that a plain character can have.
  split
  · next hone =>
      have hbyte : (UInt8.ofNat c.toNat).toNat = c.toNat := Nat.mod_eq_of_lt (by omega)
      have hgroup : modifiedUnits? (UInt8.ofNat c.toNat :: rest) = _ :=
        modifiedUnits?_one (by omega) (by omega) rest
      rw [hbyte] at hgroup
      exact hgroup
  split
  · have hunit : c.toNat / 64 % 32 * 64 + c.toNat % 64 = c.toNat := by omega
    have hgroup := modifiedUnits?_two (Nat.mod_lt (c.toNat / 64) (by decide : 0 < 32))
      (Nat.mod_lt c.toNat (by decide : 0 < 64)) rest
    rw [hunit] at hgroup
    exact hgroup
  · have hunit : c.toNat / 4096 % 16 * 4096 + c.toNat / 64 % 64 * 64 + c.toNat % 64 = c.toNat := by
      omega
    have hgroup := modifiedUnits?_three (Nat.mod_lt (c.toNat / 4096) (by decide : 0 < 16))
      (Nat.mod_lt (c.toNat / 64) (by decide : 0 < 64)) (Nat.mod_lt c.toNat (by decide : 0 < 64)) rest
    rw [hunit] at hgroup
    exact hgroup

/-! ## Whole texts -/

theorem modifiedUnits?_flatMap {chars : List Char} (h : ∀ c ∈ chars, IsPlain c) :
    modifiedUnits? (chars.flatMap String.utf8EncodeChar) = some (chars.map unitOf) := by
  induction chars with
  | nil => rfl
  | cons c chars ih =>
      rw [List.flatMap_cons, modifiedUnits?_utf8EncodeChar (h c List.mem_cons_self),
        ih fun d hd => h d (List.mem_cons_of_mem c hd)]
      rfl

theorem not_surrogate {c : Char} (h : IsPlain c) :
    isHighSurrogate (unitOf c) = false ∧ isLowSurrogate (unitOf c) = false := by
  have hvalid : c.toNat < 55296 ∨ 57343 < c.toNat ∧ c.toNat < 1114112 := c.valid
  have hunit := toNat_unitOf h
  simp only [isHighSurrogate, isLowSurrogate, Bool.and_eq_false_iff, decide_eq_false_iff_not,
    UInt16.le_iff_toNat_le, hunit]
  show (¬ 55296 ≤ c.toNat ∨ ¬ c.toNat ≤ 56319) ∧ (¬ 56320 ≤ c.toNat ∨ ¬ c.toNat ≤ 57343)
  omega

theorem loneChar_unitOf {c : Char} (h : IsPlain c) : loneChar (unitOf c) = c := by
  obtain ⟨hhigh, hlow⟩ := not_surrogate h
  rw [loneChar, hhigh, hlow, toNat_unitOf h]
  exact Char.ofNat_toNat c

/-- No plain character is half of a pair, so each unit is read alone. -/
theorem ofUtf16_map_unitOf {chars : List Char} (h : ∀ c ∈ chars, IsPlain c) :
    ofUtf16 (chars.map unitOf) = chars := by
  induction chars with
  | nil => rfl
  | cons c chars ih =>
      have hc := h c List.mem_cons_self
      have hrest := ih fun d hd => h d (List.mem_cons_of_mem c hd)
      cases chars with
      | nil => rw [List.map_cons, List.map_nil, ofUtf16, loneChar_unitOf hc]
      | cons d chars =>
          -- The first two units are no pair, so the recursion leaves the second for later.
          have hpair : (isHighSurrogate (unitOf c) && isLowSurrogate (unitOf d)) = false := by
            rw [(not_surrogate hc).1, Bool.false_and]
          rw [List.map_cons, List.map_cons, ofUtf16, hpair, loneChar_unitOf hc, ← List.map_cons, hrest]
          rfl

theorem ofGroups?_utf8Bytes {text : String} (h : ∀ c ∈ text.toList, IsPlain c) :
    ofGroups? (utf8Bytes text) = some text := by
  rw [ofGroups?, utf8Bytes_eq_flatMap, modifiedUnits?_flatMap h, Option.map_some,
    ofUtf16_map_unitOf h, String.ofList_toList]

/-! ## ASCII -/

theorem isPlainAscii_iff {byte : UInt8} :
    isPlainAscii byte = true ↔ 0 < byte.toNat ∧ byte.toNat < 128 := by
  have hzero : byte = 0 ↔ byte.toNat = 0 := by rw [← UInt8.toNat_inj]; rfl
  have hmax : byte < 0x80 ↔ byte.toNat < 128 := UInt8.lt_iff_toNat_lt
  simp only [isPlainAscii, Bool.and_eq_true, bne_iff_ne, ne_eq, decide_eq_true_eq, hzero, hmax]
  omega

/-- ASCII bytes are the UTF-8 bytes of their text. -/
theorem utf8Bytes_ofAscii {bytes : List UInt8} (h : ∀ byte ∈ bytes, isPlainAscii byte = true) :
    utf8Bytes (ofAscii bytes) = bytes := by
  rw [utf8Bytes_eq_flatMap, ofAscii, String.toList_ofList]
  induction bytes with
  | nil => rfl
  | cons byte bytes ih =>
      rw [List.forall_mem_cons, isPlainAscii_iff] at h
      have hval : (Char.ofNat byte.toNat).val.toNat = byte.toNat :=
        toNat_charOf (Or.inl (by omega))
      have hone : String.utf8EncodeChar (Char.ofNat byte.toNat) = [byte] := by
        rw [String.utf8EncodeChar]
        simp only [hval]
        rw [if_pos (by omega), UInt8.ofNat_toNat]
      rw [List.map_cons, List.flatMap_cons, hone, ih h.2]
      rfl

/-- Read group by group, ASCII is what it is taken for. -/
theorem ofGroups?_of_ascii {bytes : List UInt8} (h : ∀ byte ∈ bytes, isPlainAscii byte = true) :
    ofGroups? bytes = some (ofAscii bytes) := by
  have hplain : ∀ c ∈ (ofAscii bytes).toList, IsPlain c := by
    intro c hc
    rw [ofAscii, String.toList_ofList] at hc
    obtain ⟨byte, hbyte, rfl⟩ := List.mem_map.1 hc
    have hrange := isPlainAscii_iff.1 (h byte hbyte)
    rw [IsPlain, toNat_charOf (Or.inl (by omega))]
    omega
  have hread := ofGroups?_utf8Bytes hplain
  rwa [utf8Bytes_ofAscii h] at hread

/-- Taking ASCII as it stands changes nothing. -/
theorem ofModifiedUtf8?_eq_ofGroups? (bytes : List UInt8) :
    ofModifiedUtf8? bytes = ofGroups? bytes := by
  unfold ofModifiedUtf8?
  split
  · next hascii => exact (ofGroups?_of_ascii (List.all_eq_true.1 hascii)).symm
  · rfl

/-- A plain text is read back from its UTF-8 bytes. -/
theorem ofModifiedUtf8?_utf8Bytes {text : String} (h : ∀ c ∈ text.toList, IsPlain c) :
    ofModifiedUtf8? (utf8Bytes text) = some text := by
  rw [ofModifiedUtf8?_eq_ofGroups?, ofGroups?_utf8Bytes h]

end Text
end Classpath
