import Classpath.ClassFile.ConstantPool
import Classpath.Proofs.Text.ModifiedUtf8

/-!
# The groups of modified UTF-8

The bytes of a text constant are cut into groups of one, two or three bytes, and
every group stands for one UTF-16 code unit.  The units are then read as characters.
Both stages are described here without the decoder: `Group` says which bytes form a
group and what it stands for, `Transcribes` which characters a sequence of units is
read as.  Main statement: the decoder accepts exactly the sequences of groups, and
yields what they are read as.
-/

namespace Classpath
namespace Text

/-! ## Groups -/

/-- A group of bytes.  Its first byte tells how many more belong to it. -/
inductive Group
  | one (byte : UInt8) (hbyte : 0x01 ≤ byte.toNat ∧ byte.toNat ≤ 0x7F)
  | two (first second : UInt8) (hfirst : 0xC0 ≤ first.toNat ∧ first.toNat ≤ 0xDF)
      (hsecond : 0x80 ≤ second.toNat ∧ second.toNat ≤ 0xBF)
  | three (first second third : UInt8) (hfirst : 0xE0 ≤ first.toNat ∧ first.toNat ≤ 0xEF)
      (hsecond : 0x80 ≤ second.toNat ∧ second.toNat ≤ 0xBF)
      (hthird : 0x80 ≤ third.toNat ∧ third.toNat ≤ 0xBF)

namespace Group

def bytes : Group → List UInt8
  | one byte _ => [byte]
  | two first second _ _ => [first, second]
  | three first second third _ _ _ => [first, second, third]

/-- The number a group stands for.  A byte counts by how far it lies above the least
byte of its kind, and each further byte adds six bits. -/
def value : Group → Nat
  | one byte _ => byte.toNat
  | two first second _ _ => (first.toNat - 0xC0) * 0x40 + (second.toNat - 0x80)
  | three first second third _ _ _ =>
      (first.toNat - 0xE0) * 0x1000 + (second.toNat - 0x80) * 0x40 + (third.toNat - 0x80)

/-- The code unit a group stands for. -/
def unit (group : Group) : UInt16 := UInt16.ofNat group.value

theorem value_lt (group : Group) : group.value < 0x10000 := by
  cases group with
  | one byte hbyte =>
      show byte.toNat < 0x10000
      omega
  | two first second hfirst hsecond =>
      show (first.toNat - 0xC0) * 0x40 + (second.toNat - 0x80) < 0x10000
      omega
  | three first second third hfirst hsecond hthird =>
      show (first.toNat - 0xE0) * 0x1000 + (second.toNat - 0x80) * 0x40 + (third.toNat - 0x80) <
        0x10000
      omega

/-- No bit of a group is lost in its code unit. -/
theorem toNat_unit (group : Group) : group.unit.toNat = group.value :=
  Nat.mod_eq_of_lt group.value_lt

/-- A group at the front of a byte string is read as its code unit. -/
theorem modifiedUnits?_append (group : Group) (rest : List UInt8) :
    modifiedUnits? (group.bytes ++ rest) = (modifiedUnits? rest).map (group.unit :: ·) := by
  cases group with
  | one byte hbyte => exact modifiedUnits?_one (by omega) (by omega) rest
  | two first second hfirst hsecond =>
      have hhigh : first.toNat - 0xC0 < 32 := by omega
      have hlow : second.toNat - 0x80 < 64 := by omega
      have hgroup := modifiedUnits?_two hhigh hlow rest
      rw [Nat.sub_add_cancel hfirst.1, Nat.sub_add_cancel hsecond.1, UInt8.ofNat_toNat,
        UInt8.ofNat_toNat] at hgroup
      exact hgroup
  | three first second third hfirst hsecond hthird =>
      have hhigh : first.toNat - 0xE0 < 16 := by omega
      have hmiddle : second.toNat - 0x80 < 64 := by omega
      have hlow : third.toNat - 0x80 < 64 := by omega
      have hgroup := modifiedUnits?_three hhigh hmiddle hlow rest
      rw [Nat.sub_add_cancel hfirst.1, Nat.sub_add_cancel hsecond.1, Nat.sub_add_cancel hthird.1,
        UInt8.ofNat_toNat, UInt8.ofNat_toNat, UInt8.ofNat_toNat] at hgroup
      exact hgroup

theorem modifiedUnits?_flatMap_bytes (groups : List Group) :
    modifiedUnits? (groups.flatMap bytes) = some (groups.map unit) := by
  induction groups with
  | nil => rfl
  | cons group groups ih =>
      rw [List.flatMap_cons, modifiedUnits?_append, ih]
      rfl

end Group

theorem isContinuation_iff {byte : UInt8} :
    isContinuation byte = true ↔ 0x80 ≤ byte.toNat ∧ byte.toNat ≤ 0xBF := by
  simp only [isContinuation, Bool.and_eq_true, decide_eq_true_eq, UInt8.le_iff_toNat_le]
  exact Iff.rfl

/-- Whatever has code units begins with a group. -/
theorem exists_group_of_modifiedUnits? {first : UInt8} {rest : List UInt8} {units : List UInt16}
    (h : modifiedUnits? (first :: rest) = some units) :
    ∃ (group : Group) (tail : List UInt8), first :: rest = group.bytes ++ tail := by
  rw [modifiedUnits?.eq_def] at h
  simp only [Bool.and_eq_true, decide_eq_true_eq, UInt8.le_iff_toNat_le,
    UInt8.lt_iff_toNat_lt] at h
  split at h
  · next hsmall =>
      split at h
      · cases h
      · next hne =>
          have hpos : first.toNat ≠ 0 := fun hzero => hne (UInt8.toNat_inj.1 hzero)
          have hmax : first.toNat < 128 := hsmall
          exact ⟨.one first (by omega), rest, rfl⟩
  split at h
  · next hfirst =>
      split at h
      · next second tail =>
          split at h
          · next hsecond =>
              exact ⟨.two first second hfirst (isContinuation_iff.1 hsecond), tail, rfl⟩
          · cases h
      · cases h
  split at h
  · next hfirst =>
      split at h
      · next second third tail =>
          split at h
          · next hrest =>
              exact ⟨.three first second third hfirst (isContinuation_iff.1 hrest.1)
                (isContinuation_iff.1 hrest.2), tail, rfl⟩
          · cases h
      · cases h
  · cases h

/-- The byte strings that have code units are the sequences of groups. -/
theorem modifiedUnits?_eq_some_iff {bytes : List UInt8} {units : List UInt16} :
    modifiedUnits? bytes = some units ↔
      ∃ groups : List Group,
        groups.flatMap Group.bytes = bytes ∧ groups.map Group.unit = units := by
  constructor
  · intro h
    -- By the length of the bytes: the first group is taken off, and the rest has units too.
    induction hlength : bytes.length using Nat.strong_induction_on generalizing bytes units with
    | _ length ih =>
        cases bytes with
        | nil =>
            obtain rfl : units = [] := by simpa [modifiedUnits?] using h.symm
            exact ⟨[], rfl, rfl⟩
        | cons first rest =>
            obtain ⟨group, tail, hsplit⟩ := exists_group_of_modifiedUnits? h
            have hshorter : tail.length < length := by
              rw [← hlength, hsplit, List.length_append]
              cases group <;> simp [Group.bytes]
            rw [hsplit, group.modifiedUnits?_append] at h
            obtain ⟨others, hothers, rfl⟩ := Option.map_eq_some_iff.1 h
            obtain ⟨groups, rfl, rfl⟩ := ih tail.length hshorter hothers rfl
            exact ⟨group :: groups, hsplit.symm, rfl⟩
  · rintro ⟨groups, rfl, rfl⟩
    exact Group.modifiedUnits?_flatMap_bytes groups

/-! ## Code units as characters -/

theorem isHighSurrogate_iff {unit : UInt16} :
    isHighSurrogate unit = true ↔ 0xD800 ≤ unit.toNat ∧ unit.toNat ≤ 0xDBFF := by
  simp only [isHighSurrogate, Bool.and_eq_true, decide_eq_true_eq, UInt16.le_iff_toNat_le]
  exact Iff.rfl

theorem isLowSurrogate_iff {unit : UInt16} :
    isLowSurrogate unit = true ↔ 0xDC00 ≤ unit.toNat ∧ unit.toNat ≤ 0xDFFF := by
  simp only [isLowSurrogate, Bool.and_eq_true, decide_eq_true_eq, UInt16.le_iff_toNat_le]
  exact Iff.rfl

/-- Either half of a surrogate pair. -/
def IsSurrogate (unit : UInt16) : Prop :=
  isHighSurrogate unit = true ∨ isLowSurrogate unit = true

/-- The sequence begins with both halves of a pair. -/
def StartsWithPair : List UInt16 → Prop
  | high :: low :: _ => isHighSurrogate high = true ∧ isLowSurrogate low = true
  | _ => False

/-- Code units are read as characters: the two halves of a pair together as one
supplementary character, any other surrogate as U+FFFD, and every other unit as the
character with its number. -/
inductive Transcribes : List UInt16 → List Char → Prop
  | nil : Transcribes [] []
  | single {unit : UInt16} {units : List UInt16} {c : Char} {chars : List Char}
      (hunit : ¬ IsSurrogate unit) (hc : c.toNat = unit.toNat) (hrest : Transcribes units chars) :
      Transcribes (unit :: units) (c :: chars)
  | pair {high low : UInt16} {units : List UInt16} {c : Char} {chars : List Char}
      (hhigh : isHighSurrogate high = true) (hlow : isLowSurrogate low = true)
      (hc : c.toNat = 0x10000 + (high.toNat - 0xD800) * 0x400 + (low.toNat - 0xDC00))
      (hrest : Transcribes units chars) : Transcribes (high :: low :: units) (c :: chars)
  | lone {unit : UInt16} {units : List UInt16} {chars : List Char} (hunit : IsSurrogate unit)
      (halone : ¬ StartsWithPair (unit :: units)) (hrest : Transcribes units chars) :
      Transcribes (unit :: units) ('�' :: chars)

theorem ofUtf16_of_pair {high low : UInt16} (hhigh : isHighSurrogate high = true)
    (hlow : isLowSurrogate low = true) (units : List UInt16) :
    ofUtf16 (high :: low :: units) = pairChar high low :: ofUtf16 units := by
  rw [ofUtf16, hhigh, hlow]
  rfl

theorem ofUtf16_of_not_pair {unit : UInt16} {units : List UInt16}
    (h : ¬ StartsWithPair (unit :: units)) :
    ofUtf16 (unit :: units) = loneChar unit :: ofUtf16 units := by
  cases units with
  | nil => rfl
  | cons next units =>
      rw [ofUtf16, if_neg (by rwa [Bool.and_eq_true])]

theorem loneChar_of_surrogate {unit : UInt16} (h : IsSurrogate unit) :
    loneChar unit = '�' := by
  rw [loneChar, if_pos (by rwa [Bool.or_eq_true])]
  rfl

theorem loneChar_of_not_surrogate {unit : UInt16} (h : ¬ IsSurrogate unit) :
    loneChar unit = Char.ofNat unit.toNat := by
  rw [loneChar, if_neg (by rwa [Bool.or_eq_true])]

/-- Outside the surrogates every code unit is a code point. -/
theorem toNat_loneChar {unit : UInt16} (h : ¬ IsSurrogate unit) :
    (loneChar unit).toNat = unit.toNat := by
  rw [IsSurrogate, isHighSurrogate_iff, isLowSurrogate_iff] at h
  have hmax := unit.toNat_lt
  rw [loneChar_of_not_surrogate (by rwa [IsSurrogate, isHighSurrogate_iff, isLowSurrogate_iff]),
    toNat_charOf]
  show unit.toNat < 0xD800 ∨ 0xDFFF < unit.toNat ∧ unit.toNat < 0x110000
  omega

theorem toNat_pairChar {high low : UInt16} (hhigh : isHighSurrogate high = true)
    (hlow : isLowSurrogate low = true) :
    (pairChar high low).toNat = 0x10000 + (high.toNat - 0xD800) * 0x400 + (low.toNat - 0xDC00) := by
  rw [isHighSurrogate_iff] at hhigh
  rw [isLowSurrogate_iff] at hlow
  rw [pairChar, toNat_charOf]
  exact Or.inr (by omega)

theorem not_startsWithPair {unit : UInt16} (h : ¬ IsSurrogate unit) (units : List UInt16) :
    ¬ StartsWithPair (unit :: units) := by
  cases units with
  | nil => exact id
  | cons next units => exact fun hpair => h (.inl hpair.1)

theorem transcribes_ofUtf16 (units : List UInt16) : Transcribes units (ofUtf16 units) := by
  fun_induction ofUtf16 units with
  | case1 => exact .nil
  | case2 unit =>
      by_cases hunit : IsSurrogate unit
      · rw [loneChar_of_surrogate hunit]
        exact .lone hunit id .nil
      · exact .single hunit (toNat_loneChar hunit) .nil
  | case3 unit next rest hpair ih =>
      rw [Bool.and_eq_true] at hpair
      exact .pair hpair.1 hpair.2 (toNat_pairChar hpair.1 hpair.2) ih
  | case4 unit next rest hpair ih =>
      rw [Bool.and_eq_true] at hpair
      by_cases hunit : IsSurrogate unit
      · rw [loneChar_of_surrogate hunit]
        exact .lone hunit hpair ih
      · exact .single hunit (toNat_loneChar hunit) ih

/-- There is one way to read code units, and it is the one computed. -/
theorem Transcribes.eq_ofUtf16 {units : List UInt16} {chars : List Char}
    (h : Transcribes units chars) : chars = ofUtf16 units := by
  induction h with
  | nil => rfl
  | @single unit units c chars hunit hc _ ih =>
      rw [ofUtf16_of_not_pair (not_startsWithPair hunit units), ← ih,
        Char.toNat_inj.1 (hc.trans (toNat_loneChar hunit).symm)]
  | pair hhigh hlow hc _ ih =>
      rw [ofUtf16_of_pair hhigh hlow, ← ih,
        Char.toNat_inj.1 (hc.trans (toNat_pairChar hhigh hlow).symm)]
  | lone hunit halone _ ih =>
      rw [ofUtf16_of_not_pair halone, ← ih, loneChar_of_surrogate hunit]

theorem transcribes_iff {units : List UInt16} {chars : List Char} :
    Transcribes units chars ↔ chars = ofUtf16 units :=
  ⟨Transcribes.eq_ofUtf16, fun h => h ▸ transcribes_ofUtf16 units⟩

/-- A text is read group by group. -/
theorem ofGroups?_eq_some_iff {bytes : List UInt8} {text : String} :
    ofGroups? bytes = some text ↔
      ∃ groups : List Group, groups.flatMap Group.bytes = bytes ∧
        Transcribes (groups.map Group.unit) text.toList := by
  simp only [ofGroups?, Option.map_eq_some_iff, modifiedUnits?_eq_some_iff, transcribes_iff]
  constructor
  · rintro ⟨units, ⟨groups, hbytes, rfl⟩, rfl⟩
    exact ⟨groups, hbytes, String.toList_ofList⟩
  · rintro ⟨groups, hbytes, htext⟩
    refine ⟨groups.map Group.unit, ⟨groups, hbytes, rfl⟩, ?_⟩
    rw [← htext, String.ofList_toList]

theorem ofGroups?_eq_none_iff {bytes : List UInt8} :
    ofGroups? bytes = none ↔ ¬ ∃ groups : List Group, groups.flatMap Group.bytes = bytes := by
  rw [ofGroups?, Option.map_eq_none_iff, Option.eq_none_iff_forall_ne_some]
  constructor
  · rintro h ⟨groups, hbytes⟩
    exact h _ (modifiedUnits?_eq_some_iff.2 ⟨groups, hbytes, rfl⟩)
  · intro h units hunits
    obtain ⟨groups, hbytes, _⟩ := modifiedUnits?_eq_some_iff.1 hunits
    exact h ⟨groups, hbytes⟩

end Text

namespace ClassFile
namespace Constant

open Text (Group Transcribes)

theorem decodeText_eq_ok_iff {encoded : Bytes} {text : String} :
    decodeText encoded = .ok text ↔
      ∃ groups : List Group, groups.flatMap Group.bytes = encoded ∧
        Transcribes (groups.map Group.unit) text.toList := by
  rw [← Text.ofGroups?_eq_some_iff, ← Text.ofModifiedUtf8?_eq_ofGroups?, decodeText]
  cases Text.ofModifiedUtf8? encoded with
  | none => simp
  | some found => simp

theorem decodeText_eq_error_iff {encoded : Bytes} {error : DecodeError} :
    decodeText encoded = .error error ↔
      error = .invalidText ∧ ¬ ∃ groups : List Group, groups.flatMap Group.bytes = encoded := by
  rw [← Text.ofGroups?_eq_none_iff, ← Text.ofModifiedUtf8?_eq_ofGroups?, decodeText]
  cases Text.ofModifiedUtf8? encoded with
  | none => simp [eq_comm]
  | some found => simp

/-- A text constant is accepted exactly if its bytes are a sequence of groups, and its
text is what the code units of the groups are read as.  All other bytes are invalid
text.  ASCII, which is taken as it stands, is no exception: its groups give the same
text, and the UTF-8 bytes of this text are the bytes it was taken from. -/
theorem decodeText_accepts_groups (encoded : Bytes) :
    (∀ text, decodeText encoded = .ok text ↔
      ∃ groups : List Group, groups.flatMap Group.bytes = encoded ∧
        Transcribes (groups.map Group.unit) text.toList) ∧
    (∀ error, decodeText encoded = .error error ↔
      error = .invalidText ∧ ¬ ∃ groups : List Group, groups.flatMap Group.bytes = encoded) ∧
    (encoded.all Text.isPlainAscii = true →
      decodeText encoded = .ok (Text.ofAscii encoded) ∧
        Text.ofGroups? encoded = some (Text.ofAscii encoded) ∧
        Text.utf8Bytes (Text.ofAscii encoded) = encoded) := by
  refine ⟨fun text => decodeText_eq_ok_iff, fun error => decodeText_eq_error_iff, fun h => ?_⟩
  have hascii := List.all_eq_true.1 h
  have htaken : decodeText encoded = .ok (Text.ofAscii encoded) := by
    rw [decodeText, Text.ofModifiedUtf8?, if_pos h]
  exact ⟨htaken, Text.ofGroups?_of_ascii hascii, Text.utf8Bytes_ofAscii hascii⟩

/-- The character zero, a smiling face and half of a pair, after an `a`. -/
theorem decodeText_mixed :
    decodeText [0x61, 0xC0, 0x80, 0xED, 0xA0, 0xBD, 0xED, 0xB8, 0x80, 0xED, 0xA0, 0x80] =
      .ok "a\x00😀�" := by
  apply ((decodeText_accepts_groups _).1 _).2
  refine ⟨[.one 0x61 (by decide), .two 0xC0 0x80 (by decide) (by decide),
    .three 0xED 0xA0 0xBD (by decide) (by decide) (by decide),
    .three 0xED 0xB8 0x80 (by decide) (by decide) (by decide),
    .three 0xED 0xA0 0x80 (by decide) (by decide) (by decide)], rfl, ?_⟩
  rw [Text.transcribes_iff]
  decide +kernel

end Constant
end ClassFile
end Classpath
