import Classpath.Proofs.Text.ModifiedGroups

/-!
# Writing modified UTF-8

A text is written as its UTF-16 code units, and each unit as its shortest group.  The
decoder gives every text back.  Since it also accepts longer groups and surrogates that
are not in pairs, a byte string comes back from the text it is read as exactly if it has
neither.
-/

namespace Classpath
namespace Text

/-! ## The encoder -/

/-- The UTF-16 code units of a character: one, or the two halves of a pair. -/
def charUnits (c : Char) : List UInt16 :=
  if c.toNat < 0x10000 then [UInt16.ofNat c.toNat]
  else
    [UInt16.ofNat (0xD800 + (c.toNat - 0x10000) / 0x400),
      UInt16.ofNat (0xDC00 + (c.toNat - 0x10000) % 0x400)]

/-- The bytes of a code unit, as few as can be.  The unit zero has two, so that no byte
is zero. -/
def unitBytes (unit : UInt16) : List UInt8 :=
  let n := unit.toNat
  if 0 < n ∧ n < 0x80 then [UInt8.ofNat n]
  else if n < 0x800 then [UInt8.ofNat (0xC0 + n / 0x40), UInt8.ofNat (0x80 + n % 0x40)]
  else
    [UInt8.ofNat (0xE0 + n / 0x1000), UInt8.ofNat (0x80 + n / 0x40 % 0x40),
      UInt8.ofNat (0x80 + n % 0x40)]

/-- The bytes of a text in modified UTF-8. -/
def toModifiedUtf8 (text : String) : List UInt8 :=
  (text.toList.flatMap charUnits).flatMap unitBytes

/-! ## Code units and characters -/

/-- Every surrogate is half of a pair. -/
inductive Paired : List UInt16 → Prop
  | nil : Paired []
  | single {unit : UInt16} {units : List UInt16} (hunit : ¬ IsSurrogate unit)
      (hrest : Paired units) : Paired (unit :: units)
  | pair {high low : UInt16} {units : List UInt16} (hhigh : isHighSurrogate high = true)
      (hlow : isLowSurrogate low = true) (hrest : Paired units) : Paired (high :: low :: units)

theorem charUnits_of_lt {c : Char} (h : c.toNat < 0x10000) :
    charUnits c = [UInt16.ofNat c.toNat] :=
  if_pos h

theorem charUnits_of_le {c : Char} (h : 0x10000 ≤ c.toNat) :
    charUnits c =
      [UInt16.ofNat (0xD800 + (c.toNat - 0x10000) / 0x400),
        UInt16.ofNat (0xDC00 + (c.toNat - 0x10000) % 0x400)] :=
  if_neg (Nat.not_lt.2 h)

theorem toNat_bounds (c : Char) :
    c.toNat < 0xD800 ∨ 0xDFFF < c.toNat ∧ c.toNat < 0x110000 :=
  c.valid

/-- No character has the number of a surrogate. -/
theorem not_isSurrogate_of_toNat {c : Char} {unit : UInt16} (h : c.toNat = unit.toNat) :
    ¬ IsSurrogate unit := by
  have hvalid := toNat_bounds c
  rw [IsSurrogate, isHighSurrogate_iff, isLowSurrogate_iff, ← h]
  omega

/-- The units of a character outside the first 65536 are the halves of its pair. -/
theorem supplementary_units {c : Char} (h : 0x10000 ≤ c.toNat) :
    ∃ high low : UInt16, charUnits c = [high, low] ∧ isHighSurrogate high = true ∧
      isLowSurrogate low = true ∧
      c.toNat = 0x10000 + (high.toNat - 0xD800) * 0x400 + (low.toNat - 0xDC00) := by
  have hvalid := toNat_bounds c
  have hhigh : (UInt16.ofNat (0xD800 + (c.toNat - 0x10000) / 0x400)).toNat =
      0xD800 + (c.toNat - 0x10000) / 0x400 :=
    UInt16.toNat_ofNat_of_lt' (by rw [UInt16.size]; omega)
  have hlow : (UInt16.ofNat (0xDC00 + (c.toNat - 0x10000) % 0x400)).toNat =
      0xDC00 + (c.toNat - 0x10000) % 0x400 :=
    UInt16.toNat_ofNat_of_lt' (by rw [UInt16.size]; omega)
  refine ⟨_, _, charUnits_of_le h, ?_, ?_, ?_⟩
  · rw [isHighSurrogate_iff, hhigh]
    omega
  · rw [isLowSurrogate_iff, hlow]
    omega
  · rw [hhigh, hlow]
    omega

/-- The units of a text are read as the text, and no surrogate among them is alone. -/
theorem transcribes_charUnits (chars : List Char) :
    Transcribes (chars.flatMap charUnits) chars ∧ Paired (chars.flatMap charUnits) := by
  induction chars with
  | nil => exact ⟨.nil, .nil⟩
  | cons c chars ih =>
      rw [List.flatMap_cons]
      by_cases hc : c.toNat < 0x10000
      · have hunit : c.toNat = (UInt16.ofNat c.toNat).toNat := (Nat.mod_eq_of_lt hc).symm
        rw [charUnits_of_lt hc]
        exact ⟨.single (not_isSurrogate_of_toNat hunit) hunit ih.1,
          .single (not_isSurrogate_of_toNat hunit) ih.2⟩
      · obtain ⟨high, low, hunits, hhigh, hlow, hvalue⟩ := supplementary_units (Nat.not_lt.1 hc)
        rw [hunits]
        exact ⟨.pair hhigh hlow hvalue ih.1, .pair hhigh hlow ih.2⟩

theorem charUnits_of_single {c : Char} {unit : UInt16} (h : c.toNat = unit.toNat) :
    charUnits c = [unit] := by
  rw [charUnits_of_lt (h ▸ unit.toNat_lt), h, UInt16.ofNat_toNat]

theorem charUnits_of_pair {c : Char} {high low : UInt16} (hhigh : isHighSurrogate high = true)
    (hlow : isLowSurrogate low = true)
    (h : c.toNat = 0x10000 + (high.toNat - 0xD800) * 0x400 + (low.toNat - 0xDC00)) :
    charUnits c = [high, low] := by
  rw [isHighSurrogate_iff] at hhigh
  rw [isLowSurrogate_iff] at hlow
  have hquotient : 0xD800 + (c.toNat - 0x10000) / 0x400 = high.toNat := by omega
  have hremainder : 0xDC00 + (c.toNat - 0x10000) % 0x400 = low.toNat := by omega
  rw [charUnits_of_le (by omega), hquotient, hremainder, UInt16.ofNat_toNat, UInt16.ofNat_toNat]

/-- Where every surrogate is in a pair, the units are those of the text they are read as. -/
theorem Transcribes.flatMap_charUnits {units : List UInt16} {chars : List Char}
    (h : Transcribes units chars) (hpaired : Paired units) : chars.flatMap charUnits = units := by
  induction h with
  | nil => rfl
  | single hunit hc _ ih =>
      cases hpaired with
      | single _ hrest => rw [List.flatMap_cons, charUnits_of_single hc, ih hrest]; rfl
      | pair hhigh _ _ => exact absurd (.inl hhigh) hunit
  | pair hhigh hlow hc _ ih =>
      cases hpaired with
      | single hunit _ => exact absurd (.inl hhigh) hunit
      | pair _ _ hrest => rw [List.flatMap_cons, charUnits_of_pair hhigh hlow hc, ih hrest]; rfl
  | lone hunit halone _ _ =>
      -- A surrogate that is alone contradicts the pairing.
      cases hpaired with
      | single hnot _ => exact absurd hunit hnot
      | pair hhigh hlow _ => exact absurd ⟨hhigh, hlow⟩ halone

/-! ## Code units and groups -/

namespace Group

/-- No group of the same code unit has fewer bytes. -/
def IsShortest (group : Group) : Prop :=
  ∀ other : Group, other.unit = group.unit → group.bytes.length ≤ other.bytes.length

/-- The numbers that groups of one and of two bytes stand for. -/
theorem value_bounds (group : Group) :
    (group.bytes.length = 1 ∧ 0 < group.value ∧ group.value < 0x80) ∨
      (group.bytes.length = 2 ∧ group.value < 0x800) ∨ group.bytes.length = 3 := by
  cases group with
  | one byte hbyte =>
      refine .inl ⟨rfl, ?_⟩
      show 0 < byte.toNat ∧ byte.toNat < 0x80
      omega
  | two first second hfirst hsecond =>
      refine .inr (.inl ⟨rfl, ?_⟩)
      show (first.toNat - 0xC0) * 0x40 + (second.toNat - 0x80) < 0x800
      omega
  | three first second third hfirst hsecond hthird => exact .inr (.inr rfl)

theorem length_unitBytes (unit : UInt16) :
    (unitBytes unit).length =
      if 0 < unit.toNat ∧ unit.toNat < 0x80 then 1 else if unit.toNat < 0x800 then 2 else 3 := by
  simp only [unitBytes]
  split
  · rfl
  · split <;> rfl

/-- The bytes of a code unit are a group of it. -/
theorem exists_bytes_eq_unitBytes (unit : UInt16) :
    ∃ group : Group, group.bytes = unitBytes unit ∧ group.unit = unit := by
  -- It is enough that the bytes are a group and that it stands for the number of the unit.
  suffices h : ∃ group : Group, group.bytes = unitBytes unit ∧ group.value = unit.toNat by
    obtain ⟨group, hbytes, hvalue⟩ := h
    exact ⟨group, hbytes, UInt16.toNat_inj.1 (group.toNat_unit.trans hvalue)⟩
  have hmax := unit.toNat_lt
  simp only [unitBytes]
  split
  · next hone =>
      have hbyte : (UInt8.ofNat unit.toNat).toNat = unit.toNat :=
        UInt8.toNat_ofNat_of_lt' (by rw [UInt8.size]; omega)
      exact ⟨.one (UInt8.ofNat unit.toNat) (by omega), rfl, hbyte⟩
  · have hlast : (UInt8.ofNat (0x80 + unit.toNat % 0x40)).toNat = 0x80 + unit.toNat % 0x40 :=
      UInt8.toNat_ofNat_of_lt' (by rw [UInt8.size]; omega)
    split
    · next htwo =>
        have hfirst : (UInt8.ofNat (0xC0 + unit.toNat / 0x40)).toNat = 0xC0 + unit.toNat / 0x40 :=
          UInt8.toNat_ofNat_of_lt' (by rw [UInt8.size]; omega)
        refine ⟨.two _ _ (by omega) (by omega), rfl, ?_⟩
        show ((UInt8.ofNat (0xC0 + unit.toNat / 0x40)).toNat - 0xC0) * 0x40 +
          ((UInt8.ofNat (0x80 + unit.toNat % 0x40)).toNat - 0x80) = unit.toNat
        omega
    · have hfirst : (UInt8.ofNat (0xE0 + unit.toNat / 0x1000)).toNat =
          0xE0 + unit.toNat / 0x1000 :=
        UInt8.toNat_ofNat_of_lt' (by rw [UInt8.size]; omega)
      have hmiddle : (UInt8.ofNat (0x80 + unit.toNat / 0x40 % 0x40)).toNat =
          0x80 + unit.toNat / 0x40 % 0x40 :=
        UInt8.toNat_ofNat_of_lt' (by rw [UInt8.size]; omega)
      refine ⟨.three _ _ _ (by omega) (by omega) (by omega), rfl, ?_⟩
      show ((UInt8.ofNat (0xE0 + unit.toNat / 0x1000)).toNat - 0xE0) * 0x1000 +
        ((UInt8.ofNat (0x80 + unit.toNat / 0x40 % 0x40)).toNat - 0x80) * 0x40 +
        ((UInt8.ofNat (0x80 + unit.toNat % 0x40)).toNat - 0x80) = unit.toNat
      omega

theorem isShortest_of_bytes_eq {group : Group} (h : group.bytes = unitBytes group.unit) :
    group.IsShortest := by
  intro other hunit
  have hvalue : other.value = group.unit.toNat := hunit ▸ other.toNat_unit.symm
  have hbounds := other.value_bounds
  rw [h, length_unitBytes]
  split
  · omega
  · split <;> omega

/-- A code unit has at most one group of each length. -/
theorem bytes_eq_of_unit_eq {a b : Group} (hunit : a.unit = b.unit)
    (hlength : a.bytes.length = b.bytes.length) : a.bytes = b.bytes := by
  have hvalue : a.value = b.value := by rw [← a.toNat_unit, ← b.toNat_unit, hunit]
  cases a with
  | one byte hbyte =>
      cases b with
      | one byte' hbyte' =>
          obtain rfl : byte = byte' := UInt8.toNat_inj.1 hvalue
          rfl
      | two => simp [bytes] at hlength
      | three => simp [bytes] at hlength
  | two first second hfirst hsecond =>
      cases b with
      | one => simp [bytes] at hlength
      | two first' second' hfirst' hsecond' =>
          have hsame : (first.toNat - 0xC0) * 0x40 + (second.toNat - 0x80) =
            (first'.toNat - 0xC0) * 0x40 + (second'.toNat - 0x80) := hvalue
          obtain rfl : first = first' := UInt8.toNat_inj.1 (by omega)
          obtain rfl : second = second' := UInt8.toNat_inj.1 (by omega)
          rfl
      | three => simp [bytes] at hlength
  | three first second third hfirst hsecond hthird =>
      cases b with
      | one => simp [bytes] at hlength
      | two => simp [bytes] at hlength
      | three first' second' third' hfirst' hsecond' hthird' =>
          have hsame : (first.toNat - 0xE0) * 0x1000 + (second.toNat - 0x80) * 0x40 +
              (third.toNat - 0x80) =
            (first'.toNat - 0xE0) * 0x1000 + (second'.toNat - 0x80) * 0x40 +
              (third'.toNat - 0x80) := hvalue
          obtain rfl : first = first' := UInt8.toNat_inj.1 (by omega)
          obtain rfl : second = second' := UInt8.toNat_inj.1 (by omega)
          obtain rfl : third = third' := UInt8.toNat_inj.1 (by omega)
          rfl

/-- The shortest group of a code unit is the one written for it. -/
theorem isShortest_iff {group : Group} :
    group.IsShortest ↔ group.bytes = unitBytes group.unit := by
  refine ⟨fun h => ?_, isShortest_of_bytes_eq⟩
  obtain ⟨written, hbytes, hunit⟩ := exists_bytes_eq_unitBytes group.unit
  have hwritten : written.IsShortest := isShortest_of_bytes_eq (by rw [hbytes, hunit])
  have hlength : group.bytes.length = written.bytes.length :=
    Nat.le_antisymm (h written hunit) (hwritten group hunit.symm)
  rw [← hbytes]
  exact bytes_eq_of_unit_eq hunit.symm hlength

/-- Written units are a sequence of groups, each the shortest of its unit. -/
theorem exists_groups_unitBytes (units : List UInt16) :
    ∃ groups : List Group, groups.flatMap bytes = units.flatMap unitBytes ∧
      groups.map unit = units ∧ ∀ group ∈ groups, group.IsShortest := by
  induction units with
  | nil => exact ⟨[], rfl, rfl, by simp⟩
  | cons unit units ih =>
      obtain ⟨group, hbytes, hunit⟩ := exists_bytes_eq_unitBytes unit
      obtain ⟨groups, hrest, hunits, hshortest⟩ := ih
      have hgroup : group.IsShortest := isShortest_of_bytes_eq (by rw [hbytes, hunit])
      refine ⟨group :: groups, ?_, ?_, List.forall_mem_cons.2 ⟨hgroup, hshortest⟩⟩
      · rw [List.flatMap_cons, List.flatMap_cons, hbytes, hrest]
      · rw [List.map_cons, hunit, hunits]

/-- A byte string begins with at most one group. -/
theorem eq_of_bytes_append_eq {a b : Group} {xs ys : List UInt8}
    (h : a.bytes ++ xs = b.bytes ++ ys) : a = b ∧ xs = ys := by
  cases a <;> cases b <;> simp only [bytes, List.cons_append, List.nil_append] at h <;> grind

/-- A byte string is a sequence of groups in at most one way. -/
theorem eq_of_flatMap_bytes_eq {groups others : List Group}
    (h : groups.flatMap bytes = others.flatMap bytes) : groups = others := by
  induction groups generalizing others with
  | nil =>
      cases others with
      | nil => rfl
      | cons other others => cases other <;> simp [bytes] at h
  | cons group groups ih =>
      cases others with
      | nil => cases group <;> simp [bytes] at h
      | cons other others =>
          rw [List.flatMap_cons, List.flatMap_cons] at h
          obtain ⟨rfl, hrest⟩ := eq_of_bytes_append_eq h
          rw [ih hrest]

end Group

/-- The bytes of a text are groups, each the shortest of its unit, and read as the text. -/
theorem exists_groups_toModifiedUtf8 (text : String) :
    ∃ groups : List Group, groups.flatMap Group.bytes = toModifiedUtf8 text ∧
      Transcribes (groups.map Group.unit) text.toList ∧ Paired (groups.map Group.unit) ∧
      ∀ group ∈ groups, group.IsShortest := by
  obtain ⟨groups, hbytes, hunits, hshortest⟩ :=
    Group.exists_groups_unitBytes (text.toList.flatMap charUnits)
  obtain ⟨hread, hpaired⟩ := transcribes_charUnits text.toList
  exact ⟨groups, hbytes, hunits ▸ hread, hunits ▸ hpaired, hshortest⟩

/-- Groups that are the shortest of their units, with all surrogates in pairs, are what
is written for the text they are read as. -/
theorem toModifiedUtf8_eq_of_shortest {groups : List Group} {text : String}
    (hread : Transcribes (groups.map Group.unit) text.toList)
    (hpaired : Paired (groups.map Group.unit)) (hshortest : ∀ group ∈ groups, group.IsShortest) :
    toModifiedUtf8 text = groups.flatMap Group.bytes := by
  rw [toModifiedUtf8, hread.flatMap_charUnits hpaired, List.flatMap_map]
  apply List.flatMap_congr
  intro group hgroup
  exact (Group.isShortest_iff.1 (hshortest group hgroup)).symm

end Text

namespace ClassFile
namespace Constant

open Text (Group Paired toModifiedUtf8)

/-- Every text is read back from its bytes.  Conversely, bytes that are read as a text
are the bytes of this text exactly if no surrogate among their groups is unpaired and
every group is the shortest of its code unit. -/
theorem decodeText_round_trip :
    (∀ text, decodeText (toModifiedUtf8 text) = .ok text) ∧
    ∀ (encoded : Bytes) (text : String), decodeText encoded = .ok text →
      ∃ groups : List Group, groups.flatMap Group.bytes = encoded ∧
        (∀ others : List Group, others.flatMap Group.bytes = encoded → others = groups) ∧
        (toModifiedUtf8 text = encoded ↔
          Paired (groups.map Group.unit) ∧ ∀ group ∈ groups, group.IsShortest) := by
  constructor
  · intro text
    obtain ⟨groups, hbytes, hread, _⟩ := Text.exists_groups_toModifiedUtf8 text
    exact decodeText_eq_ok_iff.2 ⟨groups, hbytes, hread⟩
  · intro encoded text h
    obtain ⟨groups, rfl, hread⟩ := decodeText_eq_ok_iff.1 h
    refine ⟨groups, rfl, fun others hothers => Group.eq_of_flatMap_bytes_eq hothers, ?_⟩
    constructor
    · intro hwritten
      obtain ⟨written, hbytes, _, hpaired, hshortest⟩ := Text.exists_groups_toModifiedUtf8 text
      -- There is only one way to cut the bytes into groups.
      obtain rfl : written = groups := Group.eq_of_flatMap_bytes_eq (hbytes.trans hwritten)
      exact ⟨hpaired, hshortest⟩
    · rintro ⟨hpaired, hshortest⟩
      exact Text.toModifiedUtf8_eq_of_shortest hread hpaired hshortest

/-- Three bytes for the character zero are read, but they are not what is written. -/
theorem decodeText_overlong :
    decodeText [0xE0, 0x80, 0x80] = .ok "\x00" ∧ toModifiedUtf8 "\x00" = [0xC0, 0x80] ∧
      ∃ groups : List Group, groups.flatMap Group.bytes = [0xE0, 0x80, 0x80] ∧
        ¬ (Paired (groups.map Group.unit) ∧ ∀ group ∈ groups, group.IsShortest) := by
  have hread : decodeText [0xE0, 0x80, 0x80] = .ok "\x00" := by decide +kernel
  have hwritten : toModifiedUtf8 "\x00" = [0xC0, 0x80] := by decide +kernel
  obtain ⟨groups, hbytes, _, hiff⟩ := decodeText_round_trip.2 _ _ hread
  refine ⟨hread, hwritten, groups, hbytes, ?_⟩
  rw [← hiff, hwritten]
  decide

end Constant
end ClassFile
end Classpath
