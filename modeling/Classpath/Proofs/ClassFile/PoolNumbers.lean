import Classpath.Proofs.ClassFile.PoolBuilding
import Classpath.Proofs.ClassFile.ReadInversion

/-!
# The numbers of the constants

A `long` or `double` takes two numbers and every other constant one, so the number of a
constant is one more than the numbers taken before it.  Reading goes entry by entry: what
one entry leaves to be filled is what the readers of the later ones are given, and a wide
constant does not fit where a single number is left.  Main statement: written constants
are found under these numbers and nothing is found under any other.
-/

namespace Classpath
namespace ClassFile

/-- How many numbers a constant takes. -/
def Constant.width : Constant → Nat
  | .long _ => 2
  | .double _ => 2
  | _ => 1

theorem Constant.isWide_iff {constant : Constant} :
    constant.isWide = true ↔ constant.width = 2 := by
  cases constant <;> simp [isWide, width]

theorem Constant.width_of_not_isWide {constant : Constant} (h : ¬ constant.isWide = true) :
    constant.width = 1 := by
  cases constant with
  | long value => exact absurd rfl h
  | double bits => exact absurd rfl h
  | _ => rfl

theorem PoolEntry.slots_of_wide {entry : PoolEntry} (h : entry.constant.width = 2) :
    entry.slots = [some entry.constant, none] := by
  rw [slots, if_pos (Constant.isWide_iff.2 h)]

theorem PoolEntry.length_slots (entry : PoolEntry) :
    entry.slots.length = entry.constant.width := by
  unfold slots
  split
  · next hwide => rw [Constant.isWide_iff.1 hwide]; rfl
  · next hnarrow => rw [Constant.width_of_not_isWide hnarrow]; rfl

namespace ConstantPool

/-- How many numbers the constants of a list of entries take together. -/
def widthOf : List PoolEntry → Nat
  | [] => 0
  | entry :: rest => entry.constant.width + widthOf rest

theorem length_slotsOf (entries : List PoolEntry) :
    (slotsOf entries).length = widthOf entries := by
  induction entries with
  | nil => rfl
  | cons entry rest ih =>
      rw [slotsOf, List.flatMap_cons, List.length_append, PoolEntry.length_slots, widthOf, ← ih]
      rfl

/-! ## Reading -/

/-- An entry at the front fills its numbers, and the others are read from what follows
it. -/
theorem readSlots_entry (entry : PoolEntry) (n : Nat) (tail : Bytes) :
    readSlots (entry.constant.width + n) (entry.bytes ++ tail) =
      ((entry.slots ++ ·) <$> readSlots n) tail := by
  have hread := entry.spelling.reads
  by_cases hwide : entry.constant.isWide = true
  · have hwidth := Constant.isWide_iff.1 hwide
    rw [hwidth, Nat.add_comm, readSlots, hread.bind_append, if_pos hwide,
      PoolEntry.slots_of_wide hwidth]
    rfl
  · rw [Constant.width_of_not_isWide hwide, Nat.add_comm, PoolEntry.slots, if_neg hwide]
    -- The last number and an earlier one are read by different equations.
    cases n with
    | zero =>
        refine (hread.bind_append _ tail).trans ?_
        rw [if_neg hwide]
        rfl
    | succ n =>
        refine (hread.bind_append _ tail).trans ?_
        rw [if_neg hwide]
        rfl

/-- Entries at the front fill their numbers one after the other. -/
theorem readSlots_entries (entries : List PoolEntry) (n : Nat) (tail : Bytes) :
    readSlots (widthOf entries + n) ((entries.map (·.bytes)).flatten ++ tail) =
      ((slotsOf entries ++ ·) <$> readSlots n) tail := by
  induction entries with
  | nil =>
      rw [widthOf, Nat.zero_add]
      exact (congrFun (id_map (readSlots n)) tail).symm
  | cons entry rest ih =>
      rw [widthOf, Nat.add_assoc, List.map_cons, List.flatten_cons, List.append_assoc,
        readSlots_entry]
      show EStateM.map _ _ _ = _
      rw [EStateM.map, ih]
      show _ = EStateM.map _ _ _
      simp only [Functor.map, EStateM.map]
      cases readSlots n tail with
      | ok slots left => simp [slotsOf]
      | error error left => rfl

/-- A wide constant does not fit where one number is left. -/
theorem readSlots_one_wide {entry : PoolEntry} (h : entry.constant.width = 2) (tail : Bytes) :
    readSlots 1 (entry.bytes ++ tail) = .error (.malformed .constantPool) tail := by
  rw [readSlots, entry.spelling.reads.bind_append, if_pos (Constant.isWide_iff.2 h)]
  rfl

/-- However the numbers are filled, their count is kept. -/
theorem length_of_readSlots {n : Nat} {input rest : Bytes} {slots : List (Option Constant)}
    (h : readSlots n input = .ok slots rest) : slots.length = n := by
  induction n using readSlots.induct generalizing input rest slots with
  | case1 =>
      obtain ⟨rfl, -⟩ := pure_eq_ok_iff.1 h
      rfl
  | case2 =>
      obtain ⟨constant, left, -, h⟩ := bind_eq_ok_iff.1 h
      split at h
      · exact absurd h throw_ne_ok
      · obtain ⟨rfl, -⟩ := pure_eq_ok_iff.1 h
        rfl
  | case3 n ih ih' =>
      obtain ⟨constant, left, -, h⟩ := bind_eq_ok_iff.1 h
      split at h
      · obtain ⟨more, _, hmore, h⟩ := bind_eq_ok_iff.1 h
        obtain ⟨rfl, -⟩ := pure_eq_ok_iff.1 h
        simp [ih hmore]
      · obtain ⟨more, _, hmore, h⟩ := bind_eq_ok_iff.1 h
        obtain ⟨rfl, -⟩ := pure_eq_ok_iff.1 h
        simp [ih' hmore]

/-! ## Looking numbers up -/

/-- Each slot belongs to one entry, and its place among the slots of the entry follows the
numbers taken before. -/
theorem getElem?_slotsOf_eq_some_iff {entries : List PoolEntry} {n : Nat}
    {slot : Option Constant} :
    (slotsOf entries)[n]? = some slot ↔ ∃ before entry after k,
      entries = before ++ entry :: after ∧ n = widthOf before + k ∧ entry.slots[k]? = some slot := by
  constructor
  · intro h
    induction entries generalizing n with
    | nil => simp [slotsOf] at h
    | cons entry rest ih =>
        rw [slotsOf, List.flatMap_cons] at h
        by_cases hn : n < entry.slots.length
        · rw [List.getElem?_append_left hn] at h
          exact ⟨[], entry, rest, n, rfl, (Nat.zero_add n).symm, h⟩
        · rw [List.getElem?_append_right (Nat.le_of_not_lt hn)] at h
          obtain ⟨before, found, after, k, rfl, hk, hslot⟩ := ih h
          rw [PoolEntry.length_slots] at hn hk
          refine ⟨entry :: before, found, after, k, rfl, ?_, hslot⟩
          rw [widthOf]
          omega
  · rintro ⟨before, entry, after, k, rfl, rfl, hslot⟩
    have hk : k < entry.slots.length := (List.getElem?_eq_some_iff.1 hslot).1
    have hslots : slotsOf (before ++ entry :: after) =
        slotsOf before ++ (entry.slots ++ slotsOf after) := by
      rw [slotsOf, List.flatMap_append, List.flatMap_cons]
      rfl
    rw [hslots, ← length_slotsOf, List.getElem?_append_right (Nat.le_add_right _ _),
      Nat.add_sub_cancel_left, List.getElem?_append_left hk, hslot]

/-- The first slot of an entry holds its constant. -/
theorem slots_eq_constant_iff {entry : PoolEntry} {k : Nat} {constant : Constant} :
    entry.slots[k]? = some (some constant) ↔ k = 0 ∧ entry.constant = constant := by
  unfold PoolEntry.slots
  split
  · rcases k with _ | _ | k <;> simp
  · rcases k with _ | k <;> simp

/-- The second slot of an entry, if there is one, holds nothing. -/
theorem slots_eq_none_iff {entry : PoolEntry} {k : Nat} :
    entry.slots[k]? = some none ↔ k = 1 ∧ entry.constant.width = 2 := by
  rw [← Constant.isWide_iff]
  unfold PoolEntry.slots
  split
  · next hwide => rcases k with _ | _ | k <;> simp [hwide]
  · next hnarrow => rcases k with _ | k <;> simp [hnarrow]

theorem get_eq_ok_iff {pool : ConstantPool} {index : UInt16} {constant : Constant} :
    pool.get index = .ok constant ↔ pool.slots[index.toNat]? = some (some constant) :=
  ⟨holds_of_get, get_of_holds⟩

/-- A number is refused if it lies beyond the pool or its slot holds nothing. -/
theorem get_eq_error_iff {pool : ConstantPool} {index : UInt16} {error : DecodeError} :
    pool.get index = .error error ↔ error = .invalidIndex index ∧
      (pool.slots[index.toNat]? = some none ∨ pool.slots[index.toNat]? = none) := by
  unfold get
  rcases pool.slots[index.toNat]? with _ | _ | constant
  · simp [eq_comm]
  · simp [eq_comm]
  · simp

/-- The entries of a pool are found under one more than the numbers taken before them. -/
theorem get_ofEntries_eq_ok_iff {entries : List PoolEntry} {index : UInt16}
    {constant : Constant} :
    (ofEntries entries).get index = .ok constant ↔ ∃ before entry after,
      entries = before ++ entry :: after ∧ index.toNat = 1 + widthOf before ∧
        entry.constant = constant := by
  rw [get_eq_ok_iff]
  show (none :: slotsOf entries)[index.toNat]? = _ ↔ _
  cases hindex : index.toNat with
  | zero =>
      simp only [List.getElem?_cons_zero, Option.some_inj, reduceCtorEq, false_iff]
      rintro ⟨before, _, _, _, hzero, _⟩
      omega
  | succ n =>
      rw [List.getElem?_cons_succ, getElem?_slotsOf_eq_some_iff]
      constructor
      · rintro ⟨before, entry, after, k, hsplit, rfl, hslot⟩
        obtain ⟨rfl, hconstant⟩ := slots_eq_constant_iff.1 hslot
        exact ⟨before, entry, after, hsplit, by omega, hconstant⟩
      · rintro ⟨before, entry, after, hsplit, hn, hconstant⟩
        exact ⟨before, entry, after, 0, hsplit, by omega,
          slots_eq_constant_iff.2 ⟨rfl, hconstant⟩⟩

/-- The numbers that are refused are zero, the second ones of wide constants, and all from
the count on. -/
theorem get_ofEntries_eq_error_iff {entries : List PoolEntry} {index : UInt16}
    {error : DecodeError} :
    (ofEntries entries).get index = .error error ↔ error = .invalidIndex index ∧
      (index = 0 ∨
        (∃ before entry after, entries = before ++ entry :: after ∧
          entry.constant.width = 2 ∧ index.toNat = 2 + widthOf before) ∨
        1 + widthOf entries ≤ index.toNat) := by
  rw [get_eq_error_iff]
  refine and_congr_right fun _ => ?_
  show (none :: slotsOf entries)[index.toNat]? = _ ∨ (none :: slotsOf entries)[index.toNat]? = _ ↔ _
  rw [← UInt16.toNat_inj]
  cases hindex : index.toNat with
  | zero => simp
  | succ n =>
      have hbeyond : (slotsOf entries)[n]? = none ↔ 1 + widthOf entries ≤ n + 1 := by
        rw [List.getElem?_eq_none_iff, length_slotsOf]
        omega
      rw [List.getElem?_cons_succ, hbeyond, getElem?_slotsOf_eq_some_iff]
      have hsecond : (∃ before entry after k, entries = before ++ entry :: after ∧
            n = widthOf before + k ∧ entry.slots[k]? = some none) ↔
          ∃ before entry after, entries = before ++ entry :: after ∧
            entry.constant.width = 2 ∧ n + 1 = 2 + widthOf before := by
        constructor
        · rintro ⟨before, entry, after, k, hsplit, rfl, hslot⟩
          obtain ⟨rfl, hwide⟩ := slots_eq_none_iff.1 hslot
          exact ⟨before, entry, after, hsplit, hwide, by omega⟩
        · rintro ⟨before, entry, after, hsplit, hwide, hn⟩
          exact ⟨before, entry, after, 1, hsplit, by omega, slots_eq_none_iff.2 ⟨rfl, hwide⟩⟩
      rw [hsecond]
      simp

/-! ## Whole pools -/

theorem toNat_ofNat_of_le {count : Nat} (h : count ≤ 65535) :
    (UInt16.ofNat count).toNat = count :=
  Nat.mod_eq_of_lt (by omega)

/-- A count that ends inside a wide constant is refused when the constant is read. -/
theorem read_of_count_inside (entries : List PoolEntry) {last : PoolEntry} (rest : Bytes)
    (hwide : last.constant.width = 2) (hcount : 2 + widthOf entries ≤ 65535) :
    read (u2Bytes (2 + widthOf entries) ++ (((entries ++ [last]).map (·.bytes)).flatten ++ rest)) =
      .error (.malformed .constantPool) rest := by
  have hnumbers : (UInt16.ofNat (2 + widthOf entries)).toNat - 1 = widthOf entries + 1 := by
    rw [toNat_ofNat_of_le hcount]
    omega
  have hslots : readSlots (widthOf entries + 1)
      (((entries ++ [last]).map (·.bytes)).flatten ++ rest) =
        .error (.malformed .constantPool) rest := by
    rw [List.map_append, List.flatten_append, List.append_assoc, readSlots_entries]
    show EStateM.map _ _ _ = _
    rw [EStateM.map, List.map_singleton, List.flatten_singleton, readSlots_one_wide hwide]
  rw [read, (Reads.u2 _).bind_append, hnumbers]
  show EStateM.bind _ _ _ = _
  rw [EStateM.bind, hslots]

/-- A pool that is read has as many numbers as its count says. -/
theorem length_of_read {input rest : Bytes} {pool : ConstantPool}
    (h : read input = .ok pool rest) :
    ∃ count tail, input = indexBytes count ++ tail ∧
      (pool.slots.length = count.toNat ∨ count = 0 ∧ pool.slots.length = 1) := by
  obtain ⟨count, tail, hcount, h⟩ := bind_eq_ok_iff.1 h
  obtain ⟨slots, _, hslots, h⟩ := bind_eq_ok_iff.1 h
  obtain ⟨rfl, -⟩ := pure_eq_ok_iff.1 h
  refine ⟨count, tail, u2_eq_ok_iff.1 hcount, ?_⟩
  rw [List.length_cons, length_of_readSlots hslots, ← UInt16.toNat_inj]
  show _ ∨ count.toNat = 0 ∧ _
  omega

/-- Written constants are read up to their last byte.  Each is found under one more than
the numbers taken before it; zero, the second number of a wide constant and the numbers
from the count on are refused.  A count that ends inside a wide constant is an error, and
no pool has another length than its count says. -/
theorem read_finds_constants_by_number :
    (∀ (entries : List PoolEntry) (rest : Bytes), 1 + widthOf entries ≤ 65535 →
      ∃ pool, read (u2Bytes (1 + widthOf entries) ++
          ((entries.map (·.bytes)).flatten ++ rest)) = .ok pool rest ∧
        (∀ index constant, pool.get index = .ok constant ↔
          ∃ before entry after, entries = before ++ entry :: after ∧
            index.toNat = 1 + widthOf before ∧ entry.constant = constant) ∧
        ∀ index error, pool.get index = .error error ↔ error = .invalidIndex index ∧
          (index = 0 ∨
            (∃ before entry after, entries = before ++ entry :: after ∧
              entry.constant.width = 2 ∧ index.toNat = 2 + widthOf before) ∨
            1 + widthOf entries ≤ index.toNat)) ∧
    (∀ (entries : List PoolEntry) (last : PoolEntry) (rest : Bytes),
      last.constant.width = 2 → 2 + widthOf entries ≤ 65535 →
        read (u2Bytes (2 + widthOf entries) ++
          (((entries ++ [last]).map (·.bytes)).flatten ++ rest)) =
            .error (.malformed .constantPool) rest) ∧
    ∀ (input rest : Bytes) (pool : ConstantPool), read input = .ok pool rest →
      ∃ count tail, input = indexBytes count ++ tail ∧
        (pool.slots.length = count.toNat ∨ count = 0 ∧ pool.slots.length = 1) := by
  refine ⟨fun entries rest hcount => ⟨ofEntries entries, ?_, fun _ _ => get_ofEntries_eq_ok_iff,
    fun _ _ => get_ofEntries_eq_error_iff⟩, fun entries last rest hwide hcount =>
      read_of_count_inside entries rest hwide hcount, fun _ _ _ => length_of_read⟩
  have hfits : (slotsOf entries).length + 1 < 65536 := by
    rw [length_slotsOf]
    omega
  have hread := reads_ofEntries hfits rest
  rwa [entryBytes, length_slotsOf, Nat.add_comm, List.append_assoc] at hread

/-- A wide constant, a text and the class that the text names. -/
def wideFirst : List PoolEntry :=
  [⟨.long 42, _, .long 42⟩,
    ⟨.utf8 "A", _, @Spelling.utf8 [0x41] "A" (by decide) (by decide +kernel)⟩,
    ⟨.classInfo 3, _, .classInfo 3⟩]

theorem wideFirst_by_number :
    (∃ pool, read (u2Bytes 5 ++ ((wideFirst.map (·.bytes)).flatten ++ [0xFF])) = .ok pool [0xFF] ∧
      pool.get 0 = .error (.invalidIndex 0) ∧ pool.get 1 = .ok (.long 42) ∧
      pool.get 2 = .error (.invalidIndex 2) ∧ pool.get 3 = .ok (.utf8 "A") ∧
      pool.get 4 = .ok (.classInfo 3) ∧ pool.get 5 = .error (.invalidIndex 5)) ∧
    read (u2Bytes 6 ++ (((wideFirst ++ wideFirst.take 1).map (·.bytes)).flatten ++ [0xFF])) =
      .error (.malformed .constantPool) [0xFF] := by
  obtain ⟨hread, hinside, -⟩ := read_finds_constants_by_number
  obtain ⟨pool, hpool, hok, herror⟩ := hread wideFirst [0xFF] (by decide)
  refine ⟨⟨pool, hpool, (herror 0 _).2 ⟨rfl, .inl rfl⟩,
    (hok 1 _).2 ⟨[], _, _, rfl, rfl, rfl⟩,
    (herror 2 _).2 ⟨rfl, .inr (.inl ⟨[], _, _, rfl, rfl, rfl⟩)⟩,
    (hok 3 _).2 ⟨wideFirst.take 1, _, _, rfl, rfl, rfl⟩,
    (hok 4 _).2 ⟨wideFirst.take 2, _, _, rfl, rfl, rfl⟩,
    (herror 5 _).2 ⟨rfl, .inr (.inr (by decide))⟩⟩, ?_⟩
  exact hinside wideFirst ⟨.long 42, _, .long 42⟩ [0xFF] rfl (by decide)

end ConstantPool
end ClassFile
end Classpath
