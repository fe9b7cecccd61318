import Classpath.ClassFile.Attribute
import Mathlib.Logic.Basic

/-!
# Lengths and code units on machine words

The numbers of a class file are counts of one, two or four bytes, and what is
computed from them stands in words of sixty-four bits.  An operation on words that
has no exact result is a fault.  The lengths that the decoder derives from its counts
are computed without one, and so are the code units of its texts: each is the number
that the unbounded arithmetic gives.
-/

namespace Classpath
namespace ClassFile

/-- Why a computation on words cannot go on. -/
inductive Fault
  | overflow
  | underflow
  | outOfRange
  /-- A loop has made more rounds than it was given. -/
  | overrun
deriving DecidableEq, Repr

/-- Short enough that its length is a positive number even in a signed word. -/
abbrev Addressable (bytes : Bytes) : Prop := bytes.length < 0x8000000000000000

/-- A part of a class file has a length of at most four bytes. -/
theorem addressable_of_length {bytes : Bytes} {n : Nat} (hlength : bytes.length = n)
    (hn : n < 0x100000000) : Addressable bytes := by
  omega

namespace Word

/-- The computation ends with a word that is the number. -/
def Computes (compute : Except Fault UInt64) (n : Nat) : Prop :=
  ∃ word, compute = .ok word ∧ word.toNat = n

def add (a b : UInt64) : Except Fault UInt64 :=
  if a.toNat + b.toNat < UInt64.size then .ok (a + b) else .error .overflow

def sub (a b : UInt64) : Except Fault UInt64 :=
  if b ≤ a then .ok (a - b) else .error .underflow

def mul (a b : UInt64) : Except Fault UInt64 :=
  if a.toNat * b.toNat < UInt64.size then .ok (a * b) else .error .overflow

/-- Does a number fit in a signed word? -/
def fitsSigned (n : Int) : Bool := -0x8000000000000000 ≤ n && n < 0x8000000000000000

def addSigned (a b : Int64) : Except Fault Int64 :=
  if fitsSigned (a.toInt + b.toInt) then .ok (a + b) else .error .overflow

def subSigned (a b : Int64) : Except Fault Int64 :=
  if fitsSigned (a.toInt - b.toInt) then .ok (a - b) else .error .overflow

/-- The byte at a position that must exist. -/
def index (bytes : Bytes) (i : UInt64) : Except Fault UInt8 :=
  match bytes[i.toNat]? with
  | some byte => .ok byte
  | none => .error .outOfRange

/-- A number of bytes from a position on, looked up one by one. -/
def gather (bytes : Bytes) : (count : Nat) → (i : UInt64) → Except Fault Bytes
  | 0, _ => .ok []
  | count + 1, i => do
      let byte ← index bytes i
      return byte :: (← gather bytes count (← add i 1))

theorem add_exact {a b : UInt64} (h : a.toNat + b.toNat < UInt64.size) :
    Computes (add a b) (a.toNat + b.toNat) := by
  refine ⟨a + b, if_pos h, ?_⟩
  rw [UInt64.toNat_add]
  exact Nat.mod_eq_of_lt h

/-- A sum that was computed is the sum. -/
theorem toNat_of_add {a b sum : UInt64} (h : add a b = .ok sum) :
    sum.toNat = a.toNat + b.toNat := by
  rw [add] at h
  split at h
  · next hfits =>
      obtain ⟨total, htotal, hvalue⟩ := add_exact hfits
      rw [add, if_pos hfits, h] at htotal
      rw [Except.ok.inj htotal, hvalue]
  · cases h

theorem sub_exact {a b : UInt64} (h : b.toNat ≤ a.toNat) :
    Computes (sub a b) (a.toNat - b.toNat) := by
  have hle : b ≤ a := UInt64.le_iff_toNat_le.2 h
  exact ⟨a - b, if_pos hle, UInt64.toNat_sub_of_le _ _ hle⟩

theorem mul_exact {a b : UInt64} (h : a.toNat * b.toNat < UInt64.size) :
    Computes (mul a b) (a.toNat * b.toNat) := by
  refine ⟨a * b, if_pos h, ?_⟩
  rw [UInt64.toNat_mul]
  exact Nat.mod_eq_of_lt h

/-- A number that fits in a signed word is not changed by reducing it to one. -/
theorem bmod_of_fitsSigned {n : Int} (h : fitsSigned n = true) :
    n.bmod 0x10000000000000000 = n := by
  simp only [fitsSigned, Bool.and_eq_true, decide_eq_true_eq] at h
  exact Int.bmod_eq_of_le (by omega) (by omega)

theorem addSigned_exact {a b : Int64} (h : fitsSigned (a.toInt + b.toInt) = true) :
    ∃ sum, addSigned a b = .ok sum ∧ sum.toInt = a.toInt + b.toInt := by
  refine ⟨a + b, if_pos h, ?_⟩
  rw [Int64.toInt_add]
  exact bmod_of_fitsSigned h

theorem subSigned_exact {a b : Int64} (h : fitsSigned (a.toInt - b.toInt) = true) :
    ∃ difference, subSigned a b = .ok difference ∧ difference.toInt = a.toInt - b.toInt := by
  refine ⟨a - b, if_pos h, ?_⟩
  rw [Int64.toInt_sub]
  exact bmod_of_fitsSigned h

theorem index_of_lt {bytes : Bytes} {i : UInt64} (h : i.toNat < bytes.length) :
    index bytes i = .ok bytes[i.toNat] := by
  rw [index, List.getElem?_eq_getElem h]

/-- Looking up all bytes yields them all. -/
theorem gather_exact {bytes : Bytes} (hbytes : bytes.length < UInt64.size) {count : Nat}
    {i : UInt64} (h : i.toNat + count = bytes.length) :
    gather bytes count i = .ok (bytes.drop i.toNat) := by
  induction count generalizing i with
  | zero => rw [gather, List.drop_eq_nil_of_le (by omega)]
  | succ count ih =>
      have hlt : i.toNat < bytes.length := by omega
      obtain ⟨next, hnext, hvalue⟩ := add_exact (a := i) (b := 1) (by
        show i.toNat + 1 < UInt64.size
        omega)
      replace hvalue : next.toNat = i.toNat + 1 := hvalue
      rw [gather, index_of_lt hlt, hnext, List.drop_eq_getElem_cons hlt, ← hvalue]
      show (gather bytes count next >>= fun rest => pure (bytes[i.toNat] :: rest)) = _
      rw [ih (by omega)]
      rfl

/-- A signed word that is not negative keeps its value when it is read as unsigned. -/
theorem toNat_toUInt64 {n : Int64} (h : 0 ≤ n.toInt) : (n.toUInt64.toNat : Int) = n.toInt := by
  have hle : 0 ≤ n := Int64.le_iff_toInt_le.2 h
  rw [Int64.toNat_toUInt64_of_le hle]
  exact Int.toNat_of_nonneg h

/-! ## The lengths of tables -/

/-- The bytes of the jumps of a `tableswitch`, four for each case. -/
def jumpTable (low high : Int32) : Except Fault UInt64 := do
  let span ← subSigned high.toInt64 low.toInt64
  let cases ← addSigned span 1
  mul cases.toUInt64 4

/-- The bytes of the pairs of a `lookupswitch`, eight for each. -/
def pairTable (pairs : Int32) : Except Fault UInt64 :=
  mul pairs.toInt64.toUInt64 8

/-- The bytes between the opcode of a switch and its table. -/
def padding (offset : UInt64) : Except Fault UInt64 := do
  let next ← add offset 1
  let missing ← sub 4 (next % 4)
  return missing % 4

/-- A count of two bytes and rows of up to eight bytes are far from the largest word. -/
theorem rows_exact {count width : UInt64} (hcount : count.toNat < 65536)
    (hwidth : width.toNat ≤ 8) :
    Computes (mul count width) (count.toNat * width.toNat) := by
  apply mul_exact
  calc count.toNat * width.toNat ≤ 65536 * 8 := Nat.mul_le_mul (Nat.le_of_lt hcount) hwidth
    _ < UInt64.size := by decide

theorem jumpTable_exact {low high : Int32} (h : low.toInt ≤ high.toInt) :
    Computes (jumpTable low high) (4 * (high.toInt - low.toInt + 1).toNat) := by
  have hlow := low.le_toInt
  have hhigh := high.toInt_lt
  obtain ⟨span, hspan, hspanValue⟩ := subSigned_exact (a := high.toInt64) (b := low.toInt64) (by
    simp only [fitsSigned, Int32.toInt_toInt64, Bool.and_eq_true, decide_eq_true_eq]
    omega)
  rw [Int32.toInt_toInt64, Int32.toInt_toInt64] at hspanValue
  have hone : (1 : Int64).toInt = 1 := rfl
  obtain ⟨cases, hcases, hcasesValue⟩ := addSigned_exact (a := span) (b := 1) (by
    simp only [fitsSigned, Bool.and_eq_true, decide_eq_true_eq]
    omega)
  have hcount := toNat_toUInt64 (n := cases) (by omega)
  have hfour : (4 : UInt64).toNat = 4 := rfl
  obtain ⟨word, hword, hwordValue⟩ := mul_exact (a := cases.toUInt64) (b := 4) (by
    rw [hfour, UInt64.size]
    omega)
  rw [hfour] at hwordValue
  refine ⟨word, ?_, by omega⟩
  rw [jumpTable, hspan]
  show (addSigned span 1 >>= fun cases => mul cases.toUInt64 4) = .ok word
  rw [hcases]
  exact hword

theorem pairTable_exact {pairs : Int32} (h : 0 ≤ pairs.toInt) :
    Computes (pairTable pairs) (8 * pairs.toInt.toNat) := by
  have hpairs := pairs.toInt_lt
  have hcount := toNat_toUInt64 (n := pairs.toInt64) (by rwa [Int32.toInt_toInt64])
  rw [Int32.toInt_toInt64] at hcount
  have hwidth : (8 : UInt64).toNat = 8 := rfl
  obtain ⟨word, hword, hwordValue⟩ := mul_exact (a := pairs.toInt64.toUInt64) (b := 8) (by
    rw [hwidth, UInt64.size]
    omega)
  rw [hwidth] at hwordValue
  exact ⟨word, hword, by omega⟩

theorem padding_exact {offset : UInt64} (h : offset.toNat + 1 < UInt64.size) :
    Computes (padding offset) (switchPadding offset.toNat) := by
  have hone : (1 : UInt64).toNat = 1 := rfl
  have hfour : (4 : UInt64).toNat = 4 := rfl
  obtain ⟨next, hnext, hnextValue⟩ := add_exact (a := offset) (b := 1) h
  have hmod : (next % 4).toNat = next.toNat % 4 := UInt64.toNat_mod next 4
  obtain ⟨missing, hmissing, hmissingValue⟩ := sub_exact (a := 4) (b := next % 4) (by omega)
  refine ⟨missing % 4, ?_, ?_⟩
  · rw [padding, hnext]
    show (sub 4 (next % 4) >>= fun missing => pure (missing % 4)) = .ok (missing % 4)
    rw [hmissing]
    rfl
  · rw [UInt64.toNat_mod, hmissingValue, hmod, hnextValue, hone, hfour, switchPadding]

end Word

/-- A way to compute a length that gives the number it is meant to be. -/
structure Length (n : Nat) where
  compute : Except Fault UInt64
  exact : Word.Computes compute n

namespace Length

/-- A length that is written in the code. -/
def fixed (n : Nat) (h : n < UInt64.size) : Length n where
  compute := .ok (UInt64.ofNat n)
  exact := ⟨_, rfl, Nat.mod_eq_of_lt h⟩

/-- A length that a word states. -/
def stated {n : Nat} (word : UInt64) (h : word.toNat = n) : Length n where
  compute := .ok word
  exact := ⟨word, rfl, h⟩

/-- The length of a table of rows of one width. -/
def rows {n : Nat} (count width : UInt64) (hcount : count.toNat = n) (hn : n < 65536)
    (hwidth : width.toNat ≤ 8) : Length (n * width.toNat) where
  compute := Word.mul count width
  exact := hcount ▸ Word.rows_exact (hcount ▸ hn) hwidth

def jumps {low high : Int32} (h : low.toInt ≤ high.toInt) :
    Length (4 * (high.toInt - low.toInt + 1).toNat) where
  compute := Word.jumpTable low high
  exact := Word.jumpTable_exact h

def pairs {count : Int32} (h : 0 ≤ count.toInt) : Length (8 * count.toInt.toNat) where
  compute := Word.pairTable count
  exact := Word.pairTable_exact h

def padding {offset : UInt64} (h : offset.toNat + 1 < UInt64.size) :
    Length (switchPadding offset.toNat) where
  compute := Word.padding offset
  exact := Word.padding_exact h

end Length

/-! ## Code units -/

namespace Word

/-- The payload of a byte that continues a group. -/
def payload (byte : UInt8) : UInt16 := (byte &&& 0x3F).toUInt16

/-- The code unit of a group of two bytes, the second given by its payload. -/
def unitOfTwo (first : UInt8) (low : UInt16) : UInt16 :=
  (first &&& 0x1F).toUInt16 <<< 6 ||| low

/-- The code unit of a group of three bytes. -/
def unitOfThree (first : UInt8) (middle low : UInt16) : UInt16 :=
  (first &&& 0x0F).toUInt16 <<< 12 ||| middle <<< 6 ||| low

/-- The payload of a byte if it continues a group. -/
def payload? (byte : UInt8) : Option UInt16 :=
  if byte &&& 0xC0 = 0x80 then some (payload byte) else none

/-- The payload of the byte at a position, if there is one that continues a group. -/
def continuation? (bytes : Bytes) (i : UInt64) : Option UInt16 := bytes[i.toNat]?.bind payload?

/-- The code units from a position on.  A round of the loop takes one group. -/
def unitsFrom (bytes : Bytes) : (rounds : Nat) → (i : UInt64) → Except Fault (Option (List UInt16))
  | 0, _ => .error .overrun
  | rounds + 1, i =>
      if i < UInt64.ofNat bytes.length then do
        let first ← index bytes i
        if first &&& 0x80 = 0 then
          if first = 0 then
            return none
          else
            let next ← add i 1
            return (← unitsFrom bytes rounds next).map (first.toUInt16 :: ·)
        else if first &&& 0xE0 = 0xC0 then
          match continuation? bytes (← add i 1) with
          | none => return none
          | some low =>
              let next ← add i 2
              return (← unitsFrom bytes rounds next).map (unitOfTwo first low :: ·)
        else if first &&& 0xF0 = 0xE0 then
          match continuation? bytes (← add i 1) with
          | none => return none
          | some middle =>
              match continuation? bytes (← add i 2) with
              | none => return none
              | some low =>
                  let next ← add i 3
                  return (← unitsFrom bytes rounds next).map (unitOfThree first middle low :: ·)
        else
          return none
      else
        return some []

theorem masks (byte : UInt8) :
    (byte &&& 0x80 = 0 ↔ byte < 0x80) ∧
    (byte &&& 0xE0 = 0xC0 ↔ (0xC0 ≤ byte && byte ≤ 0xDF) = true) ∧
    (byte &&& 0xF0 = 0xE0 ↔ (0xE0 ≤ byte && byte ≤ 0xEF) = true) ∧
    (byte &&& 0xC0 = 0x80 ↔ Text.isContinuation byte = true) := by
  have hall := forall_byte (p := fun byte => decide
    ((byte &&& 0x80 = 0 ↔ byte < 0x80) ∧
    (byte &&& 0xE0 = 0xC0 ↔ (0xC0 ≤ byte && byte ≤ 0xDF) = true) ∧
    (byte &&& 0xF0 = 0xE0 ↔ (0xE0 ≤ byte && byte ≤ 0xEF) = true) ∧
    (byte &&& 0xC0 = 0x80 ↔ Text.isContinuation byte = true))) (by decide +kernel) byte
  exact of_decide_eq_true hall

theorem toNat_and_low (byte : UInt8) :
    (byte &&& 0x3F).toNat = byte.toNat % 64 ∧ (byte &&& 0x1F).toNat = byte.toNat % 32 ∧
      (byte &&& 0x0F).toNat = byte.toNat % 16 := by
  have hall := forall_byte (p := fun byte => decide
    ((byte &&& 0x3F).toNat = byte.toNat % 64 ∧ (byte &&& 0x1F).toNat = byte.toNat % 32 ∧
      (byte &&& 0x0F).toNat = byte.toNat % 16)) (by decide +kernel) byte
  exact of_decide_eq_true hall

theorem toNat_payload (byte : UInt8) : (payload byte).toNat = byte.toNat % 64 :=
  (toNat_and_low byte).1

/-- A shift that leaves room for the number below it loses nothing. -/
theorem toNat_shiftLeft_or (high low width : UInt16) (hwidth : width.toNat < 16)
    (hhigh : high.toNat * Nat.pow 2 width.toNat < 65536)
    (hlow : low.toNat < Nat.pow 2 width.toNat) :
    (high <<< width ||| low).toNat = high.toNat * Nat.pow 2 width.toNat + low.toNat := by
  have hshift : (high <<< width).toNat = high.toNat <<< width.toNat := by
    rw [UInt16.toNat_shiftLeft, Nat.mod_eq_of_lt hwidth, Nat.shiftLeft_eq]
    exact Nat.mod_eq_of_lt hhigh
  rw [UInt16.toNat_or, hshift, ← Nat.shiftLeft_add_eq_or_of_lt hlow, Nat.shiftLeft_eq]
  rfl

theorem toNat_unitOfTwo (first second : UInt8) :
    (unitOfTwo first (payload second)).toNat = first.toNat % 32 * 64 + second.toNat % 64 := by
  have hfirst : (first &&& 0x1F).toUInt16.toNat = first.toNat % 32 := (toNat_and_low first).2.1
  have hsecond := toNat_payload second
  have hunit := toNat_shiftLeft_or (first &&& 0x1F).toUInt16 (payload second) 6 (by decide)
    (by rw [hfirst]; show _ * 64 < _; omega) (by rw [hsecond]; show _ < 64; omega)
  rw [hfirst, hsecond] at hunit
  exact hunit

theorem toNat_unitOfThree (first second third : UInt8) :
    (unitOfThree first (payload second) (payload third)).toNat =
      first.toNat % 16 * 4096 + second.toNat % 64 * 64 + third.toNat % 64 := by
  have hfirst : (first &&& 0x0F).toUInt16.toNat = first.toNat % 16 := (toNat_and_low first).2.2
  have hsecond := toNat_payload second
  have hthird := toNat_payload third
  have hlow := toNat_shiftLeft_or (payload second) (payload third) 6 (by decide)
    (by rw [hsecond]; show _ * 64 < _; omega) (by rw [hthird]; show _ < 64; omega)
  rw [hsecond, hthird] at hlow
  replace hlow : (payload second <<< 6 ||| payload third).toNat =
    second.toNat % 64 * 64 + third.toNat % 64 := hlow
  have hunit := toNat_shiftLeft_or (first &&& 0x0F).toUInt16
    (payload second <<< 6 ||| payload third) 12 (by decide)
    (by rw [hfirst]; show _ * 4096 < _; omega) (by rw [hlow]; show _ < 4096; omega)
  rw [hfirst, hlow, ← Nat.add_assoc] at hunit
  rw [unitOfThree, UInt16.or_assoc]
  exact hunit

/-- One group at the front, told by masks and put together by shifts. -/
theorem modifiedUnits?_cons (first : UInt8) (rest : Bytes) :
    Text.modifiedUnits? (first :: rest) =
      if first &&& 0x80 = 0 then
        if first = 0 then none else (Text.modifiedUnits? rest).map (first.toUInt16 :: ·)
      else if first &&& 0xE0 = 0xC0 then
        (rest[0]?.bind payload?).bind fun low =>
          (Text.modifiedUnits? (rest.drop 1)).map (unitOfTwo first low :: ·)
      else if first &&& 0xF0 = 0xE0 then
        (rest[0]?.bind payload?).bind fun middle => (rest[1]?.bind payload?).bind fun low =>
          (Text.modifiedUnits? (rest.drop 2)).map (unitOfThree first middle low :: ·)
      else none := by
  obtain ⟨hone, htwo, hthree, -⟩ := masks first
  have hpayload : ∀ byte, payload? byte =
      if Text.isContinuation byte = true then some (payload byte) else none :=
    fun byte => if_congr (masks byte).2.2.2 rfl rfl
  rw [Text.modifiedUnits?.eq_def]
  simp only [if_congr hone rfl rfl, if_congr htwo rfl rfl, if_congr hthree rfl rfl]
  refine if_congr Iff.rfl (if_congr Iff.rfl rfl ?_) (if_congr Iff.rfl ?_ (if_congr Iff.rfl ?_ rfl))
  · rw [UInt16.ofNat_uInt8ToNat]
  · cases rest with
    | nil => rfl
    | cons second rest =>
        have hunit : UInt16.ofNat (first.toNat % 32 * 64 + Text.continuationBits second) =
            unitOfTwo first (payload second) := by
          rw [← UInt16.toNat_inj, toNat_unitOfTwo]
          exact Nat.mod_eq_of_lt (by rw [Text.continuationBits]; omega)
        simp only [List.getElem?_cons_zero, Option.bind_some, hpayload, hunit]
        split <;> rfl
  · match rest with
    | [] => rfl
    | [second] =>
        simp only [List.getElem?_cons_zero, Option.bind_some, hpayload]
        split <;> rfl
    | second :: third :: rest =>
        have hunit : UInt16.ofNat (first.toNat % 16 * 4096 + Text.continuationBits second * 64 +
            Text.continuationBits third) = unitOfThree first (payload second) (payload third) := by
          rw [← UInt16.toNat_inj, toNat_unitOfThree]
          exact Nat.mod_eq_of_lt (by rw [Text.continuationBits, Text.continuationBits]; omega)
        simp only [List.getElem?_cons_zero, List.getElem?_cons_succ, Option.bind_some, hpayload,
          hunit, Bool.and_eq_true]
        by_cases hsecond : Text.isContinuation second = true
        · by_cases hthird : Text.isContinuation third = true
          · simp [hsecond, hthird]
          · simp [hsecond, hthird]
        · simp [hsecond]

/-- The loop on words yields the code units, and never leaves the byte string. -/
theorem unitsFrom_exact {bytes : Bytes} (hbytes : Addressable bytes)
    {rounds : Nat} {i : UInt64} (hrounds : bytes.length - i.toNat < rounds) :
    unitsFrom bytes rounds i = .ok (Text.modifiedUnits? (bytes.drop i.toNat)) := by
  have hlength : (UInt64.ofNat bytes.length).toNat = bytes.length :=
    Nat.mod_eq_of_lt (Nat.lt_trans hbytes (by decide))
  induction rounds generalizing i with
  | zero => omega
  | succ rounds ih =>
      rw [unitsFrom]
      by_cases hi : i < UInt64.ofNat bytes.length
      · have hlt : i.toNat < bytes.length := by
          rwa [UInt64.lt_iff_toNat_lt, hlength] at hi
        -- Stepping over a byte of the group stays in the range of words.
        have hstep : ∀ k : UInt64, 1 ≤ k.toNat → k.toNat ≤ 3 → ∃ next, add i k = .ok next ∧
            next.toNat = i.toNat + k.toNat ∧ bytes.length - next.toNat < rounds := by
          intro k hpos hmax
          obtain ⟨next, hnext, hvalue⟩ := add_exact (a := i) (b := k) (by rw [UInt64.size]; omega)
          exact ⟨next, hnext, hvalue, by omega⟩
        obtain ⟨one, hone, honeValue, honeRounds⟩ := hstep 1 (by decide) (by decide)
        obtain ⟨two, htwo, htwoValue, htwoRounds⟩ := hstep 2 (by decide) (by decide)
        obtain ⟨three, hthree, hthreeValue, hthreeRounds⟩ := hstep 3 (by decide) (by decide)
        have hdrop := List.drop_eq_getElem_cons hlt
        have hindex := index_of_lt hlt
        generalize bytes[i.toNat] = first at hdrop hindex
        rw [if_pos hi, hindex, hdrop, modifiedUnits?_cons]
        replace honeValue : one.toNat = i.toNat + 1 := honeValue
        replace htwoValue : two.toNat = i.toNat + 1 + 1 := htwoValue
        replace hthreeValue : three.toNat = i.toNat + 1 + 2 := hthreeValue
        simp only [bind, pure, Except.bind, Except.pure, hone, htwo, hthree, ih honeRounds,
          ih htwoRounds, ih hthreeRounds, continuation?, honeValue, htwoValue, hthreeValue,
          List.getElem?_drop, List.drop_drop, Nat.add_zero, apply_ite Except.ok]
        -- Both sides look at the same second and third byte.
        cases bytes[i.toNat + 1]?.bind payload? with
        | none => rfl
        | some second => cases bytes[i.toNat + 1 + 1]?.bind payload? <;> rfl
      · have hge : bytes.length ≤ i.toNat := by
          rw [UInt64.lt_iff_toNat_lt, hlength] at hi
          omega
        rw [if_neg hi, List.drop_eq_nil_of_le hge]
        rfl

/-- The text of a text constant.  Plain ASCII takes no loop. -/
def decodeText (encoded : Bytes) : Except Fault (Except DecodeError String) :=
  if encoded.all Text.isPlainAscii then
    return .ok (Text.ofAscii encoded)
  else do
    match ← unitsFrom encoded (encoded.length + 1) 0 with
    | some units => return .ok (String.ofList (Text.ofUtf16 units))
    | none => return .error .invalidText

theorem decodeText_exact {encoded : Bytes} (h : Addressable encoded) :
    decodeText encoded = .ok (Constant.decodeText encoded) := by
  have hunits : unitsFrom encoded (encoded.length + 1) 0 = .ok (Text.modifiedUnits? encoded) :=
    unitsFrom_exact h (i := 0) (Nat.lt_succ_of_le (Nat.sub_le _ _))
  rw [decodeText, Constant.decodeText, Text.ofModifiedUtf8?, hunits]
  split
  · rfl
  · rw [Text.ofGroups?]
    cases Text.modifiedUnits? encoded <;> rfl

end Word
end ClassFile
end Classpath
