import Classpath.ClassFile.Attribute
import Classpath.ClassFile.Writer
import Mathlib.Data.List.Forall2

/-!
# What a reader makes of given bytes

A reader reads a value from some bytes if it takes exactly these bytes off the
front of every input that starts with them.  Readers built from smaller ones
read the bytes of their parts one after the other.
-/

namespace Classpath
namespace ClassFile

/-- Whatever follows the bytes, the reader takes them and yields the value. -/
def Reads {α : Type} (reader : Reader α) (bytes : Bytes) (value : α) : Prop :=
  ∀ rest, reader (bytes ++ rest) = .ok value rest

/-- Two images of one list are related if the images of each member are. -/
theorem forall₂_map_map {α β γ : Type} {R : β → γ → Prop} {f : α → β} {g : α → γ}
    {items : List α} (h : ∀ x ∈ items, R (f x) (g x)) :
    List.Forall₂ R (items.map f) (items.map g) := by
  rw [List.forall₂_map_left_iff, List.forall₂_map_right_iff]
  exact List.forall₂_same.2 h

namespace Reads

variable {α β : Type}

theorem of_eq {reader : Reader α} {bytes bytes' : Bytes} {value : α}
    (h : Reads reader bytes value) (hbytes : bytes = bytes') : Reads reader bytes' value :=
  hbytes ▸ h

theorem pure (value : α) : Reads (Pure.pure value) [] value := fun _ => rfl

/-- A reader that has read its bytes goes on with what follows them. -/
theorem bind_append {first : Reader α} {bytes : Bytes} {value : α} (h : Reads first bytes value)
    (next : α → Reader β) (tail : Bytes) : (first >>= next) (bytes ++ tail) = next value tail := by
  show EStateM.bind first next _ = _
  rw [EStateM.bind, h]

theorem bind {first : Reader α} {next : α → Reader β} {bytes bytes' : Bytes} {value : α}
    {result : β} (hfirst : Reads first bytes value) (hnext : Reads (next value) bytes' result) :
    Reads (first >>= next) (bytes ++ bytes') result := by
  intro rest
  rw [List.append_assoc, hfirst.bind_append]
  exact hnext rest

/-- A reader that only changes the value it has read. -/
theorem map {reader : Reader α} {bytes : Bytes} {value : α} (h : Reads reader bytes value)
    (f : α → β) : Reads (reader >>= fun value => Pure.pure (f value)) bytes (f value) :=
  (h.bind (pure (f value))).of_eq (List.append_nil bytes)

/-- A step that reads nothing. -/
theorem bind_nil {first : Reader α} {next : α → Reader β} {bytes : Bytes} {value : α}
    {result : β} (hfirst : Reads first [] value) (hnext : Reads (next value) bytes result) :
    Reads (first >>= next) bytes result :=
  hfirst.bind hnext

theorem ofExcept {result : Except DecodeError α} {value : α} (h : result = .ok value) :
    Reads (Reader.ofExcept result) [] value := by
  rw [h]
  exact pure value

/-! ## Bytes and numbers -/

theorem bytes (taken : Bytes) : Reads (Reader.bytes taken.length) taken taken := by
  intro rest
  simp [Reader.bytes, splitBytes?_append]

theorem bytes_of_length {n : Nat} {taken : Bytes} (h : taken.length = n) :
    Reads (Reader.bytes n) taken taken :=
  h ▸ bytes taken

theorem skip {n : Nat} {taken : Bytes} (h : taken.length = n) :
    Reads (Reader.skip n) taken () :=
  (bytes_of_length h).map fun _ => ()

theorem u1 (byte : UInt8) : Reads Reader.u1 [byte] byte := fun _ => rfl

theorem u2 (n : Nat) : Reads Reader.u2 (u2Bytes n) (UInt16.ofNat n) := by
  have hvalue : UInt16.ofNat (bigEndian (u2Bytes n)) = UInt16.ofNat n := by
    rw [u2Bytes, bigEndian_bigEndianBytes]
    exact UInt16.ofNat_mod_size
  rw [← hvalue]
  exact (bytes_of_length (length_bigEndianBytes 2 n)).map _

theorem index (number : UInt16) : Reads Reader.u2 (indexBytes number) number := by
  have h := u2 number.toNat
  rwa [UInt16.ofNat_toNat] at h

theorem u4 (n : Nat) : Reads Reader.u4 (u4Bytes n) (UInt32.ofNat n) := by
  have hvalue : UInt32.ofNat (bigEndian (u4Bytes n)) = UInt32.ofNat n := by
    rw [u4Bytes, bigEndian_bigEndianBytes]
    exact UInt32.ofNat_mod_size
  rw [← hvalue]
  exact (bytes_of_length (length_bigEndianBytes 4 n)).map _

/-- A number is put together from its two halves. -/
theorem halves (n : Nat) :
    (UInt32.ofNat (n / 4294967296)).toUInt64 <<< 32 ||| (UInt32.ofNat n).toUInt64 =
      UInt64.ofNat n := by
  have hlow : n % 4294967296 < Nat.pow 2 32 := Nat.mod_lt n (by decide)
  apply UInt64.toNat_inj.1
  calc ((UInt32.ofNat (n / 4294967296)).toUInt64 <<< 32 ||| (UInt32.ofNat n).toUInt64).toNat
    _ = (n / 4294967296 % 4294967296) <<< 32 % 18446744073709551616 ||| n % 4294967296 := by
        simp
    _ = (n / 4294967296 % 4294967296) <<< 32 ||| n % 4294967296 := by
        rw [Nat.mod_eq_of_lt]
        rw [Nat.shiftLeft_eq]
        omega
    _ = n / 4294967296 % 4294967296 * 4294967296 + n % 4294967296 := by
        rw [← Nat.shiftLeft_add_eq_or_of_lt hlow, Nat.shiftLeft_eq]
    _ = (UInt64.ofNat n).toNat := by
        rw [UInt64.toNat_ofNat']
        omega

theorem u8 (n : Nat) : Reads Reader.u8 (bigEndianBytes 8 n) (UInt64.ofNat n) := by
  rw [bigEndianBytes_add 4 4, ← halves]
  exact (u4 (n / 4294967296)).bind ((u4 n).map _)

/-- A signed number is written as its two's complement. -/
theorem i4 (value : Int32) : Reads Reader.i4 (u4Bytes value.toUInt32.toNat) value.toInt := by
  have h := u4 value.toUInt32.toNat
  rw [UInt32.ofNat_toNat] at h
  exact h.map fun number => number.toInt32.toInt

/-! ## Repetitions -/

theorem times {item : Reader α} {encoded : List Bytes} {values : List α}
    (h : List.Forall₂ (Reads item) encoded values) :
    Reads (Reader.times values.length item) encoded.flatten values := by
  induction h with
  | nil => exact pure []
  | @cons bytes value encoded values hfirst _ ih =>
      rw [List.length_cons, List.flatten_cons, Reader.times]
      exact hfirst.bind (ih.map fun rest => value :: rest)

/-- A list whose length fits in two bytes is read back from its counted form. -/
theorem counted {item : Reader α} {encoded : List Bytes} {values : List α}
    (h : List.Forall₂ (Reads item) encoded values) (hlength : values.length < 65536) :
    Reads (Reader.counted item) (Writer.countedBytes encoded) values := by
  rw [Writer.countedBytes, h.length_eq]
  refine (u2 values.length).bind ?_
  have hcount : (UInt16.ofNat values.length).toNat = values.length :=
    Nat.mod_eq_of_lt hlength
  rw [hcount]
  exact times h

/-- The number of rows, and the bytes of all rows together, of a table whose
rows have one width. -/
theorem table {width : Nat} {rows : List Bytes} (hrows : ∀ row ∈ rows, row.length = width)
    (hlength : rows.length < 65536) :
    ∃ count : UInt16, Reads Reader.u2 (u2Bytes rows.length) count ∧
      Reads (Reader.skip (count.toNat * width)) rows.flatten () := by
  have hsize : rows.flatten.length = rows.length * width := by
    rw [List.length_flatten, List.eq_replicate_of_mem (List.forall_mem_map.2 hrows)]
    simp
  have hcount : (UInt16.ofNat rows.length).toNat = rows.length := Nat.mod_eq_of_lt hlength
  exact ⟨_, u2 rows.length, skip (by rw [hcount, hsize])⟩

/-! ## Whole byte strings -/

theorem onWhole {reader : Reader α} {input : Bytes} {value : α} (h : Reads reader input value)
    (leftOver : Nat → DecodeError) : reader.onWhole leftOver input = .ok value := by
  have hrun := h []
  rw [List.append_nil] at hrun
  simp [Reader.onWhole, hrun]

theorem onContent {reader : Reader α} {content : Bytes} {value : α}
    (h : Reads reader content value) (part : Part) :
    ClassFile.onContent part reader content = .ok value :=
  h.onWhole _

end Reads
end ClassFile
end Classpath
