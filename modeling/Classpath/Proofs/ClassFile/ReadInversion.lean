import Classpath.Proofs.ClassFile.PoolEntries
import Mathlib.Data.List.Induction

/-!
# What a successful read says about its input

A reader that succeeds has taken bytes off the front of its input, and the value it
yields tells which.  This goes the other way from the bytes to the value: a number was
read from its own bytes, a name from the number of a constant that the pool holds.
-/

namespace Classpath

/-- A byte string is the only way to write the number that it spells in its width. -/
theorem bigEndianBytes_bigEndian (bytes : Bytes) :
    bigEndianBytes bytes.length (bigEndian bytes) = bytes := by
  induction bytes using List.reverseRecOn with
  | nil => rfl
  | append_singleton bytes byte ih =>
      have hbyte := byte.toNat_lt
      have hquotient : (bigEndian bytes * 256 + byte.toNat) / 256 = bigEndian bytes := by omega
      have hlast : UInt8.ofNat (bigEndian bytes * 256 + byte.toNat) = byte := by
        apply UInt8.toNat_inj.1
        rw [UInt8.toNat_ofNat']
        omega
      rw [List.length_append, List.length_singleton, bigEndianBytes, bigEndian_append_singleton,
        hquotient, hlast, ih]

theorem bigEndian_lt (bytes : Bytes) : bigEndian bytes < Nat.pow 256 bytes.length := by
  have hmod := bigEndian_bigEndianBytes bytes.length (bigEndian bytes)
  rw [bigEndianBytes_bigEndian] at hmod
  rw [hmod]
  exact Nat.mod_lt _ (Nat.pow_pos (by decide))

namespace ClassFile

section Inversion

variable {α β : Type} {input rest : Bytes}

/-! ## Readers built from others -/

theorem bind_eq_ok_iff {first : Reader α} {next : α → Reader β} {value : β} :
    (first >>= next) input = .ok value rest ↔
      ∃ middle left, first input = .ok middle left ∧ next middle left = .ok value rest := by
  show EStateM.bind first next input = _ ↔ _
  unfold EStateM.bind
  cases first input with
  | ok middle left => simp
  | error error left => simp

theorem pure_eq_ok_iff {value found : α} :
    (Pure.pure value : Reader α) input = .ok found rest ↔ value = found ∧ input = rest := by
  show EStateM.Result.ok value input = .ok found rest ↔ _
  simp

theorem throw_ne_ok {error : DecodeError} {value : α} :
    (throw error : Reader α) input ≠ .ok value rest := by
  intro h
  have hrun : EStateM.Result.error error input = .ok value rest := h
  simp at hrun

theorem ofExcept_eq_ok_iff {result : Except DecodeError α} {value : α} :
    Reader.ofExcept result input = .ok value rest ↔ result = .ok value ∧ input = rest := by
  cases result with
  | ok found =>
      rw [Except.ok.injEq]
      exact pure_eq_ok_iff
  | error error =>
      show EStateM.Result.error error input = .ok value rest ↔ _
      simp

/-! ## Bytes and numbers -/

theorem bytes_eq_ok_iff {n : Nat} {taken : Bytes} :
    Reader.bytes n input = .ok taken rest ↔ input = taken ++ rest ∧ taken.length = n := by
  constructor
  · intro h
    unfold Reader.bytes at h
    split at h
    · next hsplit =>
        obtain ⟨rfl, rfl⟩ := EStateM.Result.ok.inj h
        exact splitBytes?_eq_some hsplit
    · simp at h
  · rintro ⟨rfl, rfl⟩
    exact Reads.bytes taken rest

theorem skip_eq_ok_iff {n : Nat} :
    Reader.skip n input = .ok () rest ↔ ∃ taken, input = taken ++ rest ∧ taken.length = n := by
  rw [Reader.skip, bind_eq_ok_iff]
  simp [pure_eq_ok_iff, bytes_eq_ok_iff]

theorem u1_eq_ok_iff {byte : UInt8} : Reader.u1 input = .ok byte rest ↔ input = byte :: rest := by
  cases input with
  | nil => simp [Reader.u1]
  | cons first left => simp [Reader.u1]

theorem u2_eq_ok_iff {index : UInt16} :
    Reader.u2 input = .ok index rest ↔ input = indexBytes index ++ rest := by
  constructor
  · intro h
    obtain ⟨taken, left, htaken, hvalue⟩ := bind_eq_ok_iff.1 h
    obtain ⟨rfl, hlength⟩ := bytes_eq_ok_iff.1 htaken
    obtain ⟨rfl, rfl⟩ := pure_eq_ok_iff.1 hvalue
    have hsmall : bigEndian taken < 65536 := by
      simpa [hlength] using bigEndian_lt taken
    have hnumber : (UInt16.ofNat (bigEndian taken)).toNat = bigEndian taken :=
      Nat.mod_eq_of_lt hsmall
    rw [indexBytes, hnumber, u2Bytes, ← hlength, bigEndianBytes_bigEndian]
  · rintro rfl
    exact Reads.index index rest

theorem u4_eq_ok_iff {number : UInt32} :
    Reader.u4 input = .ok number rest ↔ input = u4Bytes number.toNat ++ rest := by
  constructor
  · intro h
    obtain ⟨taken, left, htaken, hvalue⟩ := bind_eq_ok_iff.1 h
    obtain ⟨rfl, hlength⟩ := bytes_eq_ok_iff.1 htaken
    obtain ⟨rfl, rfl⟩ := pure_eq_ok_iff.1 hvalue
    have hsmall : bigEndian taken < 4294967296 := by
      simpa [hlength] using bigEndian_lt taken
    have hnumber : (UInt32.ofNat (bigEndian taken)).toNat = bigEndian taken :=
      Nat.mod_eq_of_lt hsmall
    rw [hnumber, u4Bytes, ← hlength, bigEndianBytes_bigEndian]
  · rintro rfl
    have hread := Reads.u4 number.toNat
    rw [UInt32.ofNat_toNat] at hread
    exact hread rest

/-- A signed number was read from its two's complement. -/
theorem i4_eq_ok_iff {value : Int} :
    Reader.i4 input = .ok value rest ↔
      ∃ number : Int32, value = number.toInt ∧ input = u4Bytes number.toUInt32.toNat ++ rest := by
  constructor
  · intro h
    obtain ⟨word, left, hword, hvalue⟩ := bind_eq_ok_iff.1 h
    obtain ⟨rfl, rfl⟩ := pure_eq_ok_iff.1 hvalue
    refine ⟨word.toInt32, rfl, ?_⟩
    rw [UInt32.toUInt32_toInt32]
    exact u4_eq_ok_iff.1 hword
  · rintro ⟨number, rfl, rfl⟩
    exact Reads.i4 number rest

end Inversion

/-! ## Names from a pool -/

section Names

variable {pool : ConstantPool} {input rest : Bytes}

theorem ConstantPool.holds_of_get {index : UInt16} {constant : Constant}
    (h : pool.get index = .ok constant) : pool.Holds index constant := by
  unfold ConstantPool.get at h
  split at h
  · next found hslot =>
      obtain rfl := Except.ok.inj h
      exact hslot
  · simp at h

/-- A text can only be got from the number of a text. -/
theorem exists_textRef {index : UInt16} {text : String} (h : pool.text index = .ok text) :
    ∃ ref : TextRef pool, ref.index = index ∧ ref.text = text := by
  cases hget : pool.get index with
  | error error => simp [ConstantPool.text, hget, Bind.bind, Except.bind] at h
  | ok constant =>
      cases constant <;> simp [ConstantPool.text, hget, Bind.bind, Except.bind] at h
      exact ⟨⟨index, _, ConstantPool.holds_of_get hget⟩, rfl, h⟩

theorem exists_classRef {index : UInt16} {name : String} (h : pool.className index = .ok name) :
    ∃ ref : ClassRef pool, ref.index = index ∧ ref.name.text = name := by
  cases hget : pool.get index with
  | error error => simp [ConstantPool.className, hget, Bind.bind, Except.bind] at h
  | ok constant =>
      cases constant <;> simp [ConstantPool.className, hget, Bind.bind, Except.bind] at h
      obtain ⟨text, rfl, rfl⟩ := exists_textRef h
      exact ⟨⟨index, text, ConstantPool.holds_of_get hget⟩, rfl, rfl⟩

theorem exists_memberRef {index : UInt16} {owner : String}
    (h : pool.memberOwner index = .ok owner) :
    ∃ ref : MemberRef pool, ref.index = index ∧ ref.owner.name.text = owner := by
  cases hget : pool.get index with
  | error error => simp [ConstantPool.memberOwner, hget, Bind.bind, Except.bind] at h
  | ok constant =>
      cases constant <;> simp [ConstantPool.memberOwner, hget, Bind.bind, Except.bind] at h
      -- Fields, methods and interface methods are left, and each names its owner alike.
      all_goals
        obtain ⟨ref, rfl, rfl⟩ := exists_classRef h
        exact ⟨⟨index, ref, _, by constructor, ConstantPool.holds_of_get hget⟩, rfl, rfl⟩

theorem exists_classRef_of_read {name : String}
    (h : Reader.className pool input = .ok name rest) :
    ∃ ref : ClassRef pool, input = indexBytes ref.index ++ rest ∧ ref.name.text = name := by
  obtain ⟨index, left, hindex, hlookup⟩ := bind_eq_ok_iff.1 h
  obtain ⟨hname, rfl⟩ := ofExcept_eq_ok_iff.1 hlookup
  obtain ⟨ref, rfl, rfl⟩ := exists_classRef hname
  exact ⟨ref, u2_eq_ok_iff.1 hindex, rfl⟩

theorem exists_memberRef_of_read {owner : String}
    (h : Reader.memberOwner pool input = .ok owner rest) :
    ∃ ref : MemberRef pool, input = indexBytes ref.index ++ rest ∧ ref.owner.name.text = owner := by
  obtain ⟨index, left, hindex, hlookup⟩ := bind_eq_ok_iff.1 h
  obtain ⟨howner, rfl⟩ := ofExcept_eq_ok_iff.1 hlookup
  obtain ⟨ref, rfl, rfl⟩ := exists_memberRef howner
  exact ⟨ref, u2_eq_ok_iff.1 hindex, rfl⟩

end Names
end ClassFile
end Classpath
