import Classpath.Proofs.ClassFile.Reads

/-!
# Constants and their bytes

A constant is written as a tag and its content.  A list of written constants
fills the numbers of a pool one after the other, and reading the bytes of the
list gives that pool.
-/

namespace Classpath
namespace ClassFile

/-- The bytes that write a constant.  A text may be written in any way that
decodes to it. -/
inductive Spelling : Constant → Bytes → Prop
  | utf8 {encoded : Bytes} {text : String} (hlength : encoded.length < 65536)
      (htext : Text.ofModifiedUtf8? encoded = some text) :
      Spelling (.utf8 text) (1 :: (u2Bytes encoded.length ++ encoded))
  | integer (value : Int32) : Spelling (.integer value) (3 :: u4Bytes value.toUInt32.toNat)
  | float (bits : UInt32) : Spelling (.float bits) (4 :: u4Bytes bits.toNat)
  | long (value : Int64) :
      Spelling (.long value) (5 :: bigEndianBytes 8 value.toUInt64.toNat)
  | double (bits : UInt64) : Spelling (.double bits) (6 :: bigEndianBytes 8 bits.toNat)
  | classInfo (name : UInt16) : Spelling (.classInfo name) (7 :: indexBytes name)
  | string (text : UInt16) : Spelling (.string text) (8 :: indexBytes text)
  | fieldRef (owner nameAndType : UInt16) :
      Spelling (.fieldRef owner nameAndType) (9 :: (indexBytes owner ++ indexBytes nameAndType))
  | methodRef (owner nameAndType : UInt16) :
      Spelling (.methodRef owner nameAndType) (10 :: (indexBytes owner ++ indexBytes nameAndType))
  | interfaceMethodRef (owner nameAndType : UInt16) :
      Spelling (.interfaceMethodRef owner nameAndType)
        (11 :: (indexBytes owner ++ indexBytes nameAndType))
  | nameAndType (name descriptor : UInt16) :
      Spelling (.nameAndType name descriptor) (12 :: (indexBytes name ++ indexBytes descriptor))
  | methodHandle (kind : UInt8) (reference : UInt16) :
      Spelling (.methodHandle kind reference) (15 :: kind :: indexBytes reference)
  | methodType (descriptor : UInt16) : Spelling (.methodType descriptor) (16 :: indexBytes descriptor)
  | dynamic (bootstrap nameAndType : UInt16) :
      Spelling (.dynamic bootstrap nameAndType)
        (17 :: (indexBytes bootstrap ++ indexBytes nameAndType))
  | invokeDynamic (bootstrap nameAndType : UInt16) :
      Spelling (.invokeDynamic bootstrap nameAndType)
        (18 :: (indexBytes bootstrap ++ indexBytes nameAndType))
  | moduleInfo (name : UInt16) : Spelling (.moduleInfo name) (19 :: indexBytes name)
  | packageInfo (name : UInt16) : Spelling (.packageInfo name) (20 :: indexBytes name)

namespace Constant

theorem reads_utf8 {encoded : Bytes} {text : String} (hlength : encoded.length < 65536)
    (htext : Text.ofModifiedUtf8? encoded = some text) :
    Reads readUtf8 (u2Bytes encoded.length ++ encoded) (utf8 text) := by
  have hcount : (UInt16.ofNat encoded.length).toNat = encoded.length := Nat.mod_eq_of_lt hlength
  refine (Reads.u2 encoded.length).bind ?_
  rw [hcount]
  refine ((Reads.bytes encoded).bind ?_).of_eq (List.append_nil encoded)
  exact (Reads.ofExcept (by rw [decodeText, htext])).map utf8

theorem reads_pair (build : UInt16 → UInt16 → Constant) (first second : UInt16) :
    Reads (readPair build) (indexBytes first ++ indexBytes second) (build first second) :=
  (Reads.index first).bind ((Reads.index second).map (build first))

end Constant

/-- A written constant is read back. -/
theorem Spelling.reads {constant : Constant} {bytes : Bytes} (h : Spelling constant bytes) :
    Reads Constant.read bytes constant := by
  -- Each tag selects the reader of its own content.
  cases h with
  | utf8 hlength htext => exact (Reads.u1 1).bind (Constant.reads_utf8 hlength htext)
  | integer value =>
      have h := (Reads.u4 value.toUInt32.toNat).map fun n => Constant.integer n.toInt32
      rw [UInt32.ofNat_toNat] at h
      exact (Reads.u1 3).bind h
  | float bits =>
      have h := (Reads.u4 bits.toNat).map Constant.float
      rw [UInt32.ofNat_toNat] at h
      exact (Reads.u1 4).bind h
  | long value =>
      have h := (Reads.u8 value.toUInt64.toNat).map fun n => Constant.long n.toInt64
      rw [UInt64.ofNat_toNat] at h
      exact (Reads.u1 5).bind h
  | double bits =>
      have h := (Reads.u8 bits.toNat).map Constant.double
      rw [UInt64.ofNat_toNat] at h
      exact (Reads.u1 6).bind h
  | classInfo name => exact (Reads.u1 7).bind ((Reads.index name).map Constant.classInfo)
  | string text => exact (Reads.u1 8).bind ((Reads.index text).map Constant.string)
  | fieldRef owner nameAndType =>
      exact (Reads.u1 9).bind (Constant.reads_pair .fieldRef owner nameAndType)
  | methodRef owner nameAndType =>
      exact (Reads.u1 10).bind (Constant.reads_pair .methodRef owner nameAndType)
  | interfaceMethodRef owner nameAndType =>
      exact (Reads.u1 11).bind (Constant.reads_pair .interfaceMethodRef owner nameAndType)
  | nameAndType name descriptor =>
      exact (Reads.u1 12).bind (Constant.reads_pair .nameAndType name descriptor)
  | methodHandle kind reference =>
      refine (Reads.u1 15).bind ?_
      exact (Reads.u1 kind).bind ((Reads.index reference).map (Constant.methodHandle kind))
  | methodType descriptor =>
      exact (Reads.u1 16).bind ((Reads.index descriptor).map Constant.methodType)
  | dynamic bootstrap nameAndType =>
      exact (Reads.u1 17).bind (Constant.reads_pair .dynamic bootstrap nameAndType)
  | invokeDynamic bootstrap nameAndType =>
      exact (Reads.u1 18).bind (Constant.reads_pair .invokeDynamic bootstrap nameAndType)
  | moduleInfo name => exact (Reads.u1 19).bind ((Reads.index name).map Constant.moduleInfo)
  | packageInfo name => exact (Reads.u1 20).bind ((Reads.index name).map Constant.packageInfo)

/-- A constant with the bytes that write it. -/
structure PoolEntry where
  constant : Constant
  bytes : Bytes
  spelling : Spelling constant bytes

/-- The numbers that an entry fills: a wide constant leaves the second unusable. -/
def PoolEntry.slots (entry : PoolEntry) : List (Option Constant) :=
  if entry.constant.isWide then [some entry.constant, none] else [some entry.constant]

namespace ConstantPool

/-- The numbers that a list of entries fills, from one on. -/
def slotsOf (entries : List PoolEntry) : List (Option Constant) :=
  entries.flatMap PoolEntry.slots

/-- The pool that holds the entries in order. -/
def ofEntries (entries : List PoolEntry) : ConstantPool := ⟨none :: slotsOf entries⟩

/-- The bytes of a pool: one more than its highest number, then its constants. -/
def entryBytes (entries : List PoolEntry) : Bytes :=
  u2Bytes ((slotsOf entries).length + 1) ++ (entries.map (·.bytes)).flatten

theorem reads_slots (entries : List PoolEntry) :
    Reads (readSlots (slotsOf entries).length) (entries.map (·.bytes)).flatten
      (slotsOf entries) := by
  induction entries with
  | nil => exact .pure []
  | cons entry rest ih =>
      have hread := entry.spelling.reads
      rw [List.map_cons, List.flatten_cons, slotsOf, List.flatMap_cons, PoolEntry.slots]
      by_cases hwide : entry.constant.isWide
      · rw [if_pos hwide]
        refine hread.bind ?_
        rw [if_pos hwide]
        exact ih.map fun slots => some entry.constant :: none :: slots
      · rw [if_neg hwide]
        cases hrest : slotsOf rest with
        | nil =>
            -- No entry is left, because each fills at least one number.
            cases rest with
            | nil =>
                refine hread.bind ?_
                rw [if_neg hwide]
                exact .pure [some entry.constant]
            | cons next more =>
                rw [slotsOf, List.flatMap_cons, List.append_eq_nil_iff, PoolEntry.slots] at hrest
                split at hrest
                · simp at hrest
                · simp at hrest
        | cons slot slots =>
            rw [hrest] at ih
            have hslots : rest.flatMap PoolEntry.slots = slot :: slots := hrest
            rw [hslots]
            refine hread.bind ?_
            rw [if_neg hwide]
            exact ih.map fun slots => some entry.constant :: slots

/-- The bytes of a pool are read back as the pool. -/
theorem reads_ofEntries {entries : List PoolEntry}
    (hlength : (slotsOf entries).length + 1 < 65536) :
    Reads read (entryBytes entries) (ofEntries entries) := by
  have hcount : (UInt16.ofNat ((slotsOf entries).length + 1)).toNat - 1 =
      (slotsOf entries).length := by
    have : (UInt16.ofNat ((slotsOf entries).length + 1)).toNat = (slotsOf entries).length + 1 :=
      Nat.mod_eq_of_lt hlength
    omega
  refine (Reads.u2 ((slotsOf entries).length + 1)).bind ?_
  rw [hcount]
  exact (reads_slots entries).map fun slots => ConstantPool.mk (none :: slots)

/-! ## Looking constants up -/

/-- The number refers to the constant. -/
def Holds (pool : ConstantPool) (index : UInt16) (constant : Constant) : Prop :=
  pool.slots[index.toNat]? = some (some constant)

variable {pool : ConstantPool} {index : UInt16}

theorem get_of_holds {constant : Constant} (h : pool.Holds index constant) :
    pool.get index = .ok constant := by
  unfold get
  rw [h]

theorem text_of_holds {text : String} (h : pool.Holds index (.utf8 text)) :
    pool.text index = .ok text := by
  unfold ConstantPool.text
  rw [get_of_holds h]
  rfl

theorem className_of_holds {name : UInt16} {text : String}
    (h : pool.Holds index (.classInfo name)) (hname : pool.Holds name (.utf8 text)) :
    pool.className index = .ok text := by
  unfold ConstantPool.className
  rw [get_of_holds h]
  exact text_of_holds hname

end ConstantPool

/-- The constant is a field or method of the class with a number. -/
inductive IsMemberOf (owner : UInt16) : Constant → Prop
  | fieldRef (nameAndType : UInt16) : IsMemberOf owner (.fieldRef owner nameAndType)
  | methodRef (nameAndType : UInt16) : IsMemberOf owner (.methodRef owner nameAndType)
  | interfaceMethodRef (nameAndType : UInt16) :
      IsMemberOf owner (.interfaceMethodRef owner nameAndType)

theorem ConstantPool.memberOwner_of_holds {pool : ConstantPool} {index owner name : UInt16}
    {constant : Constant} {text : String} (h : pool.Holds index constant)
    (hmember : IsMemberOf owner constant) (howner : pool.Holds owner (.classInfo name))
    (hname : pool.Holds name (.utf8 text)) : pool.memberOwner index = .ok text := by
  unfold ConstantPool.memberOwner
  rw [get_of_holds h]
  cases hmember with
  | fieldRef _ => exact className_of_holds howner hname
  | methodRef _ => exact className_of_holds howner hname
  | interfaceMethodRef _ => exact className_of_holds howner hname

namespace Reads

variable {pool : ConstantPool} {index : UInt16} {value : String}

theorem text (h : pool.text index = .ok value) :
    Reads (Reader.text pool) (indexBytes index) value :=
  ((Reads.index index).bind (.ofExcept h)).of_eq (List.append_nil _)

theorem className (h : pool.className index = .ok value) :
    Reads (Reader.className pool) (indexBytes index) value :=
  ((Reads.index index).bind (.ofExcept h)).of_eq (List.append_nil _)

theorem memberOwner (h : pool.memberOwner index = .ok value) :
    Reads (Reader.memberOwner pool) (indexBytes index) value :=
  ((Reads.index index).bind (.ofExcept h)).of_eq (List.append_nil _)

end Reads

/-! ## References into a pool -/

/-- The number of a text. -/
structure TextRef (pool : ConstantPool) where
  index : UInt16
  text : String
  holds : pool.Holds index (.utf8 text)

/-- The number of a class, named by a text. -/
structure ClassRef (pool : ConstantPool) where
  index : UInt16
  name : TextRef pool
  holds : pool.Holds index (.classInfo name.index)

/-- The number of a field or method of a class. -/
structure MemberRef (pool : ConstantPool) where
  index : UInt16
  owner : ClassRef pool
  constant : Constant
  isMember : IsMemberOf owner.index constant
  holds : pool.Holds index constant

section References

variable {pool : ConstantPool}

theorem TextRef.reads (ref : TextRef pool) :
    Reads (Reader.text pool) (indexBytes ref.index) ref.text :=
  .text (ConstantPool.text_of_holds ref.holds)

theorem ClassRef.reads (ref : ClassRef pool) :
    Reads (Reader.className pool) (indexBytes ref.index) ref.name.text :=
  .className (ConstantPool.className_of_holds ref.holds ref.name.holds)

theorem MemberRef.reads (ref : MemberRef pool) :
    Reads (Reader.memberOwner pool) (indexBytes ref.index) ref.owner.name.text :=
  .memberOwner
    (ConstantPool.memberOwner_of_holds ref.holds ref.isMember ref.owner.holds ref.owner.name.holds)

end References
end ClassFile
end Classpath
