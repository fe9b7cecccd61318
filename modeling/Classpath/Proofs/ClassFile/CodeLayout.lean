import Classpath.Proofs.ClassFile.PoolEntries

/-!
# Instructions and their bytes

A method body is a sequence of legal instructions, each an opcode with the
operands that the opcode asks for at its offset.  Reading such a sequence gives
the instructions one by one.
-/

namespace Classpath
namespace ClassFile

/-- The opcodes with operands of a fixed length that name no class of interest, as
ranges, by the number of operand bytes. -/
def opcodesWith : (length : Nat) → List (Nat × Nat)
  | 0 =>
      -- Constants, loads, stores with arithmetic, conversions with comparisons, returns,
      -- arrays with exceptions, monitors, and the reserved opcodes.
      [(0x00, 0x0f), (0x1a, 0x35), (0x3b, 0x83), (0x85, 0x98), (0xac, 0xb1), (0xbe, 0xbf),
        (0xc2, 0xc3), (0xca, 0xca), (0xfe, 0xff)]
  | 1 =>
      -- A byte, a constant, a local variable, or the type of an array.
      [(0x10, 0x10), (0x12, 0x12), (0x15, 0x19), (0x36, 0x3a), (0xa9, 0xa9), (0xbc, 0xbc)]
  | 2 =>
      -- A short, a wide constant, an increment, a jump, or a member of an object.
      [(0x11, 0x11), (0x13, 0x14), (0x84, 0x84), (0x99, 0xa8), (0xb4, 0xb6), (0xc6, 0xc7)]
  | 4 =>
      -- Calls with two more bytes, and wide jumps.
      [(0xb9, 0xba), (0xc8, 0xc9)]
  | _ => []

def hasOperands (opcode : UInt8) (length : Nat) : Bool :=
  (opcodesWith length).any fun range => range.1 ≤ opcode.toNat && opcode.toNat ≤ range.2

/-- The bytes after the opcode of a switch up to the next multiple of four. -/
def IsPadding (offset : Nat) (padding : Bytes) : Prop :=
  padding.length < 4 ∧ 4 ∣ offset + 1 + padding.length

/-- The operands of an opcode at an offset, and the instruction they make. -/
inductive Operands (pool : ConstantPool) (offset : Nat) : UInt8 → Bytes → Instruction → Prop
  | type (op : TypeOp) (operand : ClassRef pool) {dimensions : Bytes}
      (hdimensions : dimensions.length = if op = .multianewarray then 1 else 0) :
      Operands pool offset op.opcode (indexBytes operand.index ++ dimensions)
        (.type op operand.name.text)
  | invoke (op : InvokeOp) (method : MemberRef pool) :
      Operands pool offset op.opcode (indexBytes method.index) (.invoke op method.owner.name.text)
  | field (op : FieldOp) (field : MemberRef pool) :
      Operands pool offset op.opcode (indexBytes field.index) (.field op field.owner.name.text)
  | tableSwitch {padding otherwise jumps : Bytes} {low high : Int32}
      (hpadding : IsPadding offset padding) (hotherwise : otherwise.length = 4)
      (hrange : low.toInt ≤ high.toInt)
      (hjumps : jumps.length = 4 * (high.toInt - low.toInt + 1).toNat) :
      Operands pool offset tableSwitch
        (padding ++ (otherwise ++ (u4Bytes low.toUInt32.toNat ++
          (u4Bytes high.toUInt32.toNat ++ jumps))))
        (.plain tableSwitch)
  | lookupSwitch {padding otherwise pairs : Bytes} {count : Int32}
      (hpadding : IsPadding offset padding) (hotherwise : otherwise.length = 4)
      (hcount : 0 ≤ count.toInt) (hpairs : pairs.length = 8 * count.toInt.toNat) :
      Operands pool offset lookupSwitch
        (padding ++ (otherwise ++ (u4Bytes count.toUInt32.toNat ++ pairs)))
        (.plain lookupSwitch)
  | wide (widened : UInt8) {operands : Bytes}
      (hoperands : operands.length = if widened = increment then 4 else 2) :
      Operands pool offset wide (widened :: operands) (.plain wide)
  | plain {opcode : UInt8} {operands : Bytes}
      (hoperands : hasOperands opcode operands.length = true) :
      Operands pool offset opcode operands (.plain opcode)

/-- The bytes from an offset on are a sequence of legal instructions. -/
inductive Spells (pool : ConstantPool) : (offset : Nat) → Bytes → List Instruction → Prop
  | nil (offset : Nat) : Spells pool offset [] []
  | cons {offset : Nat} {opcode : UInt8} {operands rest : Bytes} {instruction : Instruction}
      {more : List Instruction} (hfirst : Operands pool offset opcode operands instruction)
      (hrest : Spells pool (offset + 1 + operands.length) rest more) :
      Spells pool offset (opcode :: (operands ++ rest)) (instruction :: more)

section Operands

variable {pool : ConstantPool} {offset : Nat}

/-- The lengths of the ranges are those that decoding goes by. -/
theorem operandLength?_of_hasOperands {opcode : UInt8} {length : Nat}
    (h : hasOperands opcode length = true) : operandLength? opcode = some length := by
  -- No opcode has more than four bytes, so there are finitely many cases.
  have hlength : length < 5 := by
    refine Nat.lt_of_not_le fun hlong => ?_
    have hnone : opcodesWith length = [] := by
      obtain ⟨more, rfl⟩ := Nat.exists_eq_add_of_le hlong
      rw [Nat.add_comm]
      rfl
    rw [hasOperands, hnone] at h
    cases h
  have hall : ∀ length < 5, ∀ code < 256, hasOperands (UInt8.ofNat code) length = true →
      operandLength? (UInt8.ofNat code) = some length := by decide +kernel
  have hopcode := hall length hlength opcode.toNat opcode.toNat_lt
  rw [UInt8.ofNat_toNat] at hopcode
  exact hopcode h

theorem IsPadding.length_eq {padding : Bytes} (h : IsPadding offset padding) :
    padding.length = switchPadding offset := by
  obtain ⟨hshort, haligned⟩ := h
  unfold switchPadding
  omega

/-- Opcodes with operands of fixed length name no class. -/
theorem readOperands_of_length {opcode : UInt8} {length : Nat}
    (h : operandLength? opcode = some length) :
    readOperands pool offset opcode = (do
      Reader.skip length
      return .plain opcode) := by
  -- Every other opcode is ruled out because it has no fixed length.
  have hne : ∀ other, operandLength? other = none → opcode ≠ other := by
    rintro other hother rfl
    rw [hother] at h
    cases h
  have htype : typeOp? opcode = none := by
    simp only [typeOp?, hne 0xbb rfl, hne 0xbd rfl, hne 0xc0 rfl, hne 0xc1 rfl, hne 0xc5 rfl,
      if_false]
  have hinvoke : invokeOp? opcode = none := by
    simp only [invokeOp?, hne 0xb7 rfl, hne 0xb8 rfl, if_false]
  have hfield : fieldOp? opcode = none := by
    simp only [fieldOp?, hne 0xb2 rfl, hne 0xb3 rfl, if_false]
  rw [readOperands, htype, hinvoke, hfield]
  simp only [readOperandsOf, skipOperands, hne tableSwitch rfl, hne lookupSwitch rfl, hne wide rfl, h, if_false]

theorem reads_tableSwitch {padding otherwise jumps : Bytes} {low high : Int32}
    (hpadding : IsPadding offset padding) (hotherwise : otherwise.length = 4)
    (hrange : low.toInt ≤ high.toInt)
    (hjumps : jumps.length = 4 * (high.toInt - low.toInt + 1).toNat) :
    Reads (skipTableSwitch offset)
      (padding ++ (otherwise ++ (u4Bytes low.toUInt32.toNat ++
        (u4Bytes high.toUInt32.toNat ++ jumps)))) () := by
  refine (Reads.skip hpadding.length_eq).bind ((Reads.skip hotherwise).bind ?_)
  refine (Reads.i4 low).bind ((Reads.i4 high).bind ?_)
  rw [if_neg (Int.not_lt.2 hrange)]
  exact .skip hjumps

theorem reads_lookupSwitch {padding otherwise pairs : Bytes} {count : Int32}
    (hpadding : IsPadding offset padding) (hotherwise : otherwise.length = 4)
    (hcount : 0 ≤ count.toInt) (hpairs : pairs.length = 8 * count.toInt.toNat) :
    Reads (skipLookupSwitch offset)
      (padding ++ (otherwise ++ (u4Bytes count.toUInt32.toNat ++ pairs))) () := by
  refine (Reads.skip hpadding.length_eq).bind ((Reads.skip hotherwise).bind ?_)
  refine (Reads.i4 count).bind ?_
  rw [if_neg (Int.not_lt.2 hcount)]
  exact .skip hpairs

theorem reads_dimensions (op : TypeOp) {dimensions : Bytes}
    (h : dimensions.length = if op = .multianewarray then 1 else 0) :
    Reads (skipDimensions op) dimensions () := by
  unfold skipDimensions
  split_ifs at h ⊢
  · obtain ⟨number, rfl⟩ := List.length_eq_one_iff.1 h
    exact (Reads.u1 number).map _
  · obtain rfl := List.length_eq_zero_iff.1 h
    exact .pure ()

theorem Operands.reads {opcode : UInt8} {operands : Bytes} {instruction : Instruction}
    (h : Operands pool offset opcode operands instruction) :
    Reads (readOperands pool offset opcode) operands instruction := by
  cases h with
  | @type op operand dimensions hdimensions =>
      have hread : Reads (do
          skipDimensions op
          return Instruction.type op operand.name.text) dimensions _ :=
        (reads_dimensions op hdimensions).map fun _ => Instruction.type op operand.name.text
      cases op <;> exact operand.reads.bind hread
  | invoke op method =>
      have hread := method.reads.map (Instruction.invoke op)
      cases op <;> exact hread
  | field op field =>
      have hread := field.reads.map (Instruction.field op)
      cases op <;> exact hread
  | tableSwitch hpadding hotherwise hrange hjumps =>
      have hskip := reads_tableSwitch hpadding hotherwise hrange hjumps
      exact hskip.map fun _ => Instruction.plain ClassFile.tableSwitch
  | lookupSwitch hpadding hotherwise hcount hpairs =>
      have hskip := reads_lookupSwitch hpadding hotherwise hcount hpairs
      exact hskip.map fun _ => Instruction.plain ClassFile.lookupSwitch
  | @wide widened operands hoperands =>
      have hskip : Reads (skipOperands offset ClassFile.wide) (widened :: operands) () := by
        refine (Reads.u1 widened).bind ?_
        exact .skip hoperands
      exact hskip.map fun _ => Instruction.plain ClassFile.wide
  | plain hoperands =>
      rw [readOperands_of_length (operandLength?_of_hasOperands hoperands)]
      exact (Reads.skip rfl).map fun _ => Instruction.plain opcode

end Operands

/-- A sequence of legal instructions is decoded one by one. -/
theorem Spells.instructionsFrom {pool : ConstantPool} {offset : Nat} {code : Bytes}
    {instructions : List Instruction} (h : Spells pool offset code instructions) :
    instructionsFrom pool offset code = .ok instructions := by
  induction h with
  | nil offset => rw [ClassFile.instructionsFrom]
  | @cons offset opcode operands rest instruction more hfirst _ ih =>
      have hread := hfirst.reads rest
      have hlength : (operands ++ rest).length - rest.length = operands.length := by
        rw [List.length_append]
        omega
      rw [ClassFile.instructionsFrom]
      split
      · next error left hrun =>
          rw [hread] at hrun
          cases hrun
      · next value left hrun =>
          rw [hread] at hrun
          cases hrun
          rw [hlength, ih]

end ClassFile
end Classpath
