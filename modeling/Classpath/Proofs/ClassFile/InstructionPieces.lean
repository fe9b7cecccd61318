import Classpath.Proofs.ClassFile.CodeLayout
import Classpath.Proofs.ClassFile.ReadInversion

/-!
# Method bodies cut into instructions

Decoding a body cuts it into pieces, one for each instruction.  The bodies that decode
are exactly those that can be cut into legal pieces, where what is legal depends on the
offset of the piece and on the pool, and there is never more than one way to cut.
-/

namespace Classpath
namespace ClassFile

/-! ## Opcodes -/

/-- Decoding goes by the lengths of the ranges. -/
theorem hasOperands_of_operandLength? {opcode : UInt8} {length : Nat}
    (h : operandLength? opcode = some length) : hasOperands opcode length = true := by
  have hall := forall_byte (p := fun code => (operandLength? code).all (hasOperands code))
    (by decide +kernel) opcode
  simpa [h] using hall

theorem opcode_of_typeOp? {opcode : UInt8} {op : TypeOp} (h : typeOp? opcode = some op) :
    op.opcode = opcode := by
  have hall := forall_byte (p := fun code => (typeOp? code).all (·.opcode == code))
    (by decide +kernel) opcode
  simpa [h] using hall

theorem opcode_of_invokeOp? {opcode : UInt8} {op : InvokeOp} (h : invokeOp? opcode = some op) :
    op.opcode = opcode := by
  have hall := forall_byte (p := fun code => (invokeOp? code).all (·.opcode == code))
    (by decide +kernel) opcode
  simpa [h] using hall

theorem opcode_of_fieldOp? {opcode : UInt8} {op : FieldOp} (h : fieldOp? opcode = some op) :
    op.opcode = opcode := by
  have hall := forall_byte (p := fun code => (fieldOp? code).all (·.opcode == code))
    (by decide +kernel) opcode
  simpa [h] using hall

/-! ## Operands that were read are legal -/

section Operands

variable {pool : ConstantPool} {offset : Nat} {input rest : Bytes}

theorem isPadding_of_length {padding : Bytes} (h : padding.length = switchPadding offset) :
    IsPadding offset padding := by
  unfold switchPadding at h
  exact ⟨by omega, by omega⟩

theorem operands_of_skipTableSwitch (h : skipTableSwitch offset input = .ok () rest) :
    ∃ operands, input = operands ++ rest ∧
      Operands pool offset tableSwitch operands (.plain tableSwitch) := by
  obtain ⟨_, afterPadding, hskipped, hfromDefault⟩ := bind_eq_ok_iff.1 h
  obtain ⟨padding, rfl, hpadding⟩ := skip_eq_ok_iff.1 hskipped
  obtain ⟨_, afterDefault, hdefault, hfromLow⟩ := bind_eq_ok_iff.1 hfromDefault
  obtain ⟨otherwise, rfl, hotherwise⟩ := skip_eq_ok_iff.1 hdefault
  obtain ⟨_, afterLow, hlow, hfromHigh⟩ := bind_eq_ok_iff.1 hfromLow
  obtain ⟨low, rfl, rfl⟩ := i4_eq_ok_iff.1 hlow
  obtain ⟨_, afterHigh, hhigh, hfromJumps⟩ := bind_eq_ok_iff.1 hfromHigh
  obtain ⟨high, rfl, rfl⟩ := i4_eq_ok_iff.1 hhigh
  split at hfromJumps
  · exact absurd hfromJumps throw_ne_ok
  · next hrange =>
      obtain ⟨jumps, rfl, hjumps⟩ := skip_eq_ok_iff.1 hfromJumps
      exact ⟨_, by simp, .tableSwitch (isPadding_of_length hpadding) hotherwise
        (Int.not_lt.1 hrange) hjumps⟩

theorem operands_of_skipLookupSwitch (h : skipLookupSwitch offset input = .ok () rest) :
    ∃ operands, input = operands ++ rest ∧
      Operands pool offset lookupSwitch operands (.plain lookupSwitch) := by
  obtain ⟨_, afterPadding, hskipped, hfromDefault⟩ := bind_eq_ok_iff.1 h
  obtain ⟨padding, rfl, hpadding⟩ := skip_eq_ok_iff.1 hskipped
  obtain ⟨_, afterDefault, hdefault, hfromCount⟩ := bind_eq_ok_iff.1 hfromDefault
  obtain ⟨otherwise, rfl, hotherwise⟩ := skip_eq_ok_iff.1 hdefault
  obtain ⟨_, afterCount, hread, hfromPairs⟩ := bind_eq_ok_iff.1 hfromCount
  obtain ⟨count, rfl, rfl⟩ := i4_eq_ok_iff.1 hread
  split at hfromPairs
  · exact absurd hfromPairs throw_ne_ok
  · next hcount =>
      obtain ⟨pairs, rfl, hpairs⟩ := skip_eq_ok_iff.1 hfromPairs
      exact ⟨_, by simp, .lookupSwitch (isPadding_of_length hpadding) hotherwise
        (Int.not_lt.1 hcount) hpairs⟩

theorem operands_of_skipOperands {opcode : UInt8}
    (h : skipOperands offset opcode input = .ok () rest) :
    ∃ operands, input = operands ++ rest ∧
      Operands pool offset opcode operands (.plain opcode) := by
  unfold skipOperands at h
  split_ifs at h with htable hlookup hwide
  · rw [htable]
    exact operands_of_skipTableSwitch h
  · rw [hlookup]
    exact operands_of_skipLookupSwitch h
  · obtain ⟨widened, afterWidened, hwidened, hskip⟩ := bind_eq_ok_iff.1 h
    obtain rfl := u1_eq_ok_iff.1 hwidened
    obtain ⟨operands, rfl, hlength⟩ := skip_eq_ok_iff.1 hskip
    rw [hwide]
    exact ⟨widened :: operands, rfl, .wide widened hlength⟩
  · cases hlength : operandLength? opcode with
    | none =>
        rw [hlength] at h
        exact absurd h throw_ne_ok
    | some length =>
        rw [hlength] at h
        obtain ⟨operands, rfl, rfl⟩ := skip_eq_ok_iff.1 h
        exact ⟨operands, rfl, .plain (hasOperands_of_operandLength? hlength)⟩

theorem exists_dimensions_of_read {op : TypeOp} (h : skipDimensions op input = .ok () rest) :
    ∃ dimensions, input = dimensions ++ rest ∧
      dimensions.length = if op = .multianewarray then 1 else 0 := by
  unfold skipDimensions at h
  split_ifs at h ⊢
  · obtain ⟨number, afterNumber, hnumber, hend⟩ := bind_eq_ok_iff.1 h
    obtain rfl := u1_eq_ok_iff.1 hnumber
    obtain ⟨-, rfl⟩ := pure_eq_ok_iff.1 hend
    exact ⟨[number], rfl, rfl⟩
  · obtain ⟨-, rfl⟩ := pure_eq_ok_iff.1 h
    exact ⟨[], rfl, rfl⟩

/-- Whatever is read after an opcode are legal operands of it. -/
theorem operands_of_readOperands {opcode : UInt8} {instruction : Instruction}
    (h : readOperands pool offset opcode input = .ok instruction rest) :
    ∃ operands, input = operands ++ rest ∧ Operands pool offset opcode operands instruction := by
  unfold readOperands at h
  cases htype : typeOp? opcode with
  | some op =>
      rw [htype] at h
      obtain ⟨name, afterName, hname, hfromDimensions⟩ := bind_eq_ok_iff.1 h
      obtain ⟨ref, rfl, rfl⟩ := exists_classRef_of_read hname
      obtain ⟨_, _, hdimensions, hvalue⟩ := bind_eq_ok_iff.1 hfromDimensions
      obtain ⟨dimensions, rfl, hlength⟩ := exists_dimensions_of_read hdimensions
      obtain ⟨rfl, rfl⟩ := pure_eq_ok_iff.1 hvalue
      obtain rfl := opcode_of_typeOp? htype
      exact ⟨indexBytes ref.index ++ dimensions, by simp, .type op ref hlength⟩
  | none =>
      cases hinvoke : invokeOp? opcode with
      | some op =>
          rw [htype, hinvoke] at h
          obtain ⟨owner, _, howner, hvalue⟩ := bind_eq_ok_iff.1 h
          obtain ⟨ref, rfl, rfl⟩ := exists_memberRef_of_read howner
          obtain ⟨rfl, rfl⟩ := pure_eq_ok_iff.1 hvalue
          obtain rfl := opcode_of_invokeOp? hinvoke
          exact ⟨indexBytes ref.index, rfl, .invoke op ref⟩
      | none =>
          cases hfield : fieldOp? opcode with
          | some op =>
              rw [htype, hinvoke, hfield] at h
              obtain ⟨owner, _, howner, hvalue⟩ := bind_eq_ok_iff.1 h
              obtain ⟨ref, rfl, rfl⟩ := exists_memberRef_of_read howner
              obtain ⟨rfl, rfl⟩ := pure_eq_ok_iff.1 hvalue
              obtain rfl := opcode_of_fieldOp? hfield
              exact ⟨indexBytes ref.index, rfl, .field op ref⟩
          | none =>
              rw [htype, hinvoke, hfield] at h
              obtain ⟨_, _, hskip, hvalue⟩ := bind_eq_ok_iff.1 h
              obtain ⟨rfl, rfl⟩ := pure_eq_ok_iff.1 hvalue
              exact operands_of_skipOperands hskip

/-- The opcode and what it is followed by decide how far the operands go. -/
theorem Operands.unique {opcode : UInt8} {operands operands' rest' : Bytes}
    {instruction instruction' : Instruction}
    (h : Operands pool offset opcode operands instruction)
    (h' : Operands pool offset opcode operands' instruction')
    (hbytes : operands ++ rest = operands' ++ rest') :
    operands = operands' ∧ instruction = instruction' := by
  have hread := h.reads rest
  rw [hbytes, h'.reads rest'] at hread
  obtain ⟨rfl, rfl⟩ := EStateM.Result.ok.inj hread
  exact ⟨List.append_cancel_right hbytes, rfl⟩

end Operands

/-! ## Pieces -/

/-- The piece, at this offset of a body, is one legal instruction: an opcode with its
operands. -/
def Encodes (pool : ConstantPool) (offset : Nat) (piece : Bytes) (instruction : Instruction) :
    Prop :=
  ∃ opcode operands, piece = opcode :: operands ∧ Operands pool offset opcode operands instruction

/-- The pieces follow one another from an offset on, and each is one of the instructions. -/
inductive CutInto (pool : ConstantPool) : (offset : Nat) → List Bytes → List Instruction → Prop
  | nil (offset : Nat) : CutInto pool offset [] []
  | cons {offset : Nat} {piece : Bytes} {pieces : List Bytes} {instruction : Instruction}
      {more : List Instruction} (hfirst : Encodes pool offset piece instruction)
      (hrest : CutInto pool (offset + piece.length) pieces more) :
      CutInto pool offset (piece :: pieces) (instruction :: more)

/-- The instruction has the first byte of the piece as its opcode, and the class that it
names is the one that the pool gives for the number behind the opcode. -/
def Describes (pool : ConstantPool) (piece : Bytes) (instruction : Instruction) : Prop :=
  piece.head? = some instruction.opcode ∧
    match instruction with
    | .type _ name => ∃ index after, piece.tail = indexBytes index ++ after ∧
        pool.className index = .ok name
    | .invoke _ owner => ∃ index, piece.tail = indexBytes index ∧ pool.memberOwner index = .ok owner
    | .field _ owner => ∃ index, piece.tail = indexBytes index ∧ pool.memberOwner index = .ok owner
    | .plain _ => True

section Pieces

variable {pool : ConstantPool} {offset : Nat}

theorem MemberRef.memberOwner_eq (ref : MemberRef pool) :
    pool.memberOwner ref.index = .ok ref.owner.name.text :=
  ConstantPool.memberOwner_of_holds ref.holds ref.isMember ref.owner.holds ref.owner.name.holds

theorem Encodes.describes {piece : Bytes} {instruction : Instruction}
    (h : Encodes pool offset piece instruction) : Describes pool piece instruction := by
  obtain ⟨opcode, operands, rfl, hoperands⟩ := h
  cases hoperands with
  | type op operand _ =>
      exact ⟨rfl, operand.index, _, rfl,
        ConstantPool.className_of_holds operand.holds operand.name.holds⟩
  | invoke op method => exact ⟨rfl, method.index, rfl, method.memberOwner_eq⟩
  | field op field => exact ⟨rfl, field.index, rfl, field.memberOwner_eq⟩
  | tableSwitch => exact ⟨rfl, trivial⟩
  | lookupSwitch => exact ⟨rfl, trivial⟩
  | wide => exact ⟨rfl, trivial⟩
  | plain => exact ⟨rfl, trivial⟩

namespace CutInto

variable {pieces : List Bytes} {instructions : List Instruction}

theorem forall₂_describes (h : CutInto pool offset pieces instructions) :
    List.Forall₂ (Describes pool) pieces instructions := by
  induction h with
  | nil => exact .nil
  | cons hfirst _ ih => exact .cons hfirst.describes ih

theorem spells (h : CutInto pool offset pieces instructions) :
    Spells pool offset pieces.flatten instructions := by
  induction h with
  | nil offset => exact .nil offset
  | @cons offset piece pieces instruction more hfirst hrest ih =>
      obtain ⟨opcode, operands, rfl, hoperands⟩ := hfirst
      have hnext : offset + (opcode :: operands).length = offset + 1 + operands.length := by
        rw [List.length_cons]
        omega
      rw [hnext] at ih
      exact .cons hoperands ih

/-- A body can be cut in one way only. -/
theorem unique (h : CutInto pool offset pieces instructions) {pieces' : List Bytes}
    {instructions' : List Instruction} (h' : CutInto pool offset pieces' instructions')
    (hbytes : pieces.flatten = pieces'.flatten) :
    pieces = pieces' ∧ instructions = instructions' := by
  induction h generalizing pieces' instructions' with
  | nil offset =>
      cases h' with
      | nil => exact ⟨rfl, rfl⟩
      | cons hfirst _ =>
          obtain ⟨opcode, operands, rfl, _⟩ := hfirst
          simp at hbytes
  | @cons offset piece pieces instruction more hfirst hrest ih =>
      obtain ⟨opcode, operands, rfl, hoperands⟩ := hfirst
      cases h' with
      | nil => simp at hbytes
      | cons hfirst' hrest' =>
          obtain ⟨opcode', operands', rfl, hoperands'⟩ := hfirst'
          simp only [List.flatten_cons, List.cons_append, List.cons.injEq] at hbytes
          obtain ⟨rfl, hbytes⟩ := hbytes
          obtain ⟨rfl, rfl⟩ := hoperands.unique hoperands' hbytes
          obtain ⟨rfl, rfl⟩ := ih hrest' (List.append_cancel_left hbytes)
          exact ⟨rfl, rfl⟩

end CutInto

/-- Decoding goes on behind the first instruction. -/
theorem exists_of_instructionsFrom_cons {opcode : UInt8} {operands : Bytes}
    {instructions : List Instruction}
    (h : instructionsFrom pool offset (opcode :: operands) = .ok instructions) :
    ∃ instruction rest more, readOperands pool offset opcode operands = .ok instruction rest ∧
      instructionsFrom pool (offset + 1 + (operands.length - rest.length)) rest = .ok more ∧
      instructions = instruction :: more := by
  rw [instructionsFrom] at h
  split at h
  · simp at h
  · next instruction rest hread =>
      simp only at h
      split at h
      · next more hmore => exact ⟨instruction, rest, more, hread, hmore, (Except.ok.inj h).symm⟩
      · simp at h

/-- What decodes can be cut into the instructions that it decodes to. -/
theorem exists_cutInto {code : Bytes} {instructions : List Instruction}
    (h : instructionsFrom pool offset code = .ok instructions) :
    ∃ pieces, pieces.flatten = code ∧ CutInto pool offset pieces instructions := by
  -- Every instruction takes its opcode at least, so there are fewer of them in what is left.
  induction instructions generalizing offset code with
  | nil =>
      cases code with
      | nil => exact ⟨[], rfl, .nil offset⟩
      | cons opcode operands =>
          obtain ⟨instruction, _, more, _, _, hcons⟩ := exists_of_instructionsFrom_cons h
          simp at hcons
  | cons instruction more ih =>
      cases code with
      | nil =>
          rw [instructionsFrom] at h
          simp at h
      | cons opcode input =>
          obtain ⟨_, rest, _, hread, hmore, hcons⟩ := exists_of_instructionsFrom_cons h
          obtain ⟨rfl, rfl⟩ := List.cons.inj hcons
          obtain ⟨operands, rfl, hoperands⟩ := operands_of_readOperands hread
          obtain ⟨pieces, rfl, hpieces⟩ := ih hmore
          refine ⟨(opcode :: operands) :: pieces, by simp,
            .cons ⟨opcode, operands, rfl, hoperands⟩ ?_⟩
          have hnext : offset + (opcode :: operands).length =
              offset + 1 + ((operands ++ pieces.flatten).length - pieces.flatten.length) := by
            rw [List.length_cons, List.length_append]
            omega
          rw [hnext]
          exact hpieces

end Pieces

/-- A body decodes exactly if it can be cut into legal instructions, and then to these.
Each instruction has the first byte of its piece as its opcode and names the class that
the pool gives for its number, and there is no other way to cut the body. -/
theorem instructionsOf_eq_ok_iff_cutInto (pool : ConstantPool) (code : Bytes) :
    (∀ instructions, instructionsOf pool code = .ok instructions ↔
      ∃ pieces, pieces.flatten = code ∧ CutInto pool 0 pieces instructions) ∧
    (∀ pieces instructions, pieces.flatten = code → CutInto pool 0 pieces instructions →
      List.Forall₂ (Describes pool) pieces instructions) ∧
    ∀ pieces pieces' instructions instructions', pieces.flatten = code →
      pieces'.flatten = code → CutInto pool 0 pieces instructions →
      CutInto pool 0 pieces' instructions' → pieces = pieces' ∧ instructions = instructions' := by
  refine ⟨fun instructions => ⟨fun h => exists_cutInto h, ?_⟩, ?_, ?_⟩
  · rintro ⟨pieces, rfl, hpieces⟩
    exact hpieces.spells.instructionsFrom
  · intro pieces instructions _ hpieces
    exact hpieces.forall₂_describes
  · rintro pieces pieces' instructions instructions' rfl hbytes hpieces hpieces'
    exact hpieces.unique hpieces' hbytes.symm

end ClassFile
end Classpath
