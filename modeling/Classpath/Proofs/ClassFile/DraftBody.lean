import Classpath.Proofs.ClassFile.DraftWrites

/-!
# What is written for a drafted method body

The operations are written as legal instructions.  The two tables of local
variables are merged back into the variables of the draft, because each
variable has a slot of its own.
-/

namespace Classpath
namespace ClassFile

open Writer

/-! ## Operations -/

/-- The bytes are one legal instruction at every offset. -/
def IsCoded (pool : ConstantPool) (bytes : Bytes) (instruction : Instruction) : Prop :=
  ∃ opcode operands, bytes = opcode :: operands ∧
    ∀ offset, Operands pool offset opcode operands instruction

theorem spells_flatten {pool : ConstantPool} {encoded : List Bytes}
    {instructions : List Instruction} (h : List.Forall₂ (IsCoded pool) encoded instructions)
    (offset : Nat) : Spells pool offset encoded.flatten instructions := by
  induction h generalizing offset with
  | nil => exact .nil offset
  | cons hfirst _ ih =>
      obtain ⟨opcode, operands, rfl, hoperands⟩ := hfirst
      exact .cons (hoperands offset) (ih _)

theorem isCoded_type {pool : ConstantPool} (op : TypeOp) (operand : ClassRef pool)
    {dimensions : Bytes} (h : dimensions.length = if op = .multianewarray then 1 else 0) :
    IsCoded pool (op.opcode :: (indexBytes operand.index ++ dimensions))
      (.type op operand.name.text) :=
  ⟨op.opcode, indexBytes operand.index ++ dimensions, rfl, fun _ => .type op operand h⟩

theorem writes_classOperand (opcode : UInt8) {name : String} (hname : IsStorable name) :
    Writes (withIndex opcode (PoolWriter.classInfo name)) fun pool bytes =>
      ∃ operand : ClassRef pool, operand.name.text = name ∧
        bytes = opcode :: indexBytes operand.index := by
  refine (PoolWriter.writes_classInfo hname).bind fun index => ?_
  refine .pure fun pool hindex => ?_
  obtain ⟨operand, rfl, htext⟩ := hindex
  exact ⟨operand, htext, rfl⟩

theorem writes_typeOp (op : TypeOp) (hop : op ≠ .multianewarray) {name : String}
    (hname : IsStorable name) :
    Writes (withIndex op.opcode (PoolWriter.classInfo name)) fun pool bytes =>
      IsCoded pool bytes (.type op name) ∧ bytes.length ≤ 3 := by
  refine (writes_classOperand op.opcode hname).mono ?_
  rintro pool bytes ⟨operand, rfl, rfl⟩
  have hdimensions : ([] : Bytes).length = if op = .multianewarray then 1 else 0 := by
    rw [if_neg hop]
    rfl
  exact ⟨isCoded_type op operand hdimensions, Nat.le_refl 3⟩

theorem writes_multianewarray {name : String} (hname : IsStorable name) (dimensions : UInt8) :
    Writes (writeOp (.multianewarray name dimensions)) fun pool bytes =>
      IsCoded pool bytes (.type .multianewarray name) ∧ bytes.length ≤ 4 := by
  refine (writes_classOperand 0xc5 hname).bind fun bytes => ?_
  refine .pure fun pool hbytes => ?_
  obtain ⟨operand, rfl, rfl⟩ := hbytes
  have hdimensions : [dimensions].length = if TypeOp.multianewarray = .multianewarray then 1 else 0 :=
    rfl
  exact ⟨isCoded_type .multianewarray operand hdimensions, Nat.le_refl 4⟩

theorem writes_memberOp {opcode : UInt8} {owner : String} {instruction : Instruction}
    {writer : PoolWriter UInt16}
    (hwriter : Writes writer fun pool index =>
      ∃ ref : MemberRef pool, ref.index = index ∧ ref.owner.name.text = owner)
    (hoperands : ∀ (pool : ConstantPool) (ref : MemberRef pool), ref.owner.name.text = owner →
      ∀ offset, Operands pool offset opcode (indexBytes ref.index) instruction) :
    Writes (withIndex opcode writer) fun pool bytes =>
      IsCoded pool bytes instruction ∧ bytes.length ≤ 3 := by
  refine hwriter.bind fun index => ?_
  refine .pure fun pool hindex => ⟨?_, Nat.le_refl 3⟩
  obtain ⟨ref, rfl, hname⟩ := hindex
  exact ⟨opcode, indexBytes ref.index, rfl, hoperands pool ref hname⟩

/-- An operation that names nothing. -/
theorem writes_plainOp (opcode : UInt8) (operands : Bytes)
    (h : hasOperands opcode operands.length = true) :
    Writes (pure (opcode :: operands)) fun pool bytes =>
      IsCoded pool bytes (.plain opcode) ∧ bytes.length ≤ operands.length + 1 :=
  .pure fun _ => ⟨⟨opcode, operands, rfl, fun _ => .plain h⟩, Nat.le_refl _⟩

theorem isStorable_member {owner name descriptor : String}
    (h : ∀ text ∈ [owner, name, descriptor], IsStorable text) :
    IsStorable owner ∧ IsStorable name ∧ IsStorable descriptor :=
  ⟨h owner (by simp), h name (by simp), h descriptor (by simp)⟩

theorem writes_op {op : DraftOp} (h : ∀ text ∈ op.texts, IsStorable text) :
    Writes (writeOp op) fun pool bytes =>
      IsCoded pool bytes op.instruction ∧ bytes.length ≤ op.size := by
  cases op with
  | new name => exact writes_typeOp .new (by decide) (h name List.mem_cons_self)
  | anewarray name => exact writes_typeOp .anewarray (by decide) (h name List.mem_cons_self)
  | checkcast name => exact writes_typeOp .checkcast (by decide) (h name List.mem_cons_self)
  | instanceof name => exact writes_typeOp .instanceof (by decide) (h name List.mem_cons_self)
  | multianewarray name dimensions =>
      exact writes_multianewarray (h name List.mem_cons_self) dimensions
  | invokestatic owner name descriptor =>
      obtain ⟨howner, hname, hdescriptor⟩ := isStorable_member h
      apply writes_memberOp (PoolWriter.writes_methodRef howner hname hdescriptor)
      rintro pool method rfl offset
      exact .invoke .invokestatic method
  | invokespecial owner name descriptor =>
      obtain ⟨howner, hname, hdescriptor⟩ := isStorable_member h
      apply writes_memberOp (PoolWriter.writes_methodRef howner hname hdescriptor)
      rintro pool method rfl offset
      exact .invoke .invokespecial method
  | invokevirtual owner name descriptor =>
      obtain ⟨howner, hname, hdescriptor⟩ := isStorable_member h
      apply writes_memberOp (PoolWriter.writes_methodRef howner hname hdescriptor)
      intro pool method _ offset
      exact .plain rfl
  | getstatic owner name descriptor =>
      obtain ⟨howner, hname, hdescriptor⟩ := isStorable_member h
      apply writes_memberOp (PoolWriter.writes_fieldRef howner hname hdescriptor)
      rintro pool field rfl offset
      exact .field .getstatic field
  | putstatic owner name descriptor =>
      obtain ⟨howner, hname, hdescriptor⟩ := isStorable_member h
      apply writes_memberOp (PoolWriter.writes_fieldRef howner hname hdescriptor)
      rintro pool field rfl offset
      exact .field .putstatic field
  | getfield owner name descriptor =>
      obtain ⟨howner, hname, hdescriptor⟩ := isStorable_member h
      apply writes_memberOp (PoolWriter.writes_fieldRef howner hname hdescriptor)
      intro pool field _ offset
      exact .plain rfl
  | newIntArray => exact writes_plainOp 0xbc [10] rfl
  | dup => exact writes_plainOp 0x59 [] rfl
  | pop => exact writes_plainOp 0x57 [] rfl
  | loadNull => exact writes_plainOp 0x01 [] rfl
  | exit => exact writes_plainOp 0xb1 [] rfl

theorem length_flatten_le_sum {R : Bytes → DraftOp → Prop} {encoded : List Bytes}
    {ops : List DraftOp} (h : List.Forall₂ R encoded ops)
    (hsize : ∀ bytes op, R bytes op → bytes.length ≤ op.size) :
    encoded.flatten.length ≤ (ops.map DraftOp.size).sum := by
  induction h with
  | nil => exact Nat.le_refl 0
  | @cons bytes op encoded ops hfirst _ ih =>
      have hbytes := hsize bytes op hfirst
      rw [List.flatten_cons, List.length_append, List.map_cons, List.sum_cons]
      omega

theorem writes_code {ops : List DraftOp} (h : ∀ op ∈ ops, ∀ text ∈ op.texts, IsStorable text) :
    Writes (ops.mapM writeOp) fun pool encoded =>
      Spells pool 0 encoded.flatten (ops.map DraftOp.instruction) ∧
        encoded.flatten.length ≤ (ops.map DraftOp.size).sum := by
  refine (Writes.mapM fun op hop => writes_op (h op hop)).mono ?_
  intro pool encoded hops
  constructor
  · exact spells_flatten (forall₂_map_right hops fun bytes op hcoded => hcoded.1) 0
  · exact length_flatten_le_sum hops fun bytes op hcoded => hcoded.2

/-! ## Local variables -/

/-- The row of a variable in the table of descriptors, given its slot. -/
def describedRow (codeLength : Nat) (item : LocalDraft × Nat) : LocalEntry :=
  ⟨0, .ofNat codeLength, .ofNat item.2, item.1.descriptor⟩

/-- The row of a variable in the table of signatures, if it has one. -/
def typedRow? (codeLength : Nat) (item : LocalDraft × Nat) : Option LocalEntry :=
  item.1.signature.map fun text => ⟨0, .ofNat codeLength, .ofNat item.2, text⟩

theorem not_sameVariable {codeLength slot start : Nat} {first : LocalDraft}
    {locals : List LocalDraft} (hslot : slot < start) (hlength : start + locals.length ≤ 65536)
    {entry : LocalEntry} (h : entry ∈ (locals.zipIdx start).filterMap (typedRow? codeLength)) :
    ¬ (describedRow codeLength (first, slot)).sameVariable entry = true := by
  obtain ⟨item, hitem, hrow⟩ := List.mem_filterMap.1 h
  obtain ⟨text, _, rfl⟩ := Option.map_eq_some_iff.1 hrow
  have hlow := List.le_snd_of_mem_zipIdx hitem
  have hhigh := List.snd_lt_add_of_mem_zipIdx hitem
  -- All slots fit in two bytes, so different slots are written differently.
  have hne : UInt16.ofNat slot ≠ UInt16.ofNat item.2 := by
    intro heq
    have hnat := congrArg UInt16.toNat heq
    have hleft : (UInt16.ofNat slot).toNat = slot := Nat.mod_eq_of_lt (by omega)
    have hright : (UInt16.ofNat item.2).toNat = item.2 := Nat.mod_eq_of_lt (by omega)
    rw [hleft, hright] at hnat
    omega
  simp [LocalEntry.sameVariable, describedRow, hne]

/-- Each variable finds its own signature, because no later one has its slot. -/
theorem mergeLocals_rows (codeLength start : Nat) (locals : List LocalDraft)
    (hlength : start + locals.length ≤ 65536) :
    mergeLocals ((locals.zipIdx start).map (describedRow codeLength))
        ((locals.zipIdx start).filterMap (typedRow? codeLength)) =
      locals.map LocalDraft.localVariable := by
  induction locals generalizing start with
  | nil => rfl
  | cons first locals ih =>
      rw [List.length_cons] at hlength
      have hrest := ih (start + 1) (by omega)
      have hothers : ∀ entry ∈ (locals.zipIdx (start + 1)).filterMap (typedRow? codeLength),
          ¬ (describedRow codeLength (first, start)).sameVariable entry = true := fun entry hentry =>
        not_sameVariable (Nat.lt_succ_self start) (by omega) hentry
      rw [List.zipIdx_cons, List.map_cons, List.filterMap_cons, List.map_cons]
      cases hsignature : first.signature with
      | none =>
          have hrow : typedRow? codeLength (first, start) = none := by
            rw [typedRow?, hsignature]
            rfl
          rw [hrow, mergeLocals, List.find?_eq_none.2 hothers, List.eraseP_of_forall_not hothers,
            hrest, LocalDraft.localVariable, hsignature]
          rfl
      | some text =>
          have hrow : typedRow? codeLength (first, start) =
              some ⟨0, .ofNat codeLength, .ofNat start, text⟩ := by
            rw [typedRow?, hsignature]
            rfl
          have hsame : (describedRow codeLength (first, start)).sameVariable
              ⟨0, .ofNat codeLength, .ofNat start, text⟩ = true := by
            simp [LocalEntry.sameVariable, describedRow]
          rw [hrow, mergeLocals, List.find?_cons_of_pos hsame, List.eraseP_cons_of_pos hsame, hrest,
            LocalDraft.localVariable, hsignature]
          rfl

/-- The bytes are one row of a table. -/
def ReadsRow (pool : ConstantPool) (bytes : Bytes) (entry : LocalEntry) : Prop :=
  Reads (LocalEntry.read pool) bytes entry ∧ bytes.length ≤ 10

theorem readsRow_localRow {pool : ConstantPool} {name text : UInt16} {nameText value : String}
    (codeLength slot : Nat) (hname : pool.Holds name (.utf8 nameText))
    (htext : pool.Holds text (.utf8 value)) :
    ReadsRow pool (localRow codeLength name text slot)
      ⟨0, .ofNat codeLength, .ofNat slot, value⟩ := by
  constructor
  · exact LocalEntry.reads 0 codeLength slot (ConstantPool.text_of_holds hname)
      (ConstantPool.text_of_holds htext)
  · simp only [localRow, List.length_append, length_indexBytes, u2Bytes, length_bigEndianBytes,
      Nat.le_refl]

theorem writes_local (codeLength : Nat) {slot : Nat} (hslot : slot < 65536) {draft : LocalDraft}
    (h : ∀ text ∈ draft.texts, IsStorable text) :
    Writes (writeLocal codeLength slot draft) fun pool rows =>
      ReadsRow pool rows.1 (describedRow codeLength (draft, slot)) ∧
        List.Forall₂ (ReadsRow pool) rows.2 (typedRow? codeLength (draft, slot)).toList := by
  obtain ⟨descriptor, signature⟩ := draft
  refine (PoolWriter.writes_text (isStorable_slotName hslot)).bind fun nameIndex => ?_
  refine (PoolWriter.writes_text (h descriptor List.mem_cons_self)).bind fun descriptorIndex => ?_
  cases signature with
  | none =>
      refine .pure fun pool hdescriptor hname => ?_
      exact ⟨readsRow_localRow codeLength slot hname hdescriptor, .nil⟩
  | some signature =>
      have hsignature := h signature (List.mem_cons_of_mem _ List.mem_cons_self)
      refine (PoolWriter.writes_text hsignature).bind fun signatureIndex => ?_
      refine .pure fun pool hsignature hdescriptor hname => ?_
      exact ⟨readsRow_localRow codeLength slot hname hdescriptor,
        .cons (readsRow_localRow codeLength slot hname hsignature) .nil⟩

/-- The bytes of each variable are its row and, if it has a signature, its second
row. -/
def ReadsRows (pool : ConstantPool) (codeLength : Nat) (rows : List (Bytes × List Bytes))
    (items : List (LocalDraft × Nat)) : Prop :=
  List.Forall₂ (fun row item => ReadsRow pool row.1 (describedRow codeLength item) ∧
    List.Forall₂ (ReadsRow pool) row.2 (typedRow? codeLength item).toList) rows items

namespace ReadsRows

variable {pool : ConstantPool} {codeLength : Nat} {rows : List (Bytes × List Bytes)}
  {items : List (LocalDraft × Nat)}

theorem described (h : ReadsRows pool codeLength rows items) :
    List.Forall₂ (ReadsRow pool) (rows.map (·.1)) (items.map (describedRow codeLength)) := by
  rw [List.forall₂_map_left_iff]
  exact forall₂_map_right h fun row item hrow => hrow.1

theorem typed (h : ReadsRows pool codeLength rows items) :
    List.Forall₂ (ReadsRow pool) (rows.flatMap (·.2)) (items.filterMap (typedRow? codeLength)) := by
  rw [List.filterMap_eq_flatMap_toList]
  induction h with
  | nil => exact .nil
  | cons hfirst _ ih => exact List.rel_append hfirst.2 ih

end ReadsRows

theorem reads_rowList {pool : ConstantPool} {encoded : List Bytes} {entries : List LocalEntry}
    (h : List.Forall₂ (ReadsRow pool) encoded entries) (hlength : entries.length < 65536) :
    Reads (LocalEntry.readList pool) (countedBytes encoded) entries :=
  .counted (h.imp fun _ _ hrow => hrow.1) hlength

theorem length_filterMap_typedRow? (codeLength start : Nat) (locals : List LocalDraft) :
    ((locals.zipIdx start).filterMap (typedRow? codeLength)).length =
      (locals.filterMap LocalDraft.signature).length := by
  induction locals generalizing start with
  | nil => rfl
  | cons first locals ih =>
      rw [List.zipIdx_cons, List.filterMap_cons, List.filterMap_cons, typedRow?]
      cases first.signature with
      | none => exact ih (start + 1)
      | some text => exact congrArg (· + 1) (ih (start + 1))

/-- The bytes are an attribute of a body, and not more than so many. -/
def ReadsCodeAttribute (size : Nat) (pool : ConstantPool) (bytes : Bytes) (attr : CodeAttribute) :
    Prop :=
  Reads (CodeAttribute.read pool) bytes attr ∧ bytes.length ≤ size

theorem writes_table {name : String} (hname : IsStorable name) {attr : CodeAttribute}
    {rows : List Bytes} {R : ConstantPool → Prop} {size : Nat}
    (hdecode : ∀ pool, R pool → CodeAttribute.decode pool name (countedBytes rows) = .ok attr)
    (hsize : ∀ pool, R pool → rows.flatten.length ≤ size) (hfits : size + 2 < 4294967296) :
    Writes (writeAttribute name (countedBytes rows)) fun pool bytes =>
      R pool → ReadsCodeAttribute (8 + size) pool bytes attr := by
  refine (writes_attribute hname _).mono ?_
  rintro pool bytes ⟨index, hindex, rfl⟩ hrows
  have hlength := hsize pool hrows
  constructor
  · refine CodeAttribute.reads hindex ?_ (hdecode pool hrows)
    rw [length_countedBytes]
    omega
  · rw [length_attributeBytes, length_countedBytes]
    omega

theorem length_optional_le {pool : ConstantPool} {width rows : Nat} {empty : Bool}
    {encoded : List Bytes} {attr : CodeAttribute}
    (h : List.Forall₂ (ReadsCodeAttribute (8 + width * rows) pool) encoded (optional empty attr))
    (hempty : empty = false → rows ≠ 0) :
    encoded.flatten.length ≤ MethodDraft.tableSize width rows := by
  have hlength := length_flatten_le h fun bytes attr hattr => hattr.2
  cases empty with
  | true =>
      cases h
      exact Nat.zero_le _
  | false =>
      rw [MethodDraft.tableSize, if_neg (hempty rfl)]
      exact Nat.le_trans hlength (Nat.le_of_eq (Nat.mul_one _))

/-- The attributes of the tables of local variables. -/
def localAttributes (codeLength : Nat) (locals : List LocalDraft) : List CodeAttribute :=
  optional locals.isEmpty (.describedLocals (locals.zipIdx.map (describedRow codeLength))) ++
    optional (locals.filterMap LocalDraft.signature).isEmpty
      (.typedLocals (locals.zipIdx.filterMap (typedRow? codeLength)))

theorem writes_described (codeLength : Nat) {locals : List LocalDraft}
    (hlength : locals.length < 65536) (rows : List (Bytes × List Bytes)) :
    Writes (writeAttribute "LocalVariableTable" (countedBytes (rows.map (·.1)))) fun pool bytes =>
      ReadsRows pool codeLength rows locals.zipIdx →
        ReadsCodeAttribute (8 + 10 * locals.length) pool bytes
          (.describedLocals (locals.zipIdx.map (describedRow codeLength))) := by
  apply writes_table (isStorable_own (by simp [ownTexts]))
  · intro pool hrows
    apply CodeAttribute.decode_describedLocals
    exact reads_rowList hrows.described (by rwa [List.length_map, List.length_zipIdx])
  · intro pool hrows
    have hsize := length_flatten_le hrows.described fun bytes entry hrow => hrow.2
    rwa [List.length_map, List.length_zipIdx] at hsize
  · omega

theorem writes_typed (codeLength : Nat) {locals : List LocalDraft}
    (hlength : (locals.filterMap LocalDraft.signature).length < 65536)
    (rows : List (Bytes × List Bytes)) :
    Writes (writeAttribute "LocalVariableTypeTable" (countedBytes (rows.flatMap (·.2))))
      fun pool bytes => ReadsRows pool codeLength rows locals.zipIdx →
        ReadsCodeAttribute (8 + 10 * (locals.filterMap LocalDraft.signature).length) pool bytes
          (.typedLocals (locals.zipIdx.filterMap (typedRow? codeLength))) := by
  have hcount := length_filterMap_typedRow? codeLength 0 locals
  apply writes_table (isStorable_own (by simp [ownTexts]))
  · intro pool hrows
    apply CodeAttribute.decode_typedLocals
    exact reads_rowList hrows.typed (by rwa [hcount])
  · intro pool hrows
    have hsize := length_flatten_le hrows.typed fun bytes entry hrow => hrow.2
    rwa [hcount] at hsize
  · omega

theorem writes_locals (codeLength : Nat) {locals : List LocalDraft}
    (hlength : locals.length < 65536)
    (htexts : ∀ draft ∈ locals, ∀ text ∈ draft.texts, IsStorable text) :
    Writes (writeLocals codeLength locals) fun pool encoded =>
      List.Forall₂ (Reads (CodeAttribute.read pool)) encoded (localAttributes codeLength locals) ∧
        encoded.flatten.length ≤ MethodDraft.tableSize 10 locals.length +
          MethodDraft.tableSize 10 (locals.filterMap LocalDraft.signature).length := by
  have hrow : ∀ item ∈ locals.zipIdx,
      Writes (writeLocal codeLength item.2 item.1) fun pool rows =>
        ReadsRow pool rows.1 (describedRow codeLength item) ∧
          List.Forall₂ (ReadsRow pool) rows.2 (typedRow? codeLength item).toList := by
    intro item hitem
    have hslot := List.snd_lt_of_mem_zipIdx hitem
    exact writes_local codeLength (by omega) (htexts item.1 (List.fst_mem_of_mem_zipIdx hitem))
  have hsignatures := List.length_filterMap_le LocalDraft.signature locals
  refine (Writes.mapM hrow).bind fun rows => ?_
  refine (writes_optional (fun pool bytes attr => ReadsRows pool codeLength rows locals.zipIdx →
    ReadsCodeAttribute (8 + 10 * locals.length) pool bytes attr)
    fun _ => writes_described codeLength hlength rows).bind fun described => ?_
  refine (writes_optional (fun pool bytes attr => ReadsRows pool codeLength rows locals.zipIdx →
    ReadsCodeAttribute (8 + 10 * (locals.filterMap LocalDraft.signature).length) pool bytes attr)
    fun _ => writes_typed codeLength (by omega) rows).bind fun typed => ?_
  refine .pure fun pool htyped hdescribed hrows => ?_
  -- The rows are known to be read back only now, in the final pool.
  have htyped := htyped.imp fun _ _ hattr => hattr hrows
  have hdescribed := hdescribed.imp fun _ _ hattr => hattr hrows
  have hempty : (rows.flatMap (·.2)).isEmpty = (locals.filterMap LocalDraft.signature).isEmpty := by
    have hcount := (ReadsRows.typed hrows).length_eq
    rw [length_filterMap_typedRow?] at hcount
    rw [Bool.eq_iff_iff, List.isEmpty_iff_length_eq_zero, List.isEmpty_iff_length_eq_zero, hcount]
  rw [hempty] at htyped
  constructor
  · exact List.rel_append (hdescribed.imp fun _ _ hattr => hattr.1)
      (htyped.imp fun _ _ hattr => hattr.1)
  · have hfirst := length_optional_le hdescribed (by simp)
    have hsecond := length_optional_le htyped (by simp)
    rw [List.flatten_append, List.length_append]
    omega

/-! ## Annotations on local variables -/

theorem writes_localMark (codeLength : Nat) {type : String} (h : IsStorable type) :
    Writes (writeLocalMark codeLength type) fun pool bytes =>
      ReadsTypeUse pool bytes ⟨0x40, type⟩ ∧ bytes.length ≤ 14 := by
  refine (writes_plainMark h).bind fun mark => ?_
  refine .pure fun pool hmark => ?_
  -- The target is a table with one row.
  have hrow : ∀ row ∈ [u2Bytes 0 ++ u2Bytes codeLength ++ u2Bytes 0], row.length = 6 := by
    intro row hrow
    rw [List.mem_singleton.1 hrow]
    rfl
  have hcontent := TypeTarget.reads_rows (.inl rfl) hrow (by decide : 1 < 65536)
  have hpath : ([] : Bytes).length = (0 : UInt8).toNat * 2 := rfl
  have hbytes : 0x40 :: (u2Bytes 1 ++ u2Bytes 0 ++ u2Bytes codeLength ++ u2Bytes 0 ++ [0] ++ mark) =
      0x40 :: (countedBytes [u2Bytes 0 ++ u2Bytes codeLength ++ u2Bytes 0] ++ 0 :: ([] ++ mark)) := by
    simp [countedBytes]
  rw [hbytes]
  refine ⟨readsTypeUse hcontent hpath hmark.1, ?_⟩
  have hshort := hmark.2
  simp only [List.length_cons, List.length_append, length_countedBytes, List.flatten_cons,
    List.flatten_nil, u2Bytes, length_bigEndianBytes, List.length_nil]
  omega

theorem writes_localMarks (codeLength : Nat) {types : List String} (hlength : types.length < 65536)
    (htypes : ∀ type ∈ types, IsStorable type) :
    Writes (writeLocalMarks codeLength types) fun pool bytes =>
      ReadsCodeAttribute (8 + 14 * types.length) pool bytes
        (.typeAnnotations (types.map fun type => ⟨0x40, type⟩)) := by
  refine (Writes.mapM fun type htype => writes_localMark codeLength (htypes type htype)).bind
    fun marks => ?_
  apply writes_table (isStorable_own (by simp [ownTexts]))
  · intro pool hmarks
    have hlist := reads_typeUseList (forall₂_map_right hmarks fun bytes x hmark => hmark.1)
      (by rwa [List.length_map])
    exact CodeAttribute.decode_typeAnnotations hlist (.inl rfl)
  · intro pool hmarks
    exact length_flatten_le hmarks fun bytes x hmark => hmark.2
  · omega

/-! ## Bodies -/

/-- What the body of a drafted method is read back as. -/
def MethodDraft.body (draft : MethodDraft) : Body where
  instructions := draft.code.map DraftOp.instruction
  localVariables := draft.locals.map LocalDraft.localVariable
  localVariableAnnotations := draft.localAnnotations

theorem typedRows_of_isEmpty {codeLength : Nat} {locals : List LocalDraft}
    (h : (locals.filterMap LocalDraft.signature).isEmpty = true) :
    locals.zipIdx.filterMap (typedRow? codeLength) = [] := by
  rw [List.isEmpty_iff_length_eq_zero, ← length_filterMap_typedRow? codeLength 0] at h
  exact List.eq_nil_of_length_eq_zero h

/-- The attributes of the body of a drafted method. -/
def MethodDraft.bodyAttributes (draft : MethodDraft) (codeLength : Nat) : List CodeAttribute :=
  localAttributes codeLength draft.locals ++ optional draft.localAnnotations.isEmpty
    (.typeAnnotations (draft.localAnnotations.map fun type => ⟨0x40, type⟩))

/-- No attribute that is left out would have held anything. -/
theorem MethodDraft.flatMap_bodyAttributes {β : Type} {f : CodeAttribute → List β}
    (hdescribed : f (.describedLocals []) = []) (htyped : f (.typedLocals []) = [])
    (huses : f (.typeAnnotations []) = []) (draft : MethodDraft) (codeLength : Nat) :
    (draft.bodyAttributes codeLength).flatMap f =
      f (.describedLocals (draft.locals.zipIdx.map (describedRow codeLength))) ++
        f (.typedLocals (draft.locals.zipIdx.filterMap (typedRow? codeLength))) ++
        f (.typeAnnotations (draft.localAnnotations.map fun type => ⟨0x40, type⟩)) := by
  rw [bodyAttributes, localAttributes, List.flatMap_append, List.flatMap_append, flatMap_optional,
    flatMap_optional, flatMap_optional]
  · intro hempty
    rw [List.isEmpty_iff.1 hempty]
    exact huses
  · intro hempty
    rw [typedRows_of_isEmpty hempty]
    exact htyped
  · intro hempty
    rw [List.isEmpty_iff.1 hempty]
    exact hdescribed

theorem MethodDraft.ofAttributes_body (draft : MethodDraft) (codeLength : Nat)
    (hlength : draft.locals.length < 65536) :
    Body.ofAttributes (draft.code.map DraftOp.instruction) (draft.bodyAttributes codeLength) =
      draft.body := by
  have hdescribed := flatMap_bodyAttributes (f := CodeAttribute.describedEntries) rfl rfl rfl draft
    codeLength
  have htyped := flatMap_bodyAttributes (f := CodeAttribute.typedEntries) rfl rfl rfl draft codeLength
  have hannotations := flatMap_bodyAttributes (f := CodeAttribute.localAnnotations) rfl rfl rfl draft
    codeLength
  have hlocal : (draft.localAnnotations.map fun type => (⟨0x40, type⟩ : AnnotatedType)).filter
      AnnotatedType.isOnLocal = draft.localAnnotations.map fun type => ⟨0x40, type⟩ := by
    rw [List.filter_eq_self]
    intro use huse
    obtain ⟨type, _, rfl⟩ := List.mem_map.1 huse
    rfl
  have hmerge := mergeLocals_rows codeLength 0 draft.locals (by omega)
  simp only [CodeAttribute.describedEntries, CodeAttribute.typedEntries,
    CodeAttribute.localAnnotations, List.append_nil, List.nil_append, hlocal, List.map_map,
    Function.comp_def, List.map_id'] at hdescribed htyped hannotations
  rw [Body.ofAttributes, hdescribed, htyped, hannotations, hmerge]
  rfl

theorem length_bodyBytes (maxStack maxLocals : Nat) (code : Bytes) (handlers attributes : List Bytes) :
    (bodyBytes maxStack maxLocals code handlers attributes).length =
      12 + code.length + handlers.flatten.length + attributes.flatten.length := by
  simp only [bodyBytes, List.length_append, length_countedBytes, u2Bytes, u4Bytes,
    length_bigEndianBytes]
  omega

theorem length_bodyAttributes (draft : MethodDraft) (codeLength : Nat) :
    (draft.bodyAttributes codeLength).length < 65536 := by
  rw [MethodDraft.bodyAttributes, localAttributes, List.length_append, List.length_append]
  have hfirst := length_optional_le_one draft.locals.isEmpty
    (CodeAttribute.describedLocals (draft.locals.zipIdx.map (describedRow codeLength)))
  have hsecond := length_optional_le_one (draft.locals.filterMap LocalDraft.signature).isEmpty
    (CodeAttribute.typedLocals (draft.locals.zipIdx.filterMap (typedRow? codeLength)))
  have hthird := length_optional_le_one draft.localAnnotations.isEmpty
    (CodeAttribute.typeAnnotations (draft.localAnnotations.map fun type => ⟨0x40, type⟩))
  omega

theorem writes_body {draft : MethodDraft} (hfits : draft.Fits)
    (hcode : ∀ op ∈ draft.code, ∀ text ∈ op.texts, IsStorable text)
    (hlocals : ∀ item ∈ draft.locals, ∀ text ∈ item.texts, IsStorable text)
    (hannotations : ∀ type ∈ draft.localAnnotations, IsStorable type) :
    Writes (writeBody draft) fun pool bytes =>
      Reads (Attribute.read pool) bytes (.code draft.body) := by
  refine (writes_code hcode).bind fun encoded => ?_
  refine (writes_locals encoded.flatten.length hfits.locals hlocals).bind fun locals => ?_
  refine (writes_optional (ReadsCodeAttribute (8 + 14 * draft.localAnnotations.length)) fun _ =>
    writes_localMarks encoded.flatten.length hfits.localAnnotations hannotations).bind
      fun marks => ?_
  refine (writes_attribute (isStorable_own (by simp [ownTexts])) _).mono ?_
  rintro pool bytes ⟨index, hname, rfl⟩ hmarks ⟨hlocalAttributes, hlocalsSize⟩ ⟨hspells, hcodeSize⟩
  -- There are no handlers, and a count of zero is all that is written for them.
  have hcontent : u2Bytes 8 ++ u2Bytes (draft.locals.length + 4) ++
      u4Bytes encoded.flatten.length ++ encoded.flatten ++ u2Bytes 0 ++
        countedBytes (locals ++ marks) =
      bodyBytes 8 (draft.locals.length + 4) encoded.flatten [] (locals ++ marks) := by
    simp [bodyBytes, countedBytes]
  have hmarksSize := length_optional_le hmarks (by simp)
  have hbody := hfits.body
  rw [MethodDraft.bodySize] at hbody
  have hsize : encoded.flatten.length ≤ draft.codeSize := hcodeSize
  rw [hcontent]
  apply Attribute.reads hname
  · rw [length_bodyBytes, List.flatten_append, List.length_append, List.flatten_nil, List.length_nil]
    omega
  · apply Attribute.decode_code
    rw [← draft.ofAttributes_body encoded.flatten.length hfits.locals]
    apply Body.reads _ _ hspells (by omega) (by simp) (by decide)
    · exact List.rel_append hlocalAttributes (hmarks.imp fun _ _ hattr => hattr.1)
    · exact length_bodyAttributes draft encoded.flatten.length

end ClassFile
end Classpath
