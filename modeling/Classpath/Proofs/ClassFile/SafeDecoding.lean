import Classpath.Proofs.ClassFile.AnnotationCalls
import Classpath.Proofs.ClassFile.SelfDelimiting

/-!
# The decoder on machine words

Every reader of the decoder has a recipe, from the constants of the pool up to the whole
class file, and the loop over a method body follows the instructions one by one.  So
decoding can be carried out on words.  Main statement: on every byte string this ends
without a fault and with the result of `decode`, and every byte string that is opened on
the way is read from the front, within its bounds.
-/

namespace Classpath
namespace ClassFile

namespace Recipe

/-- A table that is passed over, after the number of its rows. -/
def skipRows (count : UInt16) (width : UInt64) (hwidth : width.toNat ≤ 8) :
    Recipe (Reader.skip (count.toNat * width.toNat)) :=
  .skip (.rows count.toUInt64 width count.toNat_toUInt64 count.toNat_lt hwidth)

/-! ## The constant pool -/

def utf8Constant : Recipe Constant.readUtf8 :=
  u2.bind fun size => .slice (.stated size.toUInt64 size.toNat_toUInt64) fun encoded hencoded =>
    (Recipe.work (.text (addressable_of_length hencoded
      (Nat.lt_trans size.toNat_lt (by decide))))).map _

def pairConstant (build : UInt16 → UInt16 → Constant) : Recipe (Constant.readPair build) :=
  u2.bind fun _ => u2.map _

def constantContent : (kind : ConstantKind) → Recipe (Constant.readAs kind)
  | .utf8 => utf8Constant
  | .integer | .float => u4.map _
  | .long | .double => u8.map _
  | .classInfo | .string | .methodType | .moduleInfo | .packageInfo => u2.map _
  | .methodHandle => Recipe.byte.bind fun _ => u2.map _
  | .fieldRef | .methodRef | .interfaceMethodRef | .nameAndType | .dynamic | .invokeDynamic =>
      pairConstant _

def constant : Recipe Constant.read :=
  Recipe.byte.bind fun tag =>
  match ConstantKind.ofTag? tag with
  | some kind => constantContent kind
  | none => .fail _

def slots : (n : Nat) → Recipe (ConstantPool.readSlots n)
  | 0 => .pure []
  | 1 => constant.bind fun _ => .choice (fun _ => .fail _) fun _ => .pure _
  | n + 2 => constant.bind fun _ =>
      .choice (fun _ => (slots n).map _) fun _ => (slots (n + 1)).map _

def pool : Recipe ConstantPool.read := u2.bind fun _ => (slots _).map _

/-! ## Annotations -/

def annotations (pool : ConstantPool) : Recipe (Annotations.readList pool) :=
  .within (· + 1) fun depth => (mark pool depth).counted

def parameterAnnotations (pool : ConstantPool) : Recipe (Annotations.readParameterLists pool) :=
  Recipe.byte.bind fun count => (annotations pool).times count.toNat

def target (target : UInt8) : Recipe (AnnotatedType.skipTarget target) :=
  .choice (fun _ => skipFew 1) fun _ =>
  .choice (fun _ => skipFew 2) fun _ =>
  .choice (fun _ => .pure ()) fun _ =>
  .choice (fun _ => skipFew 1) fun _ =>
  .choice (fun _ => skipFew 2) fun _ =>
  .choice (fun _ => u2.bind fun rows => skipRows rows 6 (by decide)) fun _ =>
  .choice (fun _ => skipFew 2) fun _ =>
  .choice (fun _ => skipFew 3) fun _ => .fail _

def typeUse (pool : ConstantPool) (depth : Nat) : Recipe (AnnotatedType.readWithin depth pool) :=
  Recipe.byte.bind fun kind => (target kind).bind fun _ => Recipe.byte.bind fun steps =>
    (Recipe.skip (.rows steps.toUInt64 2 steps.toNat_toUInt64
      (Nat.lt_trans steps.toNat_lt (by decide)) (by decide))).bind fun _ =>
    (mark pool depth).map _

def typeUses (pool : ConstantPool) : Recipe (AnnotatedType.readList pool) :=
  .within (· + 1) fun depth => (typeUse pool depth).counted

/-! ## Instructions -/

theorem operandLength?_lt {opcode : UInt8} {length : Nat}
    (h : operandLength? opcode = some length) : length < UInt64.size := by
  have hall := forall_byte (p := fun code => (operandLength? code).all (· < UInt64.size))
    (by decide +kernel) opcode
  simpa [h] using hall

section Instructions

variable {offset : UInt64} (hoffset : offset.toNat + 1 < UInt64.size)

include hoffset

def tableSwitchTable : Recipe (skipTableSwitch offset.toNat) :=
  (Recipe.skip (.padding hoffset)).bind fun _ => (skipFew 4).bind fun _ =>
  .signed fun _ => .signed fun _ =>
  .choice (fun _ => .fail _) fun hle => .skip (.jumps (by omega))

def lookupSwitchTable : Recipe (skipLookupSwitch offset.toNat) :=
  (Recipe.skip (.padding hoffset)).bind fun _ => (skipFew 4).bind fun _ =>
  .signed fun _ => .choice (fun _ => .fail _) fun hle => .skip (.pairs (by omega))

def plainOperands (opcode : UInt8) : Recipe (skipOperands offset.toNat opcode) :=
  .choice (fun _ => tableSwitchTable hoffset) fun _ =>
  .choice (fun _ => lookupSwitchTable hoffset) fun _ =>
  .choice (fun _ => Recipe.byte.bind fun _ => .skip (.fixed _ (by split <;> decide))) fun _ =>
  match h : operandLength? opcode with
  | some length => .skip (.fixed length (operandLength?_lt h))
  | none => .fail _

omit hoffset in
def dimensions (op : TypeOp) : Recipe (skipDimensions op) :=
  .choice (fun _ => Recipe.byte.map _) fun _ => .pure ()

def operandsOf (pool : ConstantPool) (opcode : UInt8) :
    (type? : Option TypeOp) → (invoke? : Option InvokeOp) → (field? : Option FieldOp) →
      Recipe (readOperandsOf pool offset.toNat opcode type? invoke? field?)
  | some op, _, _ =>
      (className pool).bind fun operand => (dimensions op).map fun _ => Instruction.type op operand
  | none, some op, _ => (memberOwner pool).map (Instruction.invoke op)
  | none, none, some op => (memberOwner pool).map (Instruction.field op)
  | none, none, none => (plainOperands hoffset opcode).map fun _ => Instruction.plain opcode

def operands (pool : ConstantPool) (opcode : UInt8) :
    Recipe (readOperands pool offset.toNat opcode) :=
  operandsOf hoffset pool opcode _ _ _

end Instructions
end Recipe

namespace Machine

/-- Where the next read starts. -/
def position : Machine UInt64 := fun session => .ok session.position session

/-- One instruction.  Its offset is the position of its opcode. -/
def instruction (pool : ConstantPool) : Machine Instruction := do
  let offset ← position
  let opcode ← byte
  ensure fun hoffset : offset.toNat + 1 < UInt64.size =>
    (Recipe.operands hoffset pool opcode).run

/-- The instructions up to the end of the body, one in each round. -/
def instructions (pool : ConstantPool) : (rounds : Nat) → Machine (List Instruction)
  | 0 => throw (.fault .overrun)
  | rounds + 1 => do
      let left ← remaining
      if left = 0 then
        return []
      else
        let first ← instruction pool
        return first :: (← instructions pool rounds)

end Machine

section Bodies

variable {pool : ConstantPool} {offset : Nat} {opcode : UInt8} {operands rest : Bytes}

theorem instructionsFrom_of_error {error : DecodeError}
    (h : readOperands pool offset opcode operands = .error error rest) :
    instructionsFrom pool offset (opcode :: operands) = .error error := by
  rw [instructionsFrom]
  split
  · next other left hread =>
      rw [h] at hread
      rw [(EStateM.Result.error.inj hread).1]
  · next first left hread =>
      rw [h] at hread
      cases hread

/-- The first instruction of a body decides where the others start. -/
theorem instructionsFrom_of_ok {first : Instruction}
    (h : readOperands pool offset opcode operands = .ok first rest) :
    instructionsFrom pool offset (opcode :: operands) = (first :: ·) <$>
      instructionsFrom pool (offset + 1 + (operands.length - rest.length)) rest := by
  rw [instructionsFrom]
  split
  · next error left hread =>
      rw [h] at hread
      cases hread
  · next other left hread =>
      rw [h] at hread
      obtain ⟨rfl, rfl⟩ := EStateM.Result.ok.inj hread
      dsimp only
      cases instructionsFrom pool (offset + 1 + (operands.length - rest.length)) rest <;> rfl

end Bodies

theorem instruction_agrees (pool : ConstantPool) {session : Session} (h : session.Sound) :
    ∃ after, session.Continues after ∧
      Agrees after (Machine.instruction pool session)
        ((Reader.u1 >>= readOperands pool session.position.toNat) session.rest) := by
  have hshort : Addressable session.bytes := h.inBounds.short
  have hposition := h.position_le
  have hoffset : session.position.toNat + 1 < UInt64.size := by
    rw [UInt64.size]
    omega
  refine (Follows.byte.bind fun opcode => ?_) session h
  exact Follows.ensure hoffset fun hoffset => (Recipe.operands hoffset pool opcode).follows

/-- A round ends the loop if nothing is left. -/
theorem instructions_succ (pool : ConstantPool) (rounds : Nat) {session : Session}
    (h : session.Sound) :
    Machine.instructions pool (rounds + 1) session =
      (if session.rest = [] then pure [] else do
        let first ← Machine.instruction pool
        return first :: (← Machine.instructions pool rounds)) session := by
  obtain ⟨left, hleft, -, hend⟩ := remaining_eq h
  show EStateM.bind Machine.remaining _ session = _
  rw [EStateM.bind, hleft]
  exact congrFun (if_congr hend rfl rfl) session

/-- What holds of the later instructions holds of all of them. -/
theorem Agrees.cons {machine : Machine (List Instruction)} {middle after : Session}
    {more : Except DecodeError (List Instruction)} (first : Instruction)
    (h : Agrees after (machine middle) (Reader.ofExcept more [])) :
    Agrees after ((machine >>= fun rest => pure (first :: rest)) middle)
      (Reader.ofExcept ((first :: ·) <$> more) []) := by
  show Agrees after (EStateM.bind machine _ middle) _
  rw [EStateM.bind]
  generalize machine middle = run at h
  cases more with
  | ok more =>
      obtain ⟨rfl, hend⟩ := Agrees.of_ok h
      show Agrees after (.ok (first :: more) after) (.ok (first :: more) [])
      rw [← hend]
      exact .ok (first :: more)
  | error error =>
      replace h : Agrees after run (.error error []) := h
      cases h
      exact .error error []

/-- With more rounds than bytes, the loop comes to the instructions of the body. -/
theorem instructions_agrees (pool : ConstantPool) {rounds : Nat} {session : Session}
    (h : session.Sound) (hrounds : session.rest.length < rounds) :
    ∃ after, session.Continues after ∧
      Agrees after (Machine.instructions pool rounds session)
        (Reader.ofExcept (instructionsFrom pool session.position.toNat session.rest) []) := by
  induction rounds generalizing session with
  | zero => omega
  | succ rounds ih =>
      rw [instructions_succ pool rounds h]
      cases hrest : session.rest with
      | nil =>
          rw [if_pos rfl, instructionsFrom]
          refine ⟨session, .refl h, ?_⟩
          show Agrees session (.ok [] session) (.ok [] [])
          rw [← hrest]
          exact .ok []
      | cons opcode operands =>
          rw [if_neg (List.cons_ne_nil _ _)]
          obtain ⟨middle, hmiddle, hagrees⟩ := instruction_agrees pool h
          show ∃ after, _ ∧ Agrees after (EStateM.bind (Machine.instruction pool) _ session) _
          rw [EStateM.bind]
          rw [hrest] at hagrees
          generalize Machine.instruction pool session = run at hagrees
          generalize hread : (Reader.u1 >>= readOperands pool session.position.toNat)
            (opcode :: operands) = result at hagrees
          cases hagrees with
          | error error rest =>
              rw [instructionsFrom_of_error hread]
              exact ⟨middle, hmiddle, .error error _⟩
          | ok first =>
              have hshrinks : middle.rest.length ≤ operands.length :=
                Shrinks.readOperands pool _ opcode hread
              have hlength := h.length_rest
              have hlength' := hmiddle.sound.length_rest
              rw [hrest, List.length_cons] at hlength hrounds
              rw [hmiddle.bytes_eq] at hlength'
              -- The position has moved by the opcode and its operands.
              have hposition : middle.position.toNat =
                  session.position.toNat + 1 + (operands.length - middle.rest.length) := by
                omega
              obtain ⟨after, hafter, hagrees⟩ := ih hmiddle.sound (by omega)
              rw [instructionsFrom_of_ok hread, ← hposition]
              exact ⟨after, hmiddle.trans hafter, hagrees.cons first⟩

/-- A method body is a byte string of its own. -/
def Work.code (pool : ConstantPool) {code : Bytes} (h : Addressable code) :
    Work (instructionsOf pool code) where
  run := inSession code (Machine.instructions pool (code.length + 1))
  exact closed := by
    have hstart := Session.sound_start h closed
    obtain ⟨after, hafter, hagrees⟩ := instructions_agrees pool hstart (Nat.lt_succ_self _)
    obtain ⟨opened, hopened, -, hrun⟩ := inSession_eq hafter hagrees
    refine ⟨opened, hopened, hrun.trans ?_⟩
    show (Except.ok (outcome (Reader.ofExcept (instructionsOf pool code) [])), _) = _
    cases instructionsOf pool code <;> rfl

/-! ## Attributes -/

theorem readRawAttribute_bind {α : Type} (pool : ConstantPool)
    (next : String → Bytes → Reader α) :
    (readRawAttribute pool >>= fun raw => next raw.1 raw.2) = (do
      let name ← Reader.u2
      let length ← Reader.u4
      let content ← Reader.bytes length.toNat
      let text ← Reader.ofExcept (pool.text name)
      next text content) := by
  simp only [readRawAttribute, bind_assoc, pure_bind]

namespace Recipe

/-- An attribute, given what its name asks for.  Its content is a byte string of its
own, no longer than a number of four bytes says. -/
def named {α : Type} (pool : ConstantPool) {decode : String → Bytes → Except DecodeError α}
    (task : (name : String) → (content : Bytes) → Addressable content →
      Work (decode name content)) :
    Recipe (readRawAttribute pool >>= fun raw => Reader.ofExcept (decode raw.1 raw.2)) :=
  .ofEq (readRawAttribute_bind pool fun name content => Reader.ofExcept (decode name content)) <|
    u2.bind fun _ => u4.bind fun length =>
    .slice (.stated length.toUInt64 length.toNat_toUInt64) fun content hcontent =>
    (lookup _).bind fun name =>
    .work (task name content (addressable_of_length hcontent length.toNat_lt))

def localEntry (pool : ConstantPool) : Recipe (LocalEntry.read pool) :=
  u2.bind fun _ => u2.bind fun _ => (text pool).bind fun _ => (text pool).bind fun _ => u2.map _

def localEntries (pool : ConstantPool) : Recipe (LocalEntry.readList pool) :=
  (localEntry pool).counted

end Recipe

def Work.codeContent (pool : ConstantPool) {content : Bytes} (h : Addressable content) :
    (kind : CodeAttribute.Kind) → Work (CodeAttribute.decodeAs pool content kind)
  | .describedLocals | .typedLocals => .map _ (.whole (Recipe.localEntries pool) _ h)
  | .typeAnnotations => .map _ (.whole (Recipe.typeUses pool) _ h)
  | .other => .done _

def Recipe.body (pool : ConstantPool) : Recipe (Body.read pool) :=
  u2.bind fun _ => u2.bind fun _ => u4.bind fun size =>
  .slice (.stated size.toUInt64 size.toNat_toUInt64) fun _ hcode =>
  (Recipe.work (.code pool (addressable_of_length hcode size.toNat_lt))).bind fun _ =>
  u2.bind fun handlers => (skipRows handlers 8 (by decide)).bind fun _ =>
  (counted (named pool fun name _ h => .codeContent pool h (.ofName name))).map _

def Work.content (pool : ConstantPool) {content : Bytes} (h : Addressable content) :
    (kind : Attribute.Kind) → Work (Attribute.decodeAs pool content kind)
  | .signature => .map _ (.whole (Recipe.text pool) _ h)
  | .annotations => .map _ (.whole (Recipe.annotations pool) _ h)
  | .parameterAnnotations => .map _ (.whole (Recipe.parameterAnnotations pool) _ h)
  | .typeAnnotations => .map _ (.whole (Recipe.typeUses pool) _ h)
  | .code => .map _ (.whole (Recipe.body pool) _ h)
  | .other => .done _

namespace Recipe

def attributes (pool : ConstantPool) : Recipe (Attribute.readList pool) :=
  counted (named pool fun name _ h => .content pool h (.ofName name))

/-! ## Members and the whole file -/

def field (pool : ConstantPool) : Recipe (readField pool) :=
  u2.bind fun _ => (text pool).bind fun _ => (text pool).bind fun _ => (attributes pool).map _

def method (pool : ConstantPool) : Recipe (readMethod pool) :=
  u2.bind fun _ => (text pool).bind fun _ => (text pool).bind fun _ => (attributes pool).map _

def classFile : Recipe readClass :=
  u4.bind fun _ => .choice (fun _ => .fail _) fun _ =>
  u2.bind fun _ => u2.bind fun _ => pool.bind fun pool => u2.bind fun _ =>
  (className pool).bind fun _ => u2.bind fun _ => u2.bind fun interfaces =>
  (skipRows interfaces 2 (by decide)).bind fun _ =>
  (field pool).counted.bind fun _ => (method pool).counted.bind fun _ => (attributes pool).map _

end Recipe

/-- Decode a whole class file on words, and keep the journals of all byte strings read. -/
def decodeOnWords (bytes : Bytes) : Except Fault (Except DecodeError DecodedClass) × List Journal :=
  inSession bytes (Recipe.classFile.run >>= Machine.finish .trailingBytes) []

/-- A class file whose length is a positive number in a signed word is decoded on words
without a fault, to the result of `decode`, whether that is a class or an error.  In
every byte string that is opened on the way the position moves forward, within the
bytes, and only for a read that succeeds.  The lengths of all tables are exact for
every count that can be written, and so are the code units for all bytes. -/
theorem decode_safe_on_words {bytes : Bytes} (hlength : bytes.length < 0x8000000000000000) :
    (∃ journals, decodeOnWords bytes = (.ok (decode bytes), journals) ∧
      (∃ journal ∈ journals, journal.bytes = bytes) ∧
      ∀ journal ∈ journals, journal.InBounds) ∧
    (∀ count : UInt16, ∀ width ∈ [2, 6, 8],
      Word.Computes (Word.mul count.toUInt64 width) (count.toNat * width.toNat)) ∧
    (∀ steps : UInt8, Word.Computes (Word.mul steps.toUInt64 2) (steps.toNat * 2)) ∧
    (∀ low high : Int32, low.toInt ≤ high.toInt →
      Word.Computes (Word.jumpTable low high) (4 * (high.toInt - low.toInt + 1).toNat)) ∧
    (∀ pairs : Int32, 0 ≤ pairs.toInt →
      Word.Computes (Word.pairTable pairs) (8 * pairs.toInt.toNat)) ∧
    ∀ first second third : UInt8,
      (Word.unitOfTwo first (Word.payload second)).toNat =
        first.toNat % 32 * 64 + second.toNat % 64 ∧
      (Word.unitOfThree first (Word.payload second) (Word.payload third)).toNat =
        first.toNat % 16 * 4096 + second.toNat % 64 * 64 + third.toNat % 64 := by
  obtain ⟨journals, hjournals, hmain, hrun⟩ :=
    Recipe.classFile.follows.inSession_finish .trailingBytes hlength []
  rw [List.nil_append] at hrun
  refine ⟨⟨journals, hrun, hmain, hjournals⟩, ?_, ?_, fun _ _ => Word.jumpTable_exact,
    fun _ => Word.pairTable_exact, ?_⟩
  · intro count width hwidth
    have hmax : width.toNat ≤ 8 := by
      simp only [List.mem_cons, List.not_mem_nil, or_false] at hwidth
      rcases hwidth with rfl | rfl | rfl <;> decide
    exact (Length.rows count.toUInt64 width count.toNat_toUInt64 count.toNat_lt hmax).exact
  · intro steps
    have hmax : steps.toNat < 65536 := Nat.lt_trans steps.toNat_lt (by decide)
    exact (Length.rows steps.toUInt64 2 steps.toNat_toUInt64 hmax (by decide)).exact
  · intro first second third
    exact ⟨Word.toNat_unitOfTwo first second, Word.toNat_unitOfThree first second third⟩

/-- Three byte strings are read for a class with one method: the code of its body, the
attribute that holds the body, and the file. -/
theorem decode_smallDraft_on_words :
    smallDraft.write.bytes.length < 0x8000000000000000 ∧
    ∃ journals, decodeOnWords smallDraft.write.bytes =
        (.ok (decode smallDraft.write.bytes), journals) ∧
      journals.map (·.bytes.length) = [4, 16, 190] ∧ ∀ journal ∈ journals, journal.InBounds := by
  have hlength : smallDraft.write.bytes.length < 0x8000000000000000 := by decide +kernel
  obtain ⟨⟨journals, hrun, -, hjournals⟩, -⟩ := decode_safe_on_words hlength
  have hopened : (decodeOnWords smallDraft.write.bytes).2.map (·.bytes.length) = [4, 16, 190] := by
    decide +kernel
  rw [hrun] at hopened
  exact ⟨hlength, journals, hrun, hopened, hjournals⟩

end ClassFile
end Classpath
