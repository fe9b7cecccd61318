import Classpath.ClassFile.Decode
import Classpath.Proofs.ClassFile.Reads

/-!
# Class files end where their own numbers say

What the parts of a class file hold decides how many bytes they take.  So a reader
that succeeds has taken a piece of its input that no continuation changes, and
when the piece is cut the reader asks for the rest before it objects to anything
else.  This passes from the parts to the whole file: a class file that decodes is
neither the beginning of another one nor the continuation of one.
-/

namespace Classpath
namespace ClassFile

/-- From every proper beginning of the bytes the reader fails at the end of its
input. -/
def RunsShort {α : Type} (reader : Reader α) (bytes : Bytes) : Prop :=
  ∀ cut missing, bytes = cut ++ missing → missing ≠ [] →
    ∃ left, reader cut = .error .unexpectedEnd left

/-- Whenever the reader succeeds, the piece that it took decides the value, and is
needed up to its last byte. -/
def SelfDelimiting {α : Type} (reader : Reader α) : Prop :=
  ∀ input value rest, reader input = .ok value rest →
    ∃ taken, input = taken ++ rest ∧ Reads reader taken value ∧ RunsShort reader taken

theorem RunsShort.nil {α : Type} (reader : Reader α) : RunsShort reader [] := by
  intro cut missing hsplit hmissing
  exact absurd (List.append_eq_nil_iff.1 hsplit.symm).2 hmissing

theorem RunsShort.bind {α β : Type} {first : Reader α} {next : α → Reader β}
    {bytes bytes' : Bytes} {value : α} (hreads : Reads first bytes value)
    (hfirst : RunsShort first bytes) (hnext : RunsShort (next value) bytes') :
    RunsShort (first >>= next) (bytes ++ bytes') := by
  intro cut missing hsplit hmissing
  -- Once the first reader has its bytes, the second one decides.
  have hpassed : ∀ more, bytes' = more ++ missing →
      ∃ left, (first >>= next) (bytes ++ more) = .error .unexpectedEnd left := by
    intro more hmore
    obtain ⟨left, hleft⟩ := hnext more missing hmore hmissing
    refine ⟨left, ?_⟩
    show EStateM.bind first next _ = _
    rw [EStateM.bind, hreads]
    exact hleft
  rcases List.append_eq_append_iff.1 hsplit with ⟨more, rfl, hmore⟩ | ⟨lost, rfl, rfl⟩
  · exact hpassed more hmore
  · cases lost with
    | nil =>
        have hshort := hpassed [] rfl
        simpa using hshort
    | cons byte lost =>
        obtain ⟨left, hleft⟩ := hfirst cut (byte :: lost) rfl (by simp)
        refine ⟨left, ?_⟩
        show EStateM.bind first next _ = _
        rw [EStateM.bind, hleft]

namespace SelfDelimiting

variable {α β : Type}

/-! ## Readers built from others -/

theorem pure (value : α) : SelfDelimiting (Pure.pure value : Reader α) := by
  intro input value' rest h
  have hrun : EStateM.Result.ok value input = .ok value' rest := h
  obtain ⟨rfl, rfl⟩ := EStateM.Result.ok.inj hrun
  exact ⟨[], rfl, Reads.pure value, RunsShort.nil _⟩

theorem throw (error : DecodeError) : SelfDelimiting (MonadExcept.throw error : Reader α) := by
  intro input value rest h
  have hrun : EStateM.Result.error error input = .ok value rest := h
  exact absurd hrun (by simp)

/-- Nothing is read after a failure. -/
theorem throw_bind (error : DecodeError) (next : α → Reader β) :
    SelfDelimiting ((MonadExcept.throw error : Reader α) >>= next) := by
  intro input value rest h
  have hrun : EStateM.Result.error error input = .ok value rest := h
  exact absurd hrun (by simp)

theorem bind {first : Reader α} {next : α → Reader β} (hfirst : SelfDelimiting first)
    (hnext : ∀ value, SelfDelimiting (next value)) : SelfDelimiting (first >>= next) := by
  intro input value rest h
  simp only [Bind.bind, EStateM.bind] at h
  split at h
  · next middle left hrun =>
      obtain ⟨taken, rfl, hreads, hshort⟩ := hfirst _ _ _ hrun
      obtain ⟨taken', rfl, hreads', hshort'⟩ := hnext middle _ _ _ h
      refine ⟨taken ++ taken', by simp, hreads.bind hreads', hshort.bind hreads hshort'⟩
  · simp at h

theorem map {reader : Reader α} (h : SelfDelimiting reader) (f : α → β) :
    SelfDelimiting (reader >>= fun value => Pure.pure (f value)) :=
  h.bind fun _ => pure _

theorem ofExcept (result : Except DecodeError α) : SelfDelimiting (Reader.ofExcept result) := by
  cases result with
  | ok value => exact pure value
  | error error => exact throw error

theorem times {item : Reader α} (h : SelfDelimiting item) (n : Nat) :
    SelfDelimiting (Reader.times n item) := by
  induction n with
  | zero => exact pure []
  | succ n ih => exact h.bind fun _ => ih.map _

/-! ## Bytes and numbers -/

theorem bytes (n : Nat) : SelfDelimiting (Reader.bytes n) := by
  intro input value rest h
  unfold Reader.bytes at h
  split at h
  · next taken left hsplit =>
      obtain ⟨rfl, rfl⟩ := EStateM.Result.ok.inj h
      obtain ⟨rfl, hlength⟩ := splitBytes?_eq_some hsplit
      refine ⟨taken, rfl, Reads.bytes_of_length hlength, fun cut missing hcut hmissing => ?_⟩
      -- There are not enough bytes before the cut.
      have hnone : splitBytes? n cut = none := by
        rw [Option.eq_none_iff_forall_not_mem]
        rintro ⟨first, left⟩ hmem
        obtain ⟨rfl, hfirst⟩ := splitBytes?_eq_some hmem
        have hpos := List.length_pos_iff.2 hmissing
        rw [hcut, List.length_append, List.length_append] at hlength
        omega
      exact ⟨cut, by rw [Reader.bytes, hnone]⟩
  · simp at h

theorem skip (n : Nat) : SelfDelimiting (Reader.skip n) := (bytes n).map _

theorem u1 : SelfDelimiting Reader.u1 := by
  intro input value rest h
  cases input with
  | nil => simp [Reader.u1] at h
  | cons byte input =>
      obtain ⟨rfl, rfl⟩ := EStateM.Result.ok.inj h
      refine ⟨[byte], rfl, Reads.u1 byte, fun cut missing hcut hmissing => ?_⟩
      cases cut with
      | nil => exact ⟨[], rfl⟩
      | cons first cut =>
          have hlost : missing = [] := by simp_all
          exact absurd hlost hmissing

theorem u2 : SelfDelimiting Reader.u2 := (bytes 2).map _

theorem u4 : SelfDelimiting Reader.u4 := (bytes 4).map _

theorem u8 : SelfDelimiting Reader.u8 := u4.bind fun _ => u4.map _

theorem counted {item : Reader α} (h : SelfDelimiting item) :
    SelfDelimiting (Reader.counted item) :=
  u2.bind fun _ => h.times _

/-! ## The constant pool -/

theorem utf8Constant : SelfDelimiting Constant.readUtf8 :=
  u2.bind fun _ => (bytes _).bind fun _ => (ofExcept _).map _

theorem pairConstant (build : UInt16 → UInt16 → Constant) :
    SelfDelimiting (Constant.readPair build) :=
  u2.bind fun _ => u2.map _

theorem constantContent (kind : ConstantKind) : SelfDelimiting (Constant.readAs kind) := by
  cases kind with
  | utf8 => exact utf8Constant
  | integer | float => exact u4.map _
  | long | double => exact u8.map _
  | classInfo | string | methodType | moduleInfo | packageInfo => exact u2.map _
  | methodHandle => exact u1.bind fun _ => u2.map _
  | fieldRef | methodRef | interfaceMethodRef | nameAndType | dynamic | invokeDynamic =>
      exact pairConstant _

theorem constant : SelfDelimiting Constant.read := by
  refine u1.bind fun tag => ?_
  split
  · exact constantContent _
  · exact throw _

theorem slots (n : Nat) : SelfDelimiting (ConstantPool.readSlots n) := by
  induction n using ConstantPool.readSlots.induct with
  | case1 => exact pure []
  | case2 =>
      refine constant.bind fun value => ?_
      split
      · exact throw _
      · exact pure _
  | case3 n ih ih' =>
      refine constant.bind fun value => ?_
      split
      · exact ih.map _
      · exact ih'.map _

theorem pool : SelfDelimiting ConstantPool.read :=
  u2.bind fun _ => (slots _).map _

theorem text (pool : ConstantPool) : SelfDelimiting (Reader.text pool) :=
  u2.bind fun _ => ofExcept _

theorem className (pool : ConstantPool) : SelfDelimiting (Reader.className pool) :=
  u2.bind fun _ => ofExcept _

/-! ## Members and the whole file -/

/-- The length of an attribute precedes its content, so nothing that decoding the
content can object to comes before the last byte is there. -/
theorem namedAttribute (pool : ConstantPool) : SelfDelimiting (Attribute.read pool) := by
  have hraw : SelfDelimiting (readRawAttribute pool) :=
    u2.bind fun _ => u4.bind fun _ => (bytes _).bind fun _ => (ofExcept _).map _
  exact hraw.bind fun _ => ofExcept _

theorem attributes (pool : ConstantPool) : SelfDelimiting (Attribute.readList pool) :=
  (namedAttribute pool).counted

theorem field (pool : ConstantPool) : SelfDelimiting (readField pool) :=
  u2.bind fun _ => (text pool).bind fun _ => (text pool).bind fun _ => (attributes pool).map _

theorem method (pool : ConstantPool) : SelfDelimiting (readMethod pool) :=
  u2.bind fun _ => (text pool).bind fun _ => (text pool).bind fun _ => (attributes pool).map _

theorem classFile : SelfDelimiting readClass := by
  refine u4.bind fun magic => ?_
  dsimp only
  split
  · exact throw_bind _ _
  · exact u2.bind fun _ => u2.bind fun _ => pool.bind fun pool => u2.bind fun _ =>
      (className pool).bind fun _ => u2.bind fun _ => u2.bind fun _ => (skip _).bind fun _ =>
      (field pool).counted.bind fun _ => (method pool).counted.bind fun _ => (attributes pool).map _

end SelfDelimiting

section Whole

variable {α : Type} {reader : Reader α} {input : Bytes} {value : α}

/-- A reader that uses up a byte string takes it as one piece. -/
theorem SelfDelimiting.of_onWhole (h : SelfDelimiting reader) {leftOver : Nat → DecodeError}
    (hwhole : reader.onWhole leftOver input = .ok value) :
    Reads reader input value ∧ RunsShort reader input := by
  unfold Reader.onWhole at hwhole
  split at hwhole
  · next found hrun =>
      obtain rfl := Except.ok.inj hwhole
      obtain ⟨taken, rfl, hreads, hshort⟩ := h _ _ _ hrun
      rw [List.append_nil]
      exact ⟨hreads, hshort⟩
  · simp at hwhole
  · simp at hwhole

/-- Bytes after the piece are left over, all of them. -/
theorem Reads.onWhole_append (h : Reads reader input value) (leftOver : Nat → DecodeError)
    {extra : Bytes} (hextra : extra ≠ []) :
    reader.onWhole leftOver (input ++ extra) = .error (leftOver extra.length) := by
  obtain ⟨byte, rest, rfl⟩ := List.exists_cons_of_ne_nil hextra
  rw [Reader.onWhole, h]

theorem RunsShort.onWhole (h : RunsShort reader input) (leftOver : Nat → DecodeError)
    {cut : Bytes} (hcut : cut <+: input) (hne : cut ≠ input) :
    reader.onWhole leftOver cut = .error .unexpectedEnd := by
  obtain ⟨missing, rfl⟩ := hcut
  have hmissing : missing ≠ [] := by
    rintro rfl
    exact hne (List.append_nil cut).symm
  obtain ⟨left, hleft⟩ := h cut missing rfl hmissing
  rw [Reader.onWhole, hleft]

end Whole

/-- Of the byte strings that decode, none is a beginning of another.  One that is
cut anywhere fails for want of bytes, and one that is continued fails with the
number of bytes too many. -/
theorem decode_prefix_free {bytes : Bytes} {decoded : DecodedClass}
    (hdecode : decode bytes = .ok decoded) :
    (∀ other, (∃ result, decode other = .ok result) → other <+: bytes → other = bytes) ∧
    (∀ cut, cut <+: bytes → cut ≠ bytes → decode cut = .error .unexpectedEnd) ∧
    ∀ extra, extra ≠ [] → decode (bytes ++ extra) = .error (.trailingBytes extra.length) := by
  obtain ⟨hreads, hshort⟩ := SelfDelimiting.classFile.of_onWhole hdecode
  have hcut : ∀ cut, cut <+: bytes → cut ≠ bytes → decode cut = .error .unexpectedEnd :=
    fun cut hprefix hne => hshort.onWhole .trailingBytes hprefix hne
  refine ⟨?_, hcut, fun extra hextra => hreads.onWhole_append .trailingBytes hextra⟩
  rintro other ⟨result, hresult⟩ hprefix
  by_contra hne
  rw [hcut other hprefix hne] at hresult
  simp at hresult

/-- A class with a field and a method body. -/
def smallDraft : ClassDraft where
  name := "pkg/Small"
  fields := [{ name := "next", descriptor := "Lpkg/Small;" }]
  methods := [{ name := "run", descriptor := "()V", code := [.new "pkg/Other", .exit] }]

theorem decode_smallDraft_prefix_free :
    decode smallDraft.write.bytes = .ok ⟨"pkg/Small", 52,
      { fields := [⟨"Lpkg/Small;", none, []⟩]
        methods := [{
          name := "run", descriptor := "()V"
          instructions := [.type .new "pkg/Other", .plain 0xb1] }] }⟩ ∧
    (∀ n < smallDraft.write.bytes.length,
      decode (smallDraft.write.bytes.take n) = .error .unexpectedEnd) ∧
    decode (smallDraft.write.bytes ++ [0xCA, 0xFE]) = .error (.trailingBytes 2) := by
  have hdecode : decode smallDraft.write.bytes = .ok ⟨"pkg/Small", 52,
      { fields := [⟨"Lpkg/Small;", none, []⟩]
        methods := [{
          name := "run", descriptor := "()V"
          instructions := [.type .new "pkg/Other", .plain 0xb1] }] }⟩ := by
    decide +kernel
  obtain ⟨_, hcut, hextra⟩ := decode_prefix_free hdecode
  refine ⟨hdecode, fun n hn => hcut _ (List.take_prefix _ _) fun heq => ?_, hextra _ (by simp)⟩
  have hlength := congrArg List.length heq
  rw [List.length_take] at hlength
  omega

end ClassFile
end Classpath
