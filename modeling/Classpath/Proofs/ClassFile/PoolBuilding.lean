import Classpath.Proofs.ClassFile.PoolEntries
import Classpath.Proofs.Text.ModifiedUtf8

/-!
# Pools under construction

A builder numbers its constants as a pool that is read does, so a number that
was granted once refers to its constant in every pool the builder grows into.
Statements about a writer are made about all such later pools.
-/

namespace Classpath
namespace ClassFile

/-- Two constants with the same bytes are the same. -/
theorem Spelling.unique {a b : Constant} {bytes : Bytes} (ha : Spelling a bytes)
    (hb : Spelling b bytes) : a = b := by
  have h := (ha.reads []).symm.trans (hb.reads [])
  exact (EStateM.Result.ok.inj h).1

namespace PoolBuilder

/-- The entries with their numbers, if the first of them gets `next`. -/
def numbered : (next : Nat) → List PoolEntry → List (Bytes × UInt16)
  | _, [] => []
  | next, entry :: rest =>
      (entry.bytes, UInt16.ofNat next) :: numbered (next + entry.slots.length) rest

/-- The builder after the entries were added in order. -/
def ofEntries (entries : List PoolEntry) : PoolBuilder where
  entries := numbered 1 entries
  next := UInt16.ofNat (1 + (ConstantPool.slotsOf entries).length)

theorem numbered_append (next : Nat) (first second : List PoolEntry) :
    numbered next (first ++ second) =
      numbered next first ++ numbered (next + (ConstantPool.slotsOf first).length) second := by
  induction first generalizing next with
  | nil => rfl
  | cons entry first ih =>
      have hslots : (ConstantPool.slotsOf (entry :: first)).length =
          entry.slots.length + (ConstantPool.slotsOf first).length := by
        rw [ConstantPool.slotsOf, List.flatMap_cons, List.length_append]
        rfl
      rw [List.cons_append, numbered, numbered, ih, hslots, Nat.add_assoc, List.cons_append]

theorem ofEntries_append_singleton (entries : List PoolEntry) (entry : PoolEntry) :
    ofEntries (entries ++ [entry]) =
      { entries := (ofEntries entries).entries ++ [(entry.bytes, (ofEntries entries).next)]
        next := (ofEntries entries).next + UInt16.ofNat entry.slots.length } := by
  have hslots : (ConstantPool.slotsOf (entries ++ [entry])).length =
      (ConstantPool.slotsOf entries).length + entry.slots.length := by
    rw [ConstantPool.slotsOf, List.flatMap_append, List.length_append, List.flatMap_singleton]
    rfl
  rw [ofEntries, numbered_append, hslots, ← Nat.add_assoc, UInt16.ofNat_add]
  rfl

/-- A number that is found is the number of an entry with these bytes. -/
theorem exists_of_lookup_numbered {next : Nat} {entries : List PoolEntry} {constant : Bytes}
    {index : UInt16} (h : (numbered next entries).lookup constant = some index) :
    ∃ before entry after, entries = before ++ entry :: after ∧ entry.bytes = constant ∧
      index = UInt16.ofNat (next + (ConstantPool.slotsOf before).length) := by
  induction entries generalizing next with
  | nil => cases h
  | cons entry rest ih =>
      rw [numbered, List.lookup_cons] at h
      by_cases hbytes : constant = entry.bytes
      · rw [hbytes, beq_self_eq_true] at h
        cases h
        exact ⟨[], entry, rest, rfl, hbytes.symm, rfl⟩
      · rw [beq_false_of_ne hbytes] at h
        obtain ⟨before, found, after, rfl, hfound, hindex⟩ := ih h
        refine ⟨entry :: before, found, after, rfl, hfound, ?_⟩
        rw [hindex, ConstantPool.slotsOf, ConstantPool.slotsOf, List.flatMap_cons,
          List.length_append, Nat.add_assoc]

end PoolBuilder

namespace ConstantPool

/-- The numbers of all entries fit in two bytes. -/
def Fits (entries : List PoolEntry) : Prop := (slotsOf entries).length + 1 < 65536

/-- An entry has the number after those of the entries before it. -/
theorem holds_ofEntries {before after : List PoolEntry} {entry : PoolEntry}
    (hfits : Fits (before ++ entry :: after)) :
    (ofEntries (before ++ entry :: after)).Holds (.ofNat (1 + (slotsOf before).length))
      entry.constant := by
  have hslots : slotsOf (before ++ entry :: after) =
      slotsOf before ++ (entry.slots ++ slotsOf after) := by
    rw [slotsOf, List.flatMap_append, List.flatMap_cons]
    rfl
  have hfirst : ∃ rest, entry.slots = some entry.constant :: rest := by
    unfold PoolEntry.slots
    split
    · exact ⟨[none], rfl⟩
    · exact ⟨[], rfl⟩
  obtain ⟨rest, hrest⟩ := hfirst
  have hindex : (UInt16.ofNat (1 + (slotsOf before).length)).toNat =
      (slotsOf before).length + 1 := by
    have hlength : (slotsOf before).length ≤ (slotsOf (before ++ entry :: after)).length := by
      rw [hslots, List.length_append]
      omega
    unfold Fits at hfits
    rw [Nat.add_comm]
    exact Nat.mod_eq_of_lt (by omega)
  -- Number zero is unused, so the entry follows the slots of those before it.
  show (none :: slotsOf (before ++ entry :: after))[_]? = _
  rw [hindex, List.getElem?_cons_succ, hslots, hrest, List.getElem?_append_right (Nat.le_refl _),
    Nat.sub_self]
  rfl

end ConstantPool

/-! ## What writers grant -/

/-- The writer only adds entries, and its result meets the condition in every
pool that the builder grows into and that fits. -/
def Writes {α : Type} (writer : PoolWriter α) (post : ConstantPool → α → Prop) : Prop :=
  ∀ entries, ∃ value more,
    writer.run (.ofEntries entries) = (value, .ofEntries (entries ++ more)) ∧
      ∀ later, ConstantPool.Fits (entries ++ more ++ later) →
        post (.ofEntries (entries ++ more ++ later)) value

namespace Writes

variable {α β : Type}

theorem mono {writer : PoolWriter α} {post weaker : ConstantPool → α → Prop}
    (h : Writes writer post) (himp : ∀ pool value, post pool value → weaker pool value) :
    Writes writer weaker := by
  intro entries
  obtain ⟨value, more, hrun, hpost⟩ := h entries
  exact ⟨value, more, hrun, fun later hfits => himp _ _ (hpost later hfits)⟩

theorem pure {value : α} {post : ConstantPool → α → Prop} (h : ∀ pool, post pool value) :
    Writes (Pure.pure value) post := by
  intro entries
  refine ⟨value, [], ?_, fun later _ => h _⟩
  rw [List.append_nil]
  rfl

/-- What the first writer grants may be used about the result of the next. -/
theorem bind {first : PoolWriter α} {next : α → PoolWriter β} {granted : ConstantPool → α → Prop}
    {post : ConstantPool → β → Prop} (hfirst : Writes first granted)
    (hnext : ∀ value, Writes (next value) fun pool result => granted pool value → post pool result) :
    Writes (first >>= next) post := by
  intro entries
  obtain ⟨value, more, hrun, hgranted⟩ := hfirst entries
  obtain ⟨result, rest, hrest, hpost⟩ := hnext value (entries ++ more)
  refine ⟨result, more ++ rest, ?_, ?_⟩
  · rw [StateT.run_bind, hrun, ← List.append_assoc]
    exact hrest
  · intro later hfits
    -- The entries of the second writer are later ones to the first.
    have hassoc : entries ++ (more ++ rest) ++ later = entries ++ more ++ (rest ++ later) := by
      simp only [List.append_assoc]
    have hassoc' : entries ++ (more ++ rest) ++ later = entries ++ more ++ rest ++ later := by
      simp only [List.append_assoc]
    have hvalue := hgranted (rest ++ later) (hassoc ▸ hfits)
    rw [← hassoc] at hvalue
    rw [hassoc'] at hfits hvalue ⊢
    exact hpost later hfits hvalue

theorem mapM {f : α → PoolWriter β} {post : α → ConstantPool → β → Prop} {items : List α}
    (h : ∀ x ∈ items, Writes (f x) (post x)) :
    Writes (items.mapM f) fun pool results =>
      List.Forall₂ (fun result x => post x pool result) results items := by
  induction items with
  | nil =>
      rw [List.mapM_nil]
      exact pure fun pool => .nil
  | cons x items ih =>
      rw [List.mapM_cons]
      refine (h x List.mem_cons_self).bind fun first => ?_
      refine (ih fun y hy => h y (List.mem_cons_of_mem x hy)).bind fun rest => ?_
      exact pure fun pool hrest hfirst => .cons hfirst hrest

/-- An interned constant can be looked up under its number. -/
theorem intern (entry : PoolEntry) {slots : UInt16}
    (hslots : slots = UInt16.ofNat entry.slots.length) :
    Writes (PoolBuilder.intern entry.bytes slots) fun pool index =>
      pool.Holds index entry.constant := by
  intro entries
  cases hfind : (PoolBuilder.ofEntries entries).find? entry.bytes with
  | some index =>
      -- The bytes are there already, and they are those of one constant only.
      obtain ⟨before, found, after, rfl, hbytes, rfl⟩ :=
        PoolBuilder.exists_of_lookup_numbered hfind
      have hconstant : found.constant = entry.constant :=
        found.spelling.unique (hbytes ▸ entry.spelling)
      refine ⟨.ofNat (1 + (ConstantPool.slotsOf before).length), [], ?_, ?_⟩
      · rw [List.append_nil]
        show PoolBuilder.intern _ _ _ = _
        rw [PoolBuilder.intern, hfind]
      · intro later hfits
        rw [← hconstant]
        rw [List.append_nil, List.append_assoc, List.cons_append] at hfits ⊢
        exact ConstantPool.holds_ofEntries hfits
  | none =>
      refine ⟨(PoolBuilder.ofEntries entries).next, [entry], ?_, ?_⟩
      · show PoolBuilder.intern _ _ _ = _
        rw [PoolBuilder.intern, hfind, PoolBuilder.ofEntries_append_singleton, hslots]
      · intro later hfits
        rw [List.append_assoc, List.singleton_append] at hfits ⊢
        exact ConstantPool.holds_ofEntries hfits

end Writes

/-! ## Constants by kind -/

/-- A text that a constant can hold: plain characters, and few enough bytes for
their number to be written. -/
structure IsStorable (text : String) : Prop where
  plain : ∀ c ∈ text.toList, Text.IsPlain c
  fits : (Text.utf8Bytes text).length < 65536

namespace PoolWriter

theorem writes_rawText {encoded : Bytes} {text : String} (hlength : encoded.length < 65536)
    (htext : Text.ofModifiedUtf8? encoded = some text) :
    Writes (rawText encoded) fun pool index => pool.Holds index (.utf8 text) :=
  .intern ⟨.utf8 text, _, .utf8 hlength htext⟩ rfl

theorem writes_text {value : String} (h : IsStorable value) :
    Writes (text value) fun pool index => pool.Holds index (.utf8 value) :=
  writes_rawText h.fits (Text.ofModifiedUtf8?_utf8Bytes h.plain)

theorem writes_integer (value : Int32) :
    Writes (integer value) fun pool index => pool.Holds index (.integer value) :=
  .intern ⟨.integer value, _, .integer value⟩ rfl

theorem writes_long (value : Int64) :
    Writes (long value) fun pool index => pool.Holds index (.long value) :=
  .intern ⟨.long value, _, .long value⟩ rfl

theorem writes_classInfo {name : String} (h : IsStorable name) :
    Writes (classInfo name) fun pool index =>
      ∃ ref : ClassRef pool, ref.index = index ∧ ref.name.text = name := by
  refine (writes_text h).bind fun nameIndex => ?_
  refine (Writes.intern ⟨.classInfo nameIndex, _, .classInfo nameIndex⟩ rfl).mono ?_
  intro pool index hclass hname
  exact ⟨⟨index, ⟨nameIndex, name, hname⟩, hclass⟩, rfl, rfl⟩

theorem writes_nameAndType {name descriptor : String} (hname : IsStorable name)
    (hdescriptor : IsStorable descriptor) :
    Writes (nameAndType name descriptor) fun _ _ => True := by
  refine (writes_text hname).bind fun nameIndex => ?_
  refine (writes_text hdescriptor).bind fun descriptorIndex => ?_
  refine (Writes.intern ⟨.nameAndType nameIndex descriptorIndex, _,
    .nameAndType nameIndex descriptorIndex⟩ rfl).mono ?_
  intro _ _ _ _ _
  trivial

/-- Fields and methods differ only in their tag. -/
theorem writes_member {tag : UInt8} {build : UInt16 → UInt16 → Constant}
    (hspelling : ∀ owner nameAndType, Spelling (build owner nameAndType)
      (tag :: (indexBytes owner ++ indexBytes nameAndType)))
    (hmember : ∀ owner nameAndType, IsMemberOf owner (build owner nameAndType))
    (hwide : ∀ owner nameAndType, (build owner nameAndType).isWide = false)
    {owner name descriptor : String} (howner : IsStorable owner) (hname : IsStorable name)
    (hdescriptor : IsStorable descriptor) :
    Writes (member tag owner name descriptor) fun pool index =>
      ∃ ref : MemberRef pool, ref.index = index ∧ ref.owner.name.text = owner := by
  refine (writes_classInfo howner).bind fun ownerIndex => ?_
  refine (writes_nameAndType hname hdescriptor).bind fun nameAndType => ?_
  have hslots : (1 : UInt16) = UInt16.ofNat (PoolEntry.mk _ _
      (hspelling ownerIndex nameAndType)).slots.length := by
    rw [PoolEntry.slots, hwide]
    rfl
  refine (Writes.intern _ hslots).mono ?_
  rintro pool index hholds _ ⟨ownerRef, rfl, hownerName⟩
  exact ⟨⟨index, ownerRef, _, hmember ownerRef.index nameAndType, hholds⟩, rfl, hownerName⟩

theorem writes_fieldRef {owner name descriptor : String} (howner : IsStorable owner)
    (hname : IsStorable name) (hdescriptor : IsStorable descriptor) :
    Writes (fieldRef owner name descriptor) fun pool index =>
      ∃ ref : MemberRef pool, ref.index = index ∧ ref.owner.name.text = owner :=
  writes_member .fieldRef (fun _ => .fieldRef) (fun _ _ => rfl) howner hname hdescriptor

theorem writes_methodRef {owner name descriptor : String} (howner : IsStorable owner)
    (hname : IsStorable name) (hdescriptor : IsStorable descriptor) :
    Writes (methodRef owner name descriptor) fun pool index =>
      ∃ ref : MemberRef pool, ref.index = index ∧ ref.owner.name.text = owner :=
  writes_member .methodRef (fun _ => .methodRef) (fun _ _ => rfl) howner hname hdescriptor

end PoolWriter

/-- A request that can be read back: storable texts, and bytes that are modified
UTF-8. -/
def PoolRequest.IsSound : PoolRequest → Prop
  | text value => IsStorable value
  | rawText encoded => encoded.length < 65536 ∧ (Text.ofModifiedUtf8? encoded).isSome
  | integer _ | long _ => True
  | classInfo name => IsStorable name
  | fieldRef owner name descriptor | methodRef owner name descriptor =>
      IsStorable owner ∧ IsStorable name ∧ IsStorable descriptor

/-- Looked up under the number, the pool yields what was asked for. -/
def PoolRequest.IsAnsweredBy (pool : ConstantPool) (index : UInt16) : PoolRequest → Prop
  | text value => pool.text index = .ok value
  | rawText encoded =>
      ∃ value, Text.ofModifiedUtf8? encoded = some value ∧ pool.text index = .ok value
  | integer value => pool.get index = .ok (.integer value)
  | long value => pool.get index = .ok (.long value)
  | classInfo name => pool.className index = .ok name
  | fieldRef owner _ _ | methodRef owner _ _ => pool.memberOwner index = .ok owner

theorem PoolRequest.writes_answer {request : PoolRequest} (h : request.IsSound) :
    Writes request.write fun pool index => request.IsAnsweredBy pool index := by
  have hmember : ∀ (owner : String) (pool : ConstantPool) (index : UInt16),
      (∃ ref : MemberRef pool, ref.index = index ∧ ref.owner.name.text = owner) →
        pool.memberOwner index = .ok owner := by
    rintro owner pool index ⟨ref, rfl, rfl⟩
    exact ConstantPool.memberOwner_of_holds ref.holds ref.isMember ref.owner.holds
      ref.owner.name.holds
  cases request with
  | text value =>
      exact (PoolWriter.writes_text h).mono fun _ _ hheld => ConstantPool.text_of_holds hheld
  | rawText encoded =>
      obtain ⟨text, htext⟩ := Option.isSome_iff_exists.1 h.2
      exact (PoolWriter.writes_rawText h.1 htext).mono fun _ _ hheld =>
        ⟨text, htext, ConstantPool.text_of_holds hheld⟩
  | integer value =>
      exact (PoolWriter.writes_integer value).mono fun _ _ hheld => ConstantPool.get_of_holds hheld
  | long value =>
      exact (PoolWriter.writes_long value).mono fun _ _ hheld => ConstantPool.get_of_holds hheld
  | classInfo name =>
      refine (PoolWriter.writes_classInfo h).mono ?_
      rintro pool index ⟨ref, rfl, rfl⟩
      exact ConstantPool.className_of_holds ref.holds ref.name.holds
  | fieldRef owner name descriptor =>
      exact (PoolWriter.writes_fieldRef h.1 h.2.1 h.2.2).mono (hmember owner)
  | methodRef owner name descriptor =>
      exact (PoolWriter.writes_methodRef h.1 h.2.1 h.2.2).mono (hmember owner)

theorem PoolRequest.writes {request : PoolRequest} (h : request.IsSound) :
    Writes request.write fun _ _ => True :=
  (writes_answer h).mono fun _ _ _ => trivial

end ClassFile
end Classpath
