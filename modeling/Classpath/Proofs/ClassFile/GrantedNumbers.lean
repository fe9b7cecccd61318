import Classpath.Proofs.ClassFile.DraftWrites

/-!
# Numbers that were handed out

Whoever asks a builder for a constant gets a number.  What the constant refers to is put
into the pool before it, and bytes that are there already are not put in again.  Still the
number keeps its meaning whatever is asked for afterwards, and it is shared by those
requests alone that encode the same bytes.
-/

namespace Classpath
namespace ClassFile

/-- The second writer goes on with the pool of the first. -/
theorem PoolWriter.run_bind {α β : Type} (first : PoolWriter α) (next : α → PoolWriter β)
    (builder : PoolBuilder) :
    (first >>= next).run builder = (next (first.run builder).1).run (first.run builder).2 :=
  rfl

/-! ## What a request encodes -/

/-- A constant before it has a number: its bytes, and how many numbers it takes. -/
structure EncodedConstant where
  bytes : Bytes
  slots : UInt16

/-- The constant of a request.  The constants that it refers to are put into the pool. -/
def PoolRequest.encode : PoolRequest → PoolWriter EncodedConstant
  | text value => do
      let encoded := Text.utf8Bytes value
      return ⟨1 :: (u2Bytes encoded.length ++ encoded), 1⟩
  | rawText encoded => return ⟨1 :: (u2Bytes encoded.length ++ encoded), 1⟩
  | integer value => return ⟨3 :: u4Bytes value.toUInt32.toNat, 1⟩
  | long value => return ⟨5 :: bigEndianBytes 8 value.toUInt64.toNat, 2⟩
  | classInfo name => do
      let name ← PoolWriter.text name
      return ⟨7 :: indexBytes name, 1⟩
  | fieldRef owner name descriptor => do
      let owner ← PoolWriter.classInfo owner
      let nameAndType ← PoolWriter.nameAndType name descriptor
      return ⟨9 :: (indexBytes owner ++ indexBytes nameAndType), 1⟩
  | methodRef owner name descriptor => do
      let owner ← PoolWriter.classInfo owner
      let nameAndType ← PoolWriter.nameAndType name descriptor
      return ⟨10 :: (indexBytes owner ++ indexBytes nameAndType), 1⟩

/-- A request asks for the number of the constant that it encodes. -/
theorem PoolRequest.write_eq (request : PoolRequest) :
    request.write = (do
      let constant ← request.encode
      PoolBuilder.intern constant.bytes constant.slots) := by
  cases request <;> rfl

/-- The bytes that a request encodes, and the number it gets for them. -/
structure Answer where
  bytes : Bytes
  index : UInt16

def PoolRequest.answer (request : PoolRequest) : PoolWriter Answer := do
  let constant ← request.encode
  let index ← PoolBuilder.intern constant.bytes constant.slots
  return ⟨constant.bytes, index⟩

theorem PoolRequest.run_write (request : PoolRequest) (builder : PoolBuilder) :
    request.write.run builder =
      ((request.answer.run builder).1.index, (request.answer.run builder).2) := by
  rw [write_eq]
  rfl

namespace PoolBuilder

/-! ## Finding encoded constants -/

theorem find?_intern (constant : Bytes) (slots : UInt16) (builder : PoolBuilder) :
    ((intern constant slots).run builder).2.find? constant =
      some ((intern constant slots).run builder).1 := by
  show (intern constant slots builder).2.find? constant = some (intern constant slots builder).1
  unfold intern
  cases hfind : builder.find? constant with
  | some index => exact hfind
  | none =>
      have hentries : builder.entries.lookup constant = none := hfind
      show (builder.entries ++ [(constant, builder.next)]).lookup constant = _
      rw [List.lookup_append, hentries, List.lookup_cons, beq_self_eq_true]
      rfl

theorem find?_answer (request : PoolRequest) (builder : PoolBuilder) :
    (request.answer.run builder).2.find? (request.answer.run builder).1.bytes =
      some (request.answer.run builder).1.index :=
  find?_intern _ _ _

/-- What is found is still found, under the same number, once there is more. -/
theorem find?_ofEntries_append {entries : List PoolEntry} {constant : Bytes} {index : UInt16}
    (h : (ofEntries entries).find? constant = some index) (more : List PoolEntry) :
    (ofEntries (entries ++ more)).find? constant = some index := by
  have hlookup : (numbered 1 entries).lookup constant = some index := h
  show (numbered 1 (entries ++ more)).lookup constant = some index
  rw [numbered_append, List.lookup_append, hlookup]
  rfl

theorem length_slotsOf_cons_ne_zero (entry : PoolEntry) (rest : List PoolEntry) :
    (ConstantPool.slotsOf (entry :: rest)).length ≠ 0 := by
  have hslots : entry.slots.length ≠ 0 := by
    unfold PoolEntry.slots
    split <;> simp
  rw [ConstantPool.slotsOf, List.flatMap_cons, List.length_append]
  omega

/-- Entries with as many numbers before them are in the same place. -/
theorem entry_eq_of_length_slotsOf {before before' after after' : List PoolEntry}
    {entry entry' : PoolEntry} (hsplit : before ++ entry :: after = before' ++ entry' :: after')
    (hslots : (ConstantPool.slotsOf before).length = (ConstantPool.slotsOf before').length) :
    entry = entry' := by
  induction before generalizing before' with
  | nil =>
      cases before' with
      | nil => exact (List.cons.inj hsplit).1
      | cons first rest => exact absurd hslots.symm (length_slotsOf_cons_ne_zero first rest)
  | cons first rest ih =>
      cases before' with
      | nil => exact absurd hslots (length_slotsOf_cons_ne_zero first rest)
      | cons first' rest' =>
          rw [List.cons_append, List.cons_append] at hsplit
          obtain ⟨rfl, hrest⟩ := List.cons.inj hsplit
          rw [ConstantPool.slotsOf, ConstantPool.slotsOf, List.flatMap_cons, List.flatMap_cons,
            List.length_append, List.length_append] at hslots
          exact ih hrest (Nat.add_left_cancel hslots)

/-- As long as the numbers fit, no two constants have the same. -/
theorem eq_of_find?_eq {entries : List PoolEntry} (hfits : ConstantPool.Fits entries)
    {constant other : Bytes} {index : UInt16}
    (hconstant : (ofEntries entries).find? constant = some index)
    (hother : (ofEntries entries).find? other = some index) : constant = other := by
  obtain ⟨before, entry, after, hsplit, rfl, hindex⟩ := exists_of_lookup_numbered hconstant
  obtain ⟨before', entry', after', hsplit', rfl, hindex'⟩ := exists_of_lookup_numbered hother
  -- A number that fits is not cut, so that it tells how many numbers come before.
  have hnumber : ∀ {first second : List PoolEntry} {next : PoolEntry},
      entries = first ++ next :: second →
        (UInt16.ofNat (1 + (ConstantPool.slotsOf first).length)).toNat =
          1 + (ConstantPool.slotsOf first).length := by
    rintro first second next rfl
    rw [ConstantPool.Fits, ConstantPool.slotsOf, List.flatMap_append, List.length_append] at hfits
    exact Nat.mod_eq_of_lt (by rw [ConstantPool.slotsOf]; omega)
  have hslots : (ConstantPool.slotsOf before).length = (ConstantPool.slotsOf before').length := by
    have hsame := congrArg UInt16.toNat (hindex.symm.trans hindex')
    rw [hnumber hsplit, hnumber hsplit'] at hsame
    omega
  rw [entry_eq_of_length_slotsOf (hsplit.symm.trans hsplit') hslots]

end PoolBuilder

/-! ## One request, and any number of them -/

/-- The answers to requests are numbers in a pool if they are found in the builder, and
stand for what was asked in every pool that it grows into. -/
structure Grants (requests : List PoolRequest) (answers : List Answer)
    (entries : List PoolEntry) : Prop where
  found : ∀ answer ∈ answers,
    (PoolBuilder.ofEntries entries).find? answer.bytes = some answer.index
  answered : ∀ later, ConstantPool.Fits (entries ++ later) →
    List.Forall₂ (fun request answer =>
      request.IsAnsweredBy (.ofEntries (entries ++ later)) answer.index) requests answers

theorem Grants.append {requests : List PoolRequest} {answers : List Answer}
    {entries : List PoolEntry} (h : Grants requests answers entries) (more : List PoolEntry) :
    Grants requests answers (entries ++ more) where
  found answer hanswer := PoolBuilder.find?_ofEntries_append (h.found answer hanswer) more
  answered later hfits := by
    rw [List.append_assoc] at hfits ⊢
    exact h.answered (more ++ later) hfits

theorem PoolRequest.grants_answer {request : PoolRequest} (h : request.IsSound)
    (entries : List PoolEntry) :
    ∃ answer more, request.answer.run (.ofEntries entries) =
        (answer, .ofEntries (entries ++ more)) ∧
      Grants [request] [answer] (entries ++ more) := by
  obtain ⟨index, more, hrun, hanswered⟩ := PoolRequest.writes_answer h entries
  rw [run_write] at hrun
  obtain ⟨rfl, hbuilder⟩ := Prod.mk.inj hrun
  have hfound := PoolBuilder.find?_answer request (.ofEntries entries)
  rw [hbuilder] at hfound
  refine ⟨_, more, Prod.ext rfl hbuilder, ⟨?_, fun later hfits => ?_⟩⟩
  · rw [List.forall_mem_singleton]
    exact hfound
  · exact .cons (hanswered later hfits) .nil

/-- Later requests leave the answers to earlier ones in force. -/
theorem grants_answers {requests : List PoolRequest} (h : ∀ request ∈ requests, request.IsSound)
    (entries : List PoolEntry) :
    ∃ answers more, (requests.mapM PoolRequest.answer).run (.ofEntries entries) =
        (answers, .ofEntries (entries ++ more)) ∧
      Grants requests answers (entries ++ more) := by
  induction requests generalizing entries with
  | nil =>
      refine ⟨[], [], ?_, ⟨by simp, fun _ _ => .nil⟩⟩
      rw [List.mapM_nil, List.append_nil]
      rfl
  | cons request rest ih =>
      rw [List.forall_mem_cons] at h
      obtain ⟨answer, more, hrun, hanswer⟩ := PoolRequest.grants_answer h.1 entries
      obtain ⟨answers, evenMore, hrest, hanswers⟩ := ih h.2 (entries ++ more)
      have hkept := hanswer.append evenMore
      rw [List.append_assoc] at hkept hanswers hrest
      refine ⟨answer :: answers, more ++ evenMore, ?_, ⟨?_, fun later hfits => ?_⟩⟩
      · rw [List.mapM_cons, PoolWriter.run_bind, hrun, PoolWriter.run_bind, hrest]
        rfl
      · rw [List.forall_mem_cons]
        exact ⟨hkept.found answer (List.mem_singleton_self answer), hanswers.found⟩
      · obtain ⟨hfirst, _⟩ := List.forall₂_cons.1 (hkept.answered later hfits)
        exact .cons hfirst (hanswers.answered later hfits)

/-! ## Drafts -/

/-- The number of a requested constant together with the pool it is in. -/
def PoolRequest.grant (request : PoolRequest) : PoolWriter Granted := do
  let index ← request.write
  return ⟨index, ← get⟩

theorem run_mapM_grant (requests : List PoolRequest) (builder : PoolBuilder) :
    ((requests.mapM PoolRequest.grant).run builder).1.map (·.index) =
        ((requests.mapM PoolRequest.answer).run builder).1.map (·.index) ∧
      ((requests.mapM PoolRequest.grant).run builder).2 =
        ((requests.mapM PoolRequest.answer).run builder).2 := by
  induction requests generalizing builder with
  | nil => exact ⟨rfl, rfl⟩
  | cons request rest ih =>
      obtain ⟨hindices, hbuilder⟩ := ih (request.answer.run builder).2
      have hgrant : request.grant.run builder =
          (⟨(request.answer.run builder).1.index, (request.answer.run builder).2⟩,
            (request.answer.run builder).2) := by
        rw [PoolRequest.grant, PoolWriter.run_bind, request.run_write]
        rfl
      rw [List.mapM_cons, List.mapM_cons]
      simp only [PoolWriter.run_bind, hgrant]
      exact ⟨congrArg (_ :: ·) hindices, hbuilder⟩

namespace ClassDraft

/-- Everything a draft asks for before its members do: the class, the class that it
extends, and its requests. -/
def allRequests (draft : ClassDraft) : List PoolRequest :=
  .classInfo draft.name :: .classInfo "java/lang/Object" :: draft.requests

/-- The numbers of the class, of the class that it extends, and of the requests. -/
def writeNumbers (draft : ClassDraft) : PoolWriter (List UInt16) := do
  let (thisClass, superClass) ← draft.writeHeader
  let granted ← draft.writeRequests
  return thisClass :: superClass :: granted.map (·.index)

theorem run_writeNumbers (draft : ClassDraft) (builder : PoolBuilder) :
    draft.writeNumbers.run builder =
      (((draft.allRequests.mapM PoolRequest.answer).run builder).1.map (·.index),
        ((draft.allRequests.mapM PoolRequest.answer).run builder).2) := by
  have hclass : ∀ name, PoolWriter.classInfo name = (PoolRequest.classInfo name).write :=
    fun _ => rfl
  have hrequests : draft.writeRequests = draft.requests.mapM PoolRequest.grant := rfl
  rw [writeNumbers, writeHeader, hclass, hclass, hrequests, allRequests, List.mapM_cons,
    List.mapM_cons]
  simp only [PoolWriter.run_bind, PoolRequest.run_write]
  -- How the first two are answered does not matter for the rest.
  generalize (PoolRequest.classInfo draft.name).answer.run builder = first
  generalize (PoolRequest.classInfo "java/lang/Object").answer.run first.2 = second
  obtain ⟨hindices, hbuilder⟩ := run_mapM_grant draft.requests second.2
  exact Prod.ext (congrArg (first.1.index :: second.1.index :: ·) hindices) hbuilder

/-- Whatever a builder is asked for, its pool can be read, and every number that it handed
out stands for what was asked.  Two requests have the same number if and only if they
encode the same bytes. -/
theorem numbers_stay_valid {draft : ClassDraft} (hname : IsStorable draft.name)
    (hrequests : ∀ request ∈ draft.requests, request.IsSound)
    (hfits : (draft.writeNumbers.run {}).2.slotCount + 1 < 65536) :
    ∃ answers builder pool,
      (draft.allRequests.mapM PoolRequest.answer).run {} = (answers, builder) ∧
      draft.writeNumbers.run {} = (answers.map (·.index), builder) ∧
      ConstantPool.read builder.toBytes = .ok pool [] ∧
      List.Forall₂ (fun request answer => request.IsAnsweredBy pool answer.index)
        draft.allRequests answers ∧
      ∀ answer ∈ answers, ∀ other ∈ answers,
        answer.index = other.index ↔ answer.bytes = other.bytes := by
  have hsound : ∀ request ∈ draft.allRequests, request.IsSound := by
    simp only [allRequests, List.forall_mem_cons]
    exact ⟨hname, isStorable_own (by simp [ownTexts]), hrequests⟩
  obtain ⟨answers, entries, hgranted, hgrants⟩ := grants_answers hsound []
  rw [List.nil_append] at hgranted hgrants
  have hrun : (draft.allRequests.mapM PoolRequest.answer).run {} = (answers, .ofEntries entries) :=
    hgranted
  have hnumbers : draft.writeNumbers.run {} = (answers.map (·.index), .ofEntries entries) := by
    rw [run_writeNumbers, hrun]
  have hpool : ConstantPool.Fits entries := by
    rw [hnumbers, PoolBuilder.slotCount_ofEntries] at hfits
    exact hfits
  have hread := ConstantPool.reads_ofEntries hpool []
  rw [List.append_nil, ← PoolBuilder.toBytes_ofEntries hpool] at hread
  have hanswered := hgrants.answered []
  rw [List.append_nil] at hanswered
  refine ⟨answers, .ofEntries entries, .ofEntries entries, hrun, hnumbers, hread,
    hanswered hpool, fun answer hanswer other hother => ?_⟩
  have hfound := hgrants.found answer hanswer
  have hfoundOther := hgrants.found other hother
  constructor
  · intro hindex
    rw [hindex] at hfound
    exact PoolBuilder.eq_of_find?_eq hpool hfound hfoundOther
  · intro hbytes
    rw [hbytes, hfoundOther] at hfound
    exact (Option.some.inj hfound).symm

/-- A draft that asks for a wide number between texts, for a text in a longer encoding than
needed, and twice for the same class. -/
def asking : ClassDraft where
  name := "A"
  requests := [.text "A", .rawText [0xC1, 0x81], .long 42, .classInfo "A",
    .methodRef "B" "m" "()V", .integer 7]

theorem asking_numbers_stay_valid :
    ∃ builder pool, asking.writeNumbers.run {} = ([2, 4, 1, 5, 6, 2, 13, 14], builder) ∧
      ConstantPool.read builder.toBytes = .ok pool [] ∧
      pool.text 1 = .ok "A" ∧ pool.text 5 = .ok "A" ∧ pool.get 6 = .ok (.long 42) ∧
      pool.className 2 = .ok "A" ∧ pool.memberOwner 13 = .ok "B" ∧
      pool.get 14 = .ok (.integer 7) := by
  have hstorable : ∀ text ∈ ["A", "B", "m", "()V"], IsStorable text := by
    have hall : ["A", "B", "m", "()V"].all isShortPlain = true := by decide +kernel
    exact fun text htext => isStorable_of_isShortPlain (List.all_eq_true.1 hall text htext)
  simp only [List.forall_mem_cons] at hstorable
  obtain ⟨hA, hB, hm, hdescriptor, -⟩ := hstorable
  have hsound : ∀ request ∈ asking.requests, request.IsSound := by
    simp only [asking, List.forall_mem_cons]
    exact ⟨hA, ⟨by decide, by decide +kernel⟩, trivial, hA, ⟨hB, hm, hdescriptor⟩, trivial, by simp⟩
  have hdecoded : Text.ofModifiedUtf8? [0xC1, 0x81] = some "A" := by decide +kernel
  obtain ⟨answers, builder, pool, _, hnumbers, hread, hanswered, _⟩ :=
    numbers_stay_valid hA hsound (by decide +kernel)
  have hindices : (asking.writeNumbers.run {}).1 = [2, 4, 1, 5, 6, 2, 13, 14] := by decide +kernel
  replace hindices : answers.map (·.index) = _ := hnumbers ▸ hindices
  have hresolved : List.Forall₂ (fun request index => request.IsAnsweredBy pool index)
      asking.allRequests (answers.map (·.index)) :=
    List.forall₂_map_right_iff.2 hanswered
  rw [hindices] at hresolved hnumbers
  simp only [allRequests, asking, List.forall₂_cons] at hresolved
  obtain ⟨hclass, _, htext, ⟨value, hvalue, hraw⟩, hlong, _, howner, hinteger, _⟩ := hresolved
  obtain rfl := Option.some.inj (hvalue.symm.trans hdecoded)
  exact ⟨builder, pool, hnumbers, hread, htext, hraw, hlong, hclass, howner, hinteger⟩

end ClassDraft
end ClassFile
end Classpath
