import Classpath.Proofs.ClassFile.DraftBody

/-!
# Drafts survive writing and decoding

Main statement: a draft that fits is written as a class file that decodes to
what the draft says.
-/

namespace Classpath
namespace ClassFile

open Writer

/-! ## Members -/

/-- The attribute of a list of annotations, left out if there are none. -/
def markAttributes (types : List String) : List Attribute :=
  optional types.isEmpty (.annotations types)

theorem flatMap_ownAnnotations_marks (types : List String) :
    (markAttributes types).flatMap Attribute.ownAnnotations = types :=
  flatMap_optional List.isEmpty_iff.1

theorem flatMap_annotationsOnTypes_marks (types : List String) :
    (markAttributes types).flatMap Attribute.annotationsOnTypes = [] :=
  flatMap_optional fun _ => rfl

/-- The attributes of a drafted field. -/
def FieldDraft.attributes (draft : FieldDraft) : List Attribute :=
  draft.signature.toList.map Attribute.signature ++ markAttributes draft.annotations

theorem FieldDraft.length_attributes (draft : FieldDraft) : draft.attributes.length < 65536 := by
  have hmarks := length_optional_le_one draft.annotations.isEmpty
    (Attribute.annotations draft.annotations)
  have hsignature : draft.signature.toList.length ≤ 1 := by
    cases draft.signature with
    | none => exact Nat.zero_le 1
    | some text => exact Nat.le_refl 1
  rw [attributes, markAttributes, List.length_append, List.length_map]
  omega

theorem FieldDraft.fieldOf_attributes (draft : FieldDraft) :
    fieldOf draft.descriptor draft.attributes = draft.field := by
  have hsignature : lastSignature? draft.attributes = draft.signature := by
    rw [attributes, markAttributes]
    cases draft.annotations.isEmpty <;> cases draft.signature <;> rfl
  have hannotations : allAnnotations draft.attributes = draft.annotations := by
    rw [allAnnotations, attributes, List.flatMap_append, List.flatMap_append,
      flatMap_ownAnnotations_marks, flatMap_annotationsOnTypes_marks]
    cases draft.signature <;> exact List.append_nil _
  rw [fieldOf, hsignature, hannotations, field]

theorem writes_signature {signature : Option String} (h : ∀ text ∈ signature, IsStorable text) :
    Writes (writeSignature signature) fun pool encoded =>
      List.Forall₂ (Reads (Attribute.read pool)) encoded
        (signature.toList.map Attribute.signature) := by
  cases signature with
  | none => exact .pure fun _ => .nil
  | some text =>
      refine (PoolWriter.writes_text (h text rfl)).bind fun index => ?_
      refine (writes_attribute (isStorable_own (by simp [ownTexts])) _).bind fun bytes => ?_
      refine .pure fun pool hbytes htext => ?_
      obtain ⟨nameIndex, hname, rfl⟩ := hbytes
      have hread := Attribute.decode_signature (Reads.text (ConstantPool.text_of_holds htext))
      exact .cons (Attribute.reads hname (by rw [length_indexBytes]; decide) hread) .nil

theorem writes_markAttributes {types : List String} (htypes : ∀ type ∈ types, IsStorable type)
    (hlength : types.length < 65536) :
    Writes (writeUnless types.isEmpty (writeMarks types)) fun pool encoded =>
      List.Forall₂ (Reads (Attribute.read pool)) encoded (markAttributes types) :=
  writes_optional (fun pool => Reads (Attribute.read pool)) fun _ => writes_marks htypes hlength

theorem writes_field {draft : FieldDraft} (htexts : ∀ text ∈ draft.texts, IsStorable text)
    (hlength : draft.annotations.length < 65536) :
    Writes (writeField draft) fun pool bytes => Reads (readField pool) bytes draft.field := by
  simp only [FieldDraft.texts, List.forall_mem_cons, List.forall_mem_append,
    Option.mem_toList] at htexts
  obtain ⟨hname, hdescriptor, hsignature, hannotations⟩ := htexts
  refine (PoolWriter.writes_text hname).bind fun nameIndex => ?_
  refine (PoolWriter.writes_text hdescriptor).bind fun descriptorIndex => ?_
  refine (writes_signature hsignature).bind fun signature => ?_
  refine (writes_markAttributes hannotations hlength).bind fun marks => ?_
  refine .pure fun pool hmarks hsignature hdescriptor hname => ?_
  rw [← draft.fieldOf_attributes]
  apply reads_field 1 (ConstantPool.text_of_holds hname) (ConstantPool.text_of_holds hdescriptor)
    (List.rel_append hsignature hmarks)
  exact draft.length_attributes

/-- The attributes of a drafted method. -/
def MethodDraft.attributes (draft : MethodDraft) : List Attribute :=
  optional draft.code.isEmpty (.code draft.body) ++ markAttributes draft.annotations ++
    optional draft.parameterAnnotations.isEmpty (.parameterAnnotations draft.parameterAnnotations)

theorem MethodDraft.length_attributes (draft : MethodDraft) : draft.attributes.length < 65536 := by
  have hbody := length_optional_le_one draft.code.isEmpty (Attribute.code draft.body)
  have hmarks := length_optional_le_one draft.annotations.isEmpty
    (Attribute.annotations draft.annotations)
  have hparameters := length_optional_le_one draft.parameterAnnotations.isEmpty
    (Attribute.parameterAnnotations draft.parameterAnnotations)
  rw [attributes, markAttributes, List.length_append, List.length_append]
  omega

theorem MethodDraft.methodOf_attributes (draft : MethodDraft) :
    methodOf draft.name draft.descriptor draft.attributes = draft.method := by
  have hbody : lastBody draft.attributes = if draft.code.isEmpty then {} else draft.body := by
    rw [attributes, markAttributes]
    cases draft.code.isEmpty <;> cases draft.annotations.isEmpty <;>
      cases draft.parameterAnnotations.isEmpty <;> rfl
  have hannotations : allAnnotations draft.attributes = draft.annotations := by
    have hown : draft.attributes.flatMap Attribute.ownAnnotations = draft.annotations := by
      rw [attributes, List.flatMap_append, List.flatMap_append, flatMap_ownAnnotations_marks,
        flatMap_optional fun _ => rfl, flatMap_optional fun _ => rfl]
      exact List.append_nil _
    have htypes : draft.attributes.flatMap Attribute.annotationsOnTypes = [] := by
      rw [attributes, List.flatMap_append, List.flatMap_append, flatMap_annotationsOnTypes_marks,
        flatMap_optional fun _ => rfl, flatMap_optional fun _ => rfl]
      rfl
    rw [allAnnotations, hown, htypes, List.append_nil]
  have hparameters : allParameterAnnotations draft.attributes = draft.parameterAnnotations := by
    rw [attributes, markAttributes]
    -- The attribute is left out only if there are no lists at all.
    cases hempty : draft.parameterAnnotations.isEmpty with
    | true =>
        rw [List.isEmpty_iff.1 hempty]
        cases draft.code.isEmpty <;> cases draft.annotations.isEmpty <;> rfl
    | false => cases draft.code.isEmpty <;> cases draft.annotations.isEmpty <;> rfl
  rw [methodOf, hbody, hannotations, hparameters, method]
  cases hcode : draft.code.isEmpty with
  | true =>
      rw [List.isEmpty_iff.1 hcode]
      rfl
  | false => rfl

theorem writes_method {draft : MethodDraft} (hfits : draft.Fits)
    (htexts : ∀ text ∈ draft.texts, IsStorable text) :
    Writes (writeMethod draft) fun pool bytes => Reads (readMethod pool) bytes draft.method := by
  simp only [MethodDraft.texts, List.forall_mem_cons, List.forall_mem_append] at htexts
  obtain ⟨hname, hdescriptor, ⟨⟨⟨hops, hvariables⟩, hannotations⟩, htypes⟩, hlocalAnnotations⟩ := htexts
  have hcode : ∀ op ∈ draft.code, ∀ text ∈ op.texts, IsStorable text := fun op hop text htext =>
    hops text (List.mem_flatMap_of_mem hop htext)
  have hlocals : ∀ item ∈ draft.locals, ∀ text ∈ item.texts, IsStorable text :=
    fun item hitem text htext => hvariables text (List.mem_flatMap_of_mem hitem htext)
  have hparameters : ∀ list ∈ draft.parameterAnnotations, ∀ type ∈ list, IsStorable type :=
    fun list hlist type htype => htypes type (List.mem_flatten_of_mem hlist htype)
  refine (PoolWriter.writes_text hname).bind fun nameIndex => ?_
  refine (PoolWriter.writes_text hdescriptor).bind fun descriptorIndex => ?_
  refine (writes_optional (fun pool => Reads (Attribute.read pool)) fun _ =>
    writes_body hfits hcode hlocals hlocalAnnotations).bind fun body => ?_
  refine (writes_markAttributes hannotations hfits.annotations).bind fun marks => ?_
  refine (writes_optional (fun pool => Reads (Attribute.read pool)) fun _ =>
    writes_parameterMarks hparameters hfits.parameters hfits.parameterAnnotations).bind
      fun parameters => ?_
  refine .pure fun pool hparameters hmarks hbody hdescriptor hname => ?_
  rw [← draft.methodOf_attributes]
  exact reads_method 1 (ConstantPool.text_of_holds hname) (ConstantPool.text_of_holds hdescriptor)
    (List.rel_append (List.rel_append hbody hmarks) hparameters) draft.length_attributes

/-! ## Classes -/

namespace ClassDraft

/-- The attributes of a drafted class. -/
def attributes (draft : ClassDraft) : List Attribute :=
  optional draft.annotations.isEmpty (.annotations (draft.annotations.map ClassMark.type)) ++
    optional draft.typeParameterAnnotations.isEmpty
      (.typeAnnotations (draft.typeParameterAnnotations.map fun type => ⟨0, type⟩)) ++ [.other]

theorem length_attributes (draft : ClassDraft) : draft.attributes.length < 65536 := by
  have hmarks := length_optional_le_one draft.annotations.isEmpty
    (Attribute.annotations (draft.annotations.map ClassMark.type))
  have htypes := length_optional_le_one draft.typeParameterAnnotations.isEmpty
    (Attribute.typeAnnotations (draft.typeParameterAnnotations.map fun type => ⟨0, type⟩))
  rw [attributes, List.length_append, List.length_append, List.length_singleton]
  omega

theorem allAnnotations_attributes (draft : ClassDraft) :
    allAnnotations draft.attributes =
      draft.annotations.map ClassMark.type ++ draft.typeParameterAnnotations := by
  have hown : draft.attributes.flatMap Attribute.ownAnnotations =
      draft.annotations.map ClassMark.type := by
    have hmarks : draft.annotations.isEmpty = true →
        (Attribute.annotations (draft.annotations.map ClassMark.type)).ownAnnotations = [] := by
      intro hempty
      rw [List.isEmpty_iff.1 hempty]
      rfl
    rw [attributes, List.flatMap_append, List.flatMap_append, flatMap_optional hmarks,
      flatMap_optional fun _ => rfl]
    simp [Attribute.ownAnnotations]
  have htypes : draft.attributes.flatMap Attribute.annotationsOnTypes =
      draft.typeParameterAnnotations := by
    have huses : draft.typeParameterAnnotations.isEmpty = true →
        (Attribute.typeAnnotations
          (draft.typeParameterAnnotations.map fun type => ⟨0, type⟩)).annotationsOnTypes = [] := by
      intro hempty
      rw [List.isEmpty_iff.1 hempty]
      rfl
    rw [attributes, List.flatMap_append, List.flatMap_append, flatMap_optional fun _ => rfl,
      flatMap_optional huses]
    simp [Attribute.annotationsOnTypes, Function.comp_def]
  rw [allAnnotations, hown, htypes]

theorem writes_attributes {draft : ClassDraft}
    (hmarks : ∀ mark ∈ draft.annotations, IsStorable mark.type)
    (hmarksLength : draft.annotations.length < 65536)
    (htypes : ∀ type ∈ draft.typeParameterAnnotations, IsStorable type)
    (htypesLength : draft.typeParameterAnnotations.length < 65536) :
    Writes (writeClassAttributes draft) fun pool bytes => ∃ encoded,
      bytes = countedBytes encoded ∧
        List.Forall₂ (Reads (Attribute.read pool)) encoded draft.attributes := by
  refine (writes_optional (fun pool => Reads (Attribute.read pool)) fun _ =>
    writes_classMarks hmarks hmarksLength).bind fun marks => ?_
  refine (writes_optional (fun pool => Reads (Attribute.read pool)) fun _ =>
    writes_typeParameterMarks htypes htypesLength).bind fun typeMarks => ?_
  refine (PoolWriter.writes_text (isStorable_own (by simp [ownTexts]))).bind fun source => ?_
  refine (writes_attribute (isStorable_own (by simp [ownTexts])) _).bind fun sourceFile => ?_
  refine .pure fun pool hsourceFile _ htypes hmarks => ?_
  obtain ⟨index, hname, rfl⟩ := hsourceFile
  -- The name of the source file is written, but nothing is kept of it.
  have hother : Reads (Attribute.read pool) (attributeBytes index (indexBytes source)) .other :=
    Attribute.reads hname (by rw [length_indexBytes]; decide) (Attribute.decode_other (by decide))
  exact ⟨_, rfl, List.rel_append (List.rel_append hmarks htypes) (.cons hother .nil)⟩

theorem writes_requests {draft : ClassDraft}
    (h : ∀ request ∈ draft.requests, request.IsSound) :
    Writes draft.writeRequests fun _ _ => True := by
  have hrequest : ∀ request ∈ draft.requests, Writes (do
      let index ← request.write
      return Granted.mk index (← get)) fun _ _ => True := by
    intro request hrequest
    refine (PoolRequest.writes (h request hrequest)).bind fun index => ?_
    intro entries
    exact ⟨⟨index, .ofEntries entries⟩, [], by rw [List.append_nil]; rfl, fun _ _ _ => trivial⟩
  exact (Writes.mapM hrequest).mono fun _ _ _ => trivial

theorem writes_header {draft : ClassDraft} (hname : IsStorable draft.name) :
    Writes draft.writeHeader fun pool header => pool.className header.1 = .ok draft.name := by
  refine (PoolWriter.writes_classInfo hname).bind fun thisClass => ?_
  refine (PoolWriter.writes_classInfo (isStorable_own (by simp [ownTexts]))).bind
    fun superClass => ?_
  refine .pure fun pool _ hclass => ?_
  obtain ⟨ref, rfl, hname⟩ := hclass
  rw [← hname]
  exact ConstantPool.className_of_holds ref.holds ref.name.holds

/-- What the parts are once they are written: the number of the class, and
members that are read back. -/
theorem writes_parts {draft : ClassDraft} (hfits : draft.Fits) :
    Writes draft.writeParts fun pool parts =>
      pool.className parts.2.1.1 = .ok draft.name ∧
        ∃ fields methods attributes,
          parts.2.2 = u2Bytes 0 ++ countedBytes fields ++ countedBytes methods ++
            countedBytes attributes ∧
          List.Forall₂ (Reads (readField pool)) fields draft.model.fields ∧
          List.Forall₂ (Reads (readMethod pool)) methods draft.model.methods ∧
          List.Forall₂ (Reads (Attribute.read pool)) attributes draft.attributes := by
  have htexts := hfits.texts
  simp only [texts, List.forall_mem_cons, List.forall_mem_append] at htexts
  obtain ⟨hname, ⟨⟨hfields, hmethods⟩, hmarks⟩, htypes⟩ := htexts
  have hfield : ∀ field ∈ draft.fields, Writes (writeField field) fun pool bytes =>
      Reads (readField pool) bytes field.field := fun field hfield =>
    writes_field (fun text htext => hfields text (List.mem_flatMap_of_mem hfield htext))
      (hfits.fieldAnnotations field hfield)
  have hmethod : ∀ method ∈ draft.methods, Writes (writeMethod method) fun pool bytes =>
      Reads (readMethod pool) bytes method.method := fun method hmethod =>
    writes_method (hfits.methodsFit method hmethod)
      fun text htext => hmethods text (List.mem_flatMap_of_mem hmethod htext)
  have hmark : ∀ mark ∈ draft.annotations, IsStorable mark.type := fun mark hmark =>
    hmarks mark.type (List.mem_map_of_mem hmark)
  refine (writes_header hname).bind fun header => ?_
  refine (writes_requests hfits.requests).bind fun granted => ?_
  refine (Writes.mapM hfield).bind fun fields => ?_
  refine (Writes.mapM hmethod).bind fun methods => ?_
  refine (writes_attributes hmark hfits.annotations htypes hfits.typeParameterAnnotations).bind
    fun attributes => ?_
  refine .pure fun pool hattributes hmethods hfields _ hheader => ?_
  obtain ⟨encoded, rfl, hencoded⟩ := hattributes
  exact ⟨hheader, fields, methods, encoded, rfl, List.forall₂_map_right_iff.2 hfields,
    List.forall₂_map_right_iff.2 hmethods, hencoded⟩

/-- The written file, once its parts are known. -/
theorem bytes_write {draft : ClassDraft} {granted : List Granted} {thisClass superClass : UInt16}
    {fields methods attributes : List Bytes} {entries : List PoolEntry}
    (hpool : ConstantPool.Fits entries)
    (hrun : draft.writeParts.run {} = ((granted, (thisClass, superClass),
      u2Bytes 0 ++ countedBytes fields ++ countedBytes methods ++ countedBytes attributes),
      .ofEntries entries)) :
    draft.write.bytes = classBytes 0 52 (ConstantPool.entryBytes entries) 0x0021 thisClass superClass
      [] fields methods attributes := by
  rw [write, hrun]
  simp [classBytes, PoolBuilder.toBytes_ofEntries hpool, countedBytes]

/-- A draft that fits is written as a class file that decodes to what it says. -/
theorem decode_write {draft : ClassDraft} (hfits : draft.Fits) :
    decode draft.write.bytes = .ok ⟨draft.name, 52, draft.model⟩ := by
  obtain ⟨⟨granted, ⟨thisClass, superClass⟩, members⟩, entries, hrun, hpost⟩ := writes_parts hfits []
  rw [List.nil_append] at hrun hpost
  have hpool : ConstantPool.Fits entries := by
    have hcount := hfits.pool
    rw [pool] at hcount
    have hfinal : (draft.writeParts.run {}).2 = .ofEntries entries := congrArg Prod.snd hrun
    rw [hfinal, PoolBuilder.slotCount_ofEntries] at hcount
    exact hcount
  -- Nothing is added after the parts, so their pool is the one that is written.
  have hparts := hpost []
  rw [List.append_nil] at hparts
  obtain ⟨hclass, fields, methods, attributes, rfl, hfields, hmethods, hattributes⟩ := hparts hpool
  have hnone : ∀ row ∈ ([] : List Bytes), row.length = 2 := by simp
  have hfieldsLength : draft.model.fields.length < 65536 := by
    rw [model, List.length_map]
    exact hfits.fields
  have hmethodsLength : draft.model.methods.length < 65536 := by
    rw [model, List.length_map]
    exact hfits.methods
  rw [bytes_write hpool hrun, decode_classBytes 0 52 0x0021 superClass
    (ConstantPool.reads_ofEntries hpool) hclass hnone (by decide) hfields hfieldsLength hmethods
    hmethodsLength hattributes draft.length_attributes, allAnnotations_attributes]
  rfl

/-- A draft with something at every site. -/
def sample : ClassDraft where
  name := "pkg/Sample"
  annotations := [{ type := "Lpkg/Note;" }, { type := "Lpkg/Bemærket;", hasValues := true }]
  typeParameterAnnotations := ["Lpkg/OnParameter;"]
  fields := [{
    name := "items"
    descriptor := "Ljava/util/List;"
    signature := some "Ljava/util/List<Lpkg/Item;>;"
    annotations := ["Lpkg/OnField;"] }]
  methods := [
    { name := "run"
      descriptor := "(Lpkg/Item;)V"
      code := [.new "pkg/Item", .multianewarray "[[Lpkg/Item;" 2, .checkcast "pkg/Item",
        .invokestatic "pkg/Factory" "make" "()V", .invokevirtual "pkg/Item" "use" "()V",
        .getstatic "pkg/Item" "ONE" "I", .newIntArray, .exit]
      locals := [{ descriptor := "I" },
        { descriptor := "Ljava/util/List;", signature := some "Ljava/util/List<Lpkg/Item;>;" }]
      annotations := ["Lpkg/OnMethod;"]
      parameterAnnotations := [[], ["Lpkg/OnArgument;"]]
      localAnnotations := ["Lpkg/OnLocal;"] },
    { name := "stub", descriptor := "()V", locals := [{ descriptor := "J" }] }]

theorem fits_sample : sample.Fits where
  texts := by
    have hall : sample.texts.all isShortPlain = true := by decide +kernel
    exact fun text htext => isStorable_of_isShortPlain (List.all_eq_true.1 hall text htext)
  requests := by simp [sample]
  pool := by decide +kernel
  annotations := by decide
  typeParameterAnnotations := by decide
  fields := by decide
  fieldAnnotations := by decide
  methods := by decide
  methodsFit := by
    simp only [sample, List.forall_mem_cons]
    refine ⟨?_, ?_, by simp⟩
    all_goals constructor <;> decide

theorem decode_write_sample : sample.Fits ∧
    decode sample.write.bytes = .ok ⟨"pkg/Sample", 52, sample.model⟩ :=
  ⟨fits_sample, decode_write fits_sample⟩

end ClassDraft

end ClassFile
end Classpath
