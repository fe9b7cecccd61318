import Classpath.Proofs.ClassFile.AttributeReads
import Classpath.Proofs.MentionSites

/-!
# Signatures find their variables

The rows of two tables are matched variable by variable: the first described row of a
variable takes the first typed row of the same variable, the second one the second, and so
on.  Rows of the typed table beyond that are left and keep their order.  A round of the
matching takes one row out of the typed table or leaves it as it is, and everything else
is derived from that.  Main statement: every text of both tables occurs in the result, at
the place it belongs to, and none occurs twice.
-/

namespace Classpath
namespace ClassFile

/-! ## The rows of a variable -/

/-- What tells variables apart: the slot and the code range. -/
def LocalEntry.key (row : LocalEntry) : UInt16 × UInt16 × UInt16 :=
  (row.slot, row.start, row.length)

theorem LocalEntry.sameVariable_iff {row other : LocalEntry} :
    row.sameVariable other = true ↔ other.key = row.key := by
  simp only [sameVariable, key, Bool.and_eq_true, decide_eq_true_eq, Prod.mk.injEq, and_assoc]
  rw [eq_comm, eq_comm (a := row.start), eq_comm (a := row.length)]

/-- The rows of one variable, in order. -/
def rowsOf (key : UInt16 × UInt16 × UInt16) (rows : List LocalEntry) : List LocalEntry :=
  rows.filter fun row => decide (row.key = key)

variable {key : UInt16 × UInt16 × UInt16} {row : LocalEntry}

theorem rowsOf_nil (key : UInt16 × UInt16 × UInt16) : rowsOf key [] = [] := rfl

theorem rowsOf_append (key : UInt16 × UInt16 × UInt16) (rows more : List LocalEntry) :
    rowsOf key (rows ++ more) = rowsOf key rows ++ rowsOf key more :=
  List.filter_append rows more

theorem rowsOf_cons_same (h : row.key = key) (rows : List LocalEntry) :
    rowsOf key (row :: rows) = row :: rowsOf key rows :=
  List.filter_cons_of_pos (by simpa using h)

theorem rowsOf_cons_other (h : row.key ≠ key) (rows : List LocalEntry) :
    rowsOf key (row :: rows) = rowsOf key rows :=
  List.filter_cons_of_neg (by simpa using h)

theorem rowsOf_eq_nil_iff {rows : List LocalEntry} :
    rowsOf key rows = [] ↔ ∀ row ∈ rows, row.key ≠ key := by
  simp [rowsOf, List.filter_eq_nil_iff]

theorem length_rowsOf_append (key : UInt16 × UInt16 × UInt16) (rows more : List LocalEntry) :
    (rowsOf key (rows ++ more)).length = (rowsOf key rows).length + (rowsOf key more).length := by
  rw [rowsOf_append, List.length_append]

/-! ## One round -/

/-- What a described row takes out of the typed table: nothing, if no row there is of its
variable, and the first such row otherwise. -/
theorem round_cases (row : LocalEntry) (typed : List LocalEntry) :
    (rowsOf row.key typed = [] ∧ typed.find? row.sameVariable = none ∧
      typed.eraseP row.sameVariable = typed) ∨
    ∃ before found after, typed = before ++ found :: after ∧ rowsOf row.key before = [] ∧
      found.key = row.key ∧ typed.find? row.sameVariable = some found ∧
      typed.eraseP row.sameVariable = before ++ after := by
  cases hfind : typed.find? row.sameVariable with
  | none =>
      have hnone : ∀ other ∈ typed, ¬ row.sameVariable other = true :=
        fun other hother => List.find?_eq_none.1 hfind other hother
      refine .inl ⟨rowsOf_eq_nil_iff.2 fun other hother hkey => ?_, rfl,
        List.eraseP_of_forall_not hnone⟩
      exact hnone other hother (LocalEntry.sameVariable_iff.2 hkey)
  | some found =>
      obtain ⟨hfound, before, after, rfl, hbefore⟩ := List.find?_eq_some_iff_append.1 hfind
      have hnone : ∀ other ∈ before, ¬ row.sameVariable other = true :=
        fun other hother => by simpa using hbefore other hother
      refine .inr ⟨before, found, after, rfl, rowsOf_eq_nil_iff.2 fun other hother hkey => ?_,
        LocalEntry.sameVariable_iff.1 hfound, rfl, ?_⟩
      · exact hnone other hother (LocalEntry.sameVariable_iff.2 hkey)
      · rw [List.eraseP_append_right _ hnone, List.eraseP_cons_of_pos hfound]

/-- A described row receives the first typed row of its variable. -/
theorem find?_sameVariable (row : LocalEntry) (typed : List LocalEntry) :
    typed.find? row.sameVariable = (rowsOf row.key typed)[0]? := by
  rcases round_cases row typed with ⟨hrows, hfind, _⟩ | ⟨before, found, after, rfl, hbefore,
    hkey, hfind, _⟩
  · rw [hfind, hrows]
    rfl
  · rw [hfind, rowsOf_append, hbefore, rowsOf_cons_same hkey]
    rfl

/-- The variable of a described row loses its first typed row. -/
theorem rowsOf_eraseP_same (row : LocalEntry) (typed : List LocalEntry) :
    rowsOf row.key (typed.eraseP row.sameVariable) = (rowsOf row.key typed).tail := by
  rcases round_cases row typed with ⟨hrows, _, herase⟩ | ⟨before, found, after, rfl, hbefore,
    hkey, _, herase⟩
  · rw [herase, hrows]
    rfl
  · rw [herase, rowsOf_append, rowsOf_append, hbefore, rowsOf_cons_same hkey]
    rfl

/-- All other variables keep their typed rows. -/
theorem rowsOf_eraseP_other (h : row.key ≠ key) (typed : List LocalEntry) :
    rowsOf key (typed.eraseP row.sameVariable) = rowsOf key typed := by
  rcases round_cases row typed with ⟨_, _, herase⟩ | ⟨before, found, after, rfl, _,
    hkey, _, herase⟩
  · rw [herase]
  · rw [herase, rowsOf_append, rowsOf_append, rowsOf_cons_other (hkey ▸ h)]

/-! ## Described rows -/

/-- The described row that comes after `k` others of its variable receives the typed row
that does. -/
theorem getElem?_mergeLocals (before : List LocalEntry) (row : LocalEntry)
    (after typed : List LocalEntry) :
    (mergeLocals (before ++ row :: after) typed)[before.length]? =
      some ⟨row.text,
        ((rowsOf row.key typed)[(rowsOf row.key before).length]?).map (·.text)⟩ := by
  induction before generalizing typed with
  | nil =>
      rw [List.nil_append, mergeLocals, find?_sameVariable]
      rfl
  | cons first before ih =>
      rw [List.cons_append, mergeLocals, List.length_cons, List.getElem?_cons_succ, ih]
      by_cases hkey : first.key = row.key
      · have hrows := rowsOf_eraseP_same first typed
        rw [hkey] at hrows
        rw [hrows, rowsOf_cons_same hkey, List.length_cons, List.getElem?_tail]
      · rw [rowsOf_eraseP_other hkey, rowsOf_cons_other hkey]

theorem take_mergeLocals (described typed : List LocalEntry) :
    ((mergeLocals described typed).take described.length).map (·.descriptor) =
      described.map (·.text) := by
  induction described generalizing typed with
  | nil => rfl
  | cons row described ih =>
      rw [mergeLocals, List.length_cons, List.take_succ_cons, List.map_cons, ih, List.map_cons]

/-! ## Rows without a variable -/

/-- The rows that come after at least as many rows of their variable, counted with the
`earlier` ones, as are described. -/
def unmatchedAfter (described earlier : List LocalEntry) : List LocalEntry → List LocalEntry
  | [] => []
  | row :: rest =>
      if (rowsOf row.key described).length ≤ (rowsOf row.key earlier).length then
        row :: unmatchedAfter described (earlier ++ [row]) rest
      else unmatchedAfter described (earlier ++ [row]) rest

/-- The typed rows that no described row is left for, in order. -/
def unmatched (described typed : List LocalEntry) : List LocalEntry :=
  unmatchedAfter described [] typed

theorem unmatchedAfter_append (described earlier rows more : List LocalEntry) :
    unmatchedAfter described earlier (rows ++ more) =
      unmatchedAfter described earlier rows ++ unmatchedAfter described (earlier ++ rows) more := by
  induction rows generalizing earlier with
  | nil => rw [List.nil_append, List.append_nil, unmatchedAfter, List.nil_append]
  | cons row rows ih =>
      rw [List.cons_append, unmatchedAfter, unmatchedAfter, ih, List.append_assoc,
        List.singleton_append]
      split
      · rfl
      · rfl

theorem unmatchedAfter_nil (earlier rows : List LocalEntry) :
    unmatchedAfter [] earlier rows = rows := by
  induction rows generalizing earlier with
  | nil => rfl
  | cons row rows ih => rw [unmatchedAfter, ih, if_pos (by simp [rowsOf_nil])]

/-- Only the difference between the described and the earlier rows of a variable counts. -/
theorem unmatchedAfter_congr {described described' earlier earlier' rows : List LocalEntry}
    (h : ∀ row ∈ rows,
      (rowsOf row.key described).length + (rowsOf row.key earlier').length =
        (rowsOf row.key described').length + (rowsOf row.key earlier).length) :
    unmatchedAfter described earlier rows = unmatchedAfter described' earlier' rows := by
  induction rows generalizing earlier earlier' with
  | nil => rfl
  | cons row rows ih =>
      have hrow := h row List.mem_cons_self
      have hrest : unmatchedAfter described (earlier ++ [row]) rows =
          unmatchedAfter described' (earlier' ++ [row]) rows := by
        refine ih fun other hother => ?_
        have := h other (List.mem_cons_of_mem row hother)
        rw [length_rowsOf_append, length_rowsOf_append]
        omega
      rw [unmatchedAfter, unmatchedAfter, hrest]
      by_cases hle : (rowsOf row.key described).length ≤ (rowsOf row.key earlier).length
      · rw [if_pos hle, if_pos (by omega)]
      · rw [if_neg hle, if_neg (by omega)]

/-- One more described row takes one more row out of the typed table. -/
theorem unmatched_cons (row : LocalEntry) (described typed : List LocalEntry) :
    unmatched (row :: described) typed = unmatched described (typed.eraseP row.sameVariable) := by
  have hothers {rows : List LocalEntry} (hrows : rowsOf row.key rows = []) :
      unmatchedAfter (row :: described) [] rows = unmatchedAfter described [] rows := by
    refine unmatchedAfter_congr fun other hother => ?_
    rw [rowsOf_cons_other (Ne.symm (rowsOf_eq_nil_iff.1 hrows other hother))]
  unfold unmatched
  rcases round_cases row typed with ⟨hrows, _, herase⟩ | ⟨before, found, after, rfl, hbefore,
    hkey, _, herase⟩
  · rw [herase, hothers hrows]
  · -- The row that is taken is the first of its variable, so it is not left over.
    have hfound : ¬ (rowsOf found.key (row :: described)).length ≤
        (rowsOf found.key before).length := by
      rw [hkey, hbefore, rowsOf_cons_same rfl]
      simp
    have hafter : unmatchedAfter (row :: described) (before ++ [found]) after =
        unmatchedAfter described before after := by
      refine unmatchedAfter_congr fun other _ => ?_
      rw [length_rowsOf_append]
      by_cases hother : row.key = other.key
      · rw [rowsOf_cons_same hother, rowsOf_cons_same (hkey.trans hother), rowsOf_nil]
        simp only [List.length_cons, List.length_nil]
        omega
      · have hfoundOther : found.key ≠ other.key := hkey ▸ hother
        rw [rowsOf_cons_other hother, rowsOf_cons_other hfoundOther, rowsOf_nil, List.length_nil,
          Nat.add_zero]
    rw [herase, unmatchedAfter_append, unmatchedAfter_append, hothers hbefore, unmatchedAfter,
      List.nil_append, if_neg hfound, hafter]

theorem drop_mergeLocals (described typed : List LocalEntry) :
    (mergeLocals described typed).drop described.length =
      (unmatched described typed).map fun row => ⟨"", some row.text⟩ := by
  induction described generalizing typed with
  | nil =>
      rw [unmatched, unmatchedAfter_nil]
      rfl
  | cons row described ih =>
      rw [mergeLocals, List.length_cons, List.drop_succ_cons, ih, unmatched_cons]

/-- The variables of two tables: a described row has the signature of the typed row that
comes after as many others of its variable, and the typed rows without a variable follow. -/
def pairedLocals (described typed : List LocalEntry) : List LocalVariable :=
  (described.mapIdx fun index row => ⟨row.text, ((rowsOf row.key typed)[
    (rowsOf row.key (described.take index)).length]?).map (·.text)⟩) ++
  (unmatched described typed).map fun row => ⟨"", some row.text⟩

/-- Merging round by round pairs the rows of each variable in order. -/
theorem mergeLocals_eq_pairedLocals (described typed : List LocalEntry) :
    mergeLocals described typed = pairedLocals described typed := by
  rw [← List.take_append_drop described.length (mergeLocals described typed), drop_mergeLocals,
    pairedLocals]
  congr 1
  apply List.ext_getElem?
  intro index
  by_cases hindex : index < described.length
  · have hsplit : described.take index ++ described[index] :: described.drop (index + 1) =
        described := by
      rw [← List.drop_eq_getElem_cons hindex, List.take_append_drop]
    have hrow := getElem?_mergeLocals (described.take index) described[index]
      (described.drop (index + 1)) typed
    rw [hsplit, List.length_take_of_le (Nat.le_of_lt hindex)] at hrow
    rw [List.getElem?_take_of_lt hindex, hrow, List.getElem?_mapIdx,
      List.getElem?_eq_getElem hindex]
    rfl
  · have hend : described.length ≤ index := Nat.le_of_not_lt hindex
    rw [List.getElem?_take_eq_none hend, List.getElem?_mapIdx, List.getElem?_eq_none hend]
    rfl

/-! ## All texts -/

/-- Every typed row gives its text to one variable of the result. -/
theorem signatures_perm (described typed : List LocalEntry) :
    ((mergeLocals described typed).filterMap (·.signature)).Perm (typed.map (·.text)) := by
  induction described generalizing typed with
  | nil => simp [mergeLocals]
  | cons row described ih =>
      rw [mergeLocals]
      rcases round_cases row typed with ⟨_, hfind, herase⟩ | ⟨before, found, after, rfl, _, _,
        hfind, herase⟩
      · rw [hfind, herase]
        exact ih typed
      · rw [hfind, herase, List.map_append, List.map_cons]
        refine ((ih (before ++ after)).cons found.text).trans ?_
        rw [List.map_append]
        exact List.perm_middle.symm

theorem descriptors_mergeLocals (described typed : List LocalEntry) :
    (mergeLocals described typed).map (·.descriptor) =
      described.map (·.text) ++ (unmatched described typed).map fun _ => "" := by
  have hsplit := List.take_append_drop described.length (mergeLocals described typed)
  rw [← hsplit, List.map_append, take_mergeLocals, drop_mergeLocals, List.map_map]
  rfl

/-- The variables of the result name the classes that the texts of both tables name. -/
theorem mem_mentions_mergeLocals {described typed : List LocalEntry} {name : ClassName} :
    name ∈ (mergeLocals described typed).flatMap LocalVariable.mentions ↔
      ∃ row ∈ described ++ typed, name ∈ Descriptor.classNames row.text := by
  have hempty : name ∉ Descriptor.classNames "" := by
    have hnone : Descriptor.classNames "" = [] := by decide +kernel
    rw [hnone]
    exact List.not_mem_nil
  have hdescriptors : (∃ slot ∈ mergeLocals described typed,
        name ∈ Descriptor.classNames slot.descriptor) ↔
      ∃ row ∈ described, name ∈ Descriptor.classNames row.text := by
    calc _ ↔ ∃ text ∈ (mergeLocals described typed).map (·.descriptor),
          name ∈ Descriptor.classNames text := by simp
      _ ↔ ∃ text ∈ described.map (·.text) ++ (unmatched described typed).map fun _ => "",
          name ∈ Descriptor.classNames text := by rw [descriptors_mergeLocals]
      _ ↔ _ := by simp [hempty, or_and_right, exists_or]
  have hsignatures : (∃ slot ∈ mergeLocals described typed,
        ∃ text, slot.signature = some text ∧ name ∈ Descriptor.classNames text) ↔
      ∃ row ∈ typed, name ∈ Descriptor.classNames row.text := by
    calc _ ↔ ∃ text ∈ (mergeLocals described typed).filterMap (·.signature),
          name ∈ Descriptor.classNames text := by
            simp only [List.mem_filterMap]
            grind
      _ ↔ ∃ text ∈ typed.map (·.text), name ∈ Descriptor.classNames text := by
            simp only [(signatures_perm described typed).mem_iff]
      _ ↔ _ := by simp
  simp only [List.mem_flatMap, LocalVariable.mentions, mem_typeMentions, TypeNames, and_or_left,
    exists_or, hdescriptors, hsignatures, List.mem_append, or_and_right]

/-- Nothing is lost and nothing doubled when the tables are merged.  The described rows come
first, in order; the one after `k` others of its variable has the signature of the typed
row after `k` others, if there is one.  The typed rows that are left follow in order, with
an empty descriptor.  So the classes named are those of all texts of both tables, whatever
the order of the rows and of the tables they stand in. -/
theorem mergeLocals_keeps_every_text :
    (∀ described typed : List LocalEntry,
      ((mergeLocals described typed).take described.length).map (·.descriptor) =
        described.map (·.text) ∧
      (∀ before row after, described = before ++ row :: after →
        ((mergeLocals described typed)[before.length]?).map (·.signature) =
          some (((rowsOf row.key typed)[(rowsOf row.key before).length]?).map (·.text))) ∧
      (mergeLocals described typed).drop described.length =
        (unmatched described typed).map (fun row => ⟨"", some row.text⟩) ∧
      ((mergeLocals described typed).filterMap (·.signature)).Perm (typed.map (·.text)) ∧
      ∀ name, name ∈ (mergeLocals described typed).flatMap LocalVariable.mentions ↔
        ∃ row ∈ described ++ typed, name ∈ Descriptor.classNames row.text) ∧
    (∀ described described' typed typed' : List LocalEntry,
      described.Perm described' → typed.Perm typed' →
        ∀ name, name ∈ (mergeLocals described typed).flatMap LocalVariable.mentions ↔
          name ∈ (mergeLocals described' typed').flatMap LocalVariable.mentions) ∧
    ∀ (instructions : List Instruction) (tables : List CodeAttribute) (name : ClassName),
      name ∈ (Body.ofAttributes instructions tables).localVariables.flatMap
          LocalVariable.mentions ↔
        ∃ table ∈ tables, ∃ row ∈ table.describedEntries ++ table.typedEntries,
          name ∈ Descriptor.classNames row.text := by
  refine ⟨fun described typed => ⟨take_mergeLocals described typed, ?_,
    drop_mergeLocals described typed, signatures_perm described typed,
    fun name => mem_mentions_mergeLocals⟩, ?_, ?_⟩
  · rintro before row after rfl
    rw [getElem?_mergeLocals]
    rfl
  · intro described described' typed typed' hdescribed htyped name
    rw [mem_mentions_mergeLocals, mem_mentions_mergeLocals]
    simp only [(hdescribed.append htyped).mem_iff]
  · intro instructions tables name
    rw [Body.ofAttributes, mem_mentions_mergeLocals]
    simp only [List.mem_append, List.mem_flatMap]
    grind

/-- Two rows of one variable. -/
def sharedSlot (first second : String) : List LocalEntry :=
  [⟨0, 4, 1, first⟩, ⟨0, 4, 1, second⟩]

/-- The second row of a variable finds the second signature, past a row of another variable. -/
theorem mergeLocals_sharedSlot :
    ((mergeLocals (sharedSlot "La;" "Lb;")
        (⟨2, 2, 3, "Lc<Ld;>;"⟩ :: sharedSlot "La<Le;>;" "Lb<Lf;>;"))[1]?).map (·.signature) =
      some (some "Lb<Lf;>;") ∧
    ∀ name, name ∈ (mergeLocals (sharedSlot "La;" "Lb;") []).flatMap LocalVariable.mentions ↔
      name ∈ (mergeLocals (sharedSlot "Lb;" "La;") []).flatMap LocalVariable.mentions := by
  obtain ⟨hmerge, horder, -⟩ := mergeLocals_keeps_every_text
  refine ⟨?_, horder _ _ _ _ (.swap _ _ _) .nil⟩
  exact (hmerge _ _).2.1 [⟨0, 4, 1, "La;"⟩] ⟨0, 4, 1, "Lb;"⟩ [] rfl

end ClassFile
end Classpath
