import Classpath.CommandLine.EntryName
import Mathlib.Data.List.DropRight

/-!
# What is left of a typed entry name

Whatever stands between the characters of an entry name and at its ends, the name is
made of the characters that are not blank, less the word `import` in front and the
semicolons at the end.  The semicolons are looked for once, in one run.  So a text that
ends in two runs of semicolons with blanks between them keeps the first run, and this
is the only way in which a name can end in a semicolon or change when it is typed again.
-/

namespace Classpath
namespace Text

/-- The characters that are not blank. -/
def visible (cs : List Char) : List Char := cs.filter (!isBlank ·)

/-- There are blanks only. -/
def AllBlank (cs : List Char) : Prop := ∀ c ∈ cs, isBlank c = true

instance (cs : List Char) : Decidable (AllBlank cs) :=
  decidable_of_iff (cs.all isBlank = true) List.all_eq_true

@[simp]
theorem visible_append (before after : List Char) :
    visible (before ++ after) = visible before ++ visible after :=
  List.filter_append before after

theorem AllBlank.visible_eq_nil {cs : List Char} (h : AllBlank cs) : visible cs = [] := by
  rw [visible, List.filter_eq_nil_iff]
  intro c hc
  simp [h c hc]

theorem isBlank_of_mem_visible {cs : List Char} {c : Char} (h : c ∈ visible cs) :
    isBlank c = false := by
  simpa using (List.mem_filter.1 h).2

theorem visible_eq_self {cs : List Char} (h : ∀ c ∈ cs, isBlank c = false) : visible cs = cs := by
  simpa [visible, List.filter_eq_self] using h

/-- Only blanks stand after the last character that is not blank. -/
theorem getLast?_visible_eq_some_iff {cs : List Char} {c : Char} :
    (visible cs).getLast? = some c ↔
      isBlank c = false ∧ ∃ before after, cs = before ++ c :: after ∧ AllBlank after := by
  constructor
  · intro h
    refine ⟨isBlank_of_mem_visible (List.mem_of_getLast? h), ?_⟩
    -- From the back, blanks are passed over until the character is met.
    induction cs using List.reverseRecOn with
    | nil => simp [visible] at h
    | append_singleton cs last ih =>
        by_cases hlast : isBlank last = true
        · have hblank : visible [last] = [] := by simp [visible, hlast]
          rw [visible_append, hblank, List.append_nil] at h
          obtain ⟨before, after, rfl, hafter⟩ := ih h
          refine ⟨before, after ++ [last], by simp, ?_⟩
          intro other hother
          rcases List.mem_append.1 hother with hold | hnew
          · exact hafter other hold
          · rwa [List.mem_singleton.1 hnew]
        · have hself : visible [last] = [last] := by simp [visible, hlast]
          rw [visible_append, hself, List.getLast?_concat, Option.some_inj] at h
          exact ⟨cs, [], by rw [h], by simp [AllBlank]⟩
  · rintro ⟨hc, before, after, rfl, hafter⟩
    have hself : visible (c :: after) = [c] := by
      rw [← hafter.visible_eq_nil]
      simp [visible, hc]
    rw [visible_append, hself, List.getLast?_concat]

/-! ## Cutting at the end -/

theorem trimEnd_eq_rdropWhile (cs : List Char) : trimEnd cs = cs.rdropWhile isBlank := rfl

/-- What is cut off goes on into the first text only if nothing is left of the second. -/
theorem rdropWhile_append (p : Char → Bool) (before after : List Char) :
    (before ++ after).rdropWhile p =
      if after.rdropWhile p = [] then before.rdropWhile p else before ++ after.rdropWhile p := by
  simp only [List.rdropWhile, List.reverse_append, List.dropWhile_append, List.reverse_eq_nil_iff,
    List.isEmpty_iff]
  split
  · rfl
  · rw [List.reverse_append, List.reverse_reverse]

theorem trimEnd_append (before after : List Char) :
    trimEnd (before ++ after) =
      if trimEnd after = [] then trimEnd before else before ++ trimEnd after :=
  rdropWhile_append isBlank before after

theorem AllBlank.trimEnd_eq_nil {cs : List Char} (h : AllBlank cs) : trimEnd cs = [] :=
  List.rdropWhile_eq_nil_iff.2 h

/-- What is left does not end in a character to be cut off. -/
theorem not_of_rdropWhile_eq_concat {p : Char → Bool} {cs before : List Char} {c : Char}
    (h : cs.rdropWhile p = before ++ [c]) : p c = false := by
  have hlast := List.rdropWhile_last_not p cs (by simp [h])
  simpa [h] using hlast

theorem exists_eq_trimEnd_append (cs : List Char) :
    ∃ blanks, AllBlank blanks ∧ cs = trimEnd cs ++ blanks :=
  ⟨cs.rtakeWhile isBlank, fun _ hc => List.mem_rtakeWhile_imp hc,
    List.rdropWhile_append_rtakeWhile.symm⟩

theorem visible_trimEnd (cs : List Char) : visible (trimEnd cs) = visible cs := by
  obtain ⟨blanks, hblanks, hcut⟩ := exists_eq_trimEnd_append cs
  conv_rhs => rw [hcut, visible_append, hblanks.visible_eq_nil, List.append_nil]

/-- Trimming takes blanks from the front of what is left at the end. -/
theorem exists_trimEnd_eq_append_trim (cs : List Char) :
    ∃ blanks, AllBlank blanks ∧ trimEnd cs = blanks ++ trim cs := by
  have hblank : AllBlank (cs.takeWhile isBlank) := fun c hc => List.mem_takeWhile_imp hc
  have hcut : trimEnd cs = trimEnd (cs.takeWhile isBlank ++ cs.dropWhile isBlank) := by
    rw [List.takeWhile_append_dropWhile]
  rw [hcut, trimEnd_append]
  split
  · next hnil =>
      refine ⟨[], by simp [AllBlank], ?_⟩
      rw [hblank.trimEnd_eq_nil, trim, hnil]
      rfl
  · exact ⟨_, hblank, rfl⟩

theorem trimEnd_trim (cs : List Char) : trimEnd (trim cs) = trim cs :=
  List.rdropWhile_idempotent _ _

theorem visible_trim (cs : List Char) : visible (trim cs) = visible cs := by
  obtain ⟨blanks, hblanks, hcut⟩ := exists_trimEnd_eq_append_trim cs
  rw [← visible_trimEnd cs, hcut, visible_append, hblanks.visible_eq_nil, List.nil_append]

end Text

namespace CommandLine

open Text

/-- The text without the blanks and then the semicolons at its end. -/
def withoutEnding (cs : List Char) : List Char := (trimEnd cs).rdropWhile (· = ';')

/-- The word `import` stands in front, and a blank after it. -/
def BeginsWithImport (cs : List Char) : Prop :=
  ∃ blank rest, isBlank blank = true ∧ cs = "import".toList ++ blank :: rest

theorem dropImport_of_import {blank : Char} (hblank : isBlank blank = true) (rest : List Char) :
    dropImport ("import".toList ++ blank :: rest) = trim (blank :: rest) := by
  have hstart : dropStart? "import".toList ("import".toList ++ blank :: rest) =
      some (blank :: rest) := dropStart?_eq_some_iff.2 rfl
  rw [dropImport, hstart]
  simp [hblank]

theorem dropImport_of_not {cs : List Char} (h : ¬ BeginsWithImport cs) : dropImport cs = cs := by
  rw [dropImport]
  split
  · next c rest hstart =>
      rw [if_neg]
      intro hc
      exact h ⟨c, rest, hc, dropStart?_eq_some_iff.1 hstart⟩
  · rfl

theorem rdropWhile_semicolon_eq_self_iff {cs : List Char} :
    cs.rdropWhile (· = ';') = cs ↔ cs.getLast? ≠ some ';' := by
  rcases cs.eq_nil_or_concat with rfl | ⟨before, c, rfl⟩
  · simp
  · simp [List.rdropWhile_eq_self_iff]

theorem visible_dropSemicolons (cs : List Char) :
    visible (dropSemicolons cs) = visible (cs.rdropWhile (· = ';')) := by
  rw [dropSemicolons]
  split
  · exact visible_trim _
  · next hlast => rw [rdropWhile_semicolon_eq_self_iff.2 hlast]

theorem toList_entryName (typed : String) :
    (entryName typed).toList =
      visible ((dropImport (trim typed.toList)).rdropWhile (· = ';')) := by
  rw [← visible_dropSemicolons]
  exact String.toList_ofList

/-- A text without semicolons in front stays in front. -/
theorem visible_rdropWhile_append {before : List Char} (hbefore : ';' ∉ visible before)
    (cs : List Char) :
    visible ((before ++ cs).rdropWhile (· = ';')) =
      visible before ++ visible (cs.rdropWhile (· = ';')) := by
  have hnone : ';' ∉ before := fun h => hbefore (List.mem_filter.2 ⟨h, by decide⟩)
  rw [rdropWhile_append]
  split
  · next hnil =>
      have hself : before.rdropWhile (· = ';') = before :=
        rdropWhile_semicolon_eq_self_iff.2 fun h => hnone (List.mem_of_getLast? h)
      rw [hself, hnil]
      simp [visible]
  · rw [visible_append]

/-! ## The characters of the name -/

theorem toList_entryName_of_not_import {typed : String}
    (h : ¬ BeginsWithImport (trim typed.toList)) :
    (entryName typed).toList = visible (withoutEnding typed.toList) := by
  obtain ⟨blanks, hblanks, hcut⟩ := exists_trimEnd_eq_append_trim typed.toList
  have hvisible := hblanks.visible_eq_nil
  rw [toList_entryName, dropImport_of_not h, withoutEnding, hcut,
    visible_rdropWhile_append (by simp [hvisible]), hvisible, List.nil_append]

theorem toList_entryName_of_import {typed : String}
    (h : BeginsWithImport (trim typed.toList)) :
    "import".toList ++ (entryName typed).toList = visible (withoutEnding typed.toList) := by
  obtain ⟨blank, rest, hblank, htrim⟩ := h
  obtain ⟨blanks, hblanks, hcut⟩ := exists_trimEnd_eq_append_trim typed.toList
  -- The end of the text has no blanks, so trimming after the word takes none from there.
  have hend : trimEnd (blank :: rest) = blank :: rest := by
    have hself := trimEnd_trim typed.toList
    rw [htrim, trimEnd_eq_rdropWhile, List.rdropWhile_eq_self_iff] at hself
    rw [trimEnd_eq_rdropWhile, List.rdropWhile_eq_self_iff]
    intro hne
    simpa using hself (by simp)
  obtain ⟨gap, hgap, hrest⟩ := exists_trimEnd_eq_append_trim (blank :: rest)
  have hbefore : visible (blanks ++ "import".toList ++ gap) = "import".toList := by
    rw [visible_append, visible_append, hblanks.visible_eq_nil, hgap.visible_eq_nil,
      List.append_nil]
    decide
  have hsplit : trimEnd typed.toList =
      (blanks ++ "import".toList ++ gap) ++ trim (blank :: rest) := by
    rw [hcut, htrim, List.append_assoc, List.append_assoc, ← hrest, hend]
  rw [toList_entryName, htrim, dropImport_of_import hblank, withoutEnding, hsplit,
    visible_rdropWhile_append (by rw [hbefore]; decide), hbefore]

/-! ## Decorated names -/

/-- Nothing is cut off from a text whose last visible character is no semicolon. -/
theorem rdropWhile_semicolon_eq_self {cs : List Char} (h : (visible cs).getLast? ≠ some ';') :
    cs.rdropWhile (· = ';') = cs := by
  rw [rdropWhile_semicolon_eq_self_iff]
  intro hlast
  obtain ⟨before, rfl⟩ := List.getLast?_eq_some_iff.1 hlast
  exact h (getLast?_visible_eq_some_iff.2 ⟨by decide, before, [], rfl, by simp [AllBlank]⟩)

/-- A run of semicolons at the end is cut off as a whole, with the blanks after it. -/
theorem withoutEnding_run (body : List Char) (count : Nat) {ending : List Char}
    (hending : AllBlank ending) :
    withoutEnding (body ++ List.replicate (count + 1) ';' ++ ending) =
      body.rdropWhile (· = ';') := by
  have htrim : trimEnd (body ++ List.replicate (count + 1) ';' ++ ending) =
      body ++ List.replicate (count + 1) ';' := by
    rw [trimEnd_append, if_pos hending.trimEnd_eq_nil, List.replicate_succ', ← List.append_assoc]
    exact List.rdropWhile_concat_neg _ _ _ (by decide)
  have hrun : (List.replicate (count + 1) ';').rdropWhile (· = ';') = [] := by
    rw [List.rdropWhile_eq_nil_iff]
    intro c hc
    simpa using List.eq_of_mem_replicate hc
  rw [withoutEnding, htrim, rdropWhile_append, if_pos hrun]

/-- Of a text that has no semicolon at its end yet, a run of them takes nothing away. -/
theorem visible_withoutEnding {body ending : List Char}
    (hbody : (visible body).getLast? ≠ some ';') (hending : AllBlank ending) (count : Nat) :
    visible (withoutEnding (body ++ List.replicate count ';' ++ ending)) = visible body := by
  cases count with
  | zero =>
      have hlast : (visible (trimEnd body)).getLast? ≠ some ';' := by rwa [visible_trimEnd]
      rw [List.replicate_zero, List.append_nil, withoutEnding, trimEnd_append,
        if_pos hending.trimEnd_eq_nil, rdropWhile_semicolon_eq_self hlast, visible_trimEnd]
  | succ count => rw [withoutEnding_run body count hending, rdropWhile_semicolon_eq_self hbody]

theorem beginsWithImport_trim {lead gap body : List Char} (hlead : AllBlank lead)
    (hgap : AllBlank gap) (hne : gap ≠ []) (hbody : visible body ≠ []) :
    BeginsWithImport (trim (lead ++ "import".toList ++ gap ++ body)) := by
  obtain ⟨blank, rest, rfl⟩ := List.exists_cons_of_ne_nil hne
  have hkept : trimEnd body ≠ [] := by
    intro hnil
    rw [← visible_trimEnd, hnil] at hbody
    exact hbody rfl
  refine ⟨blank, rest ++ trimEnd body, hgap blank List.mem_cons_self, ?_⟩
  have hstart : (lead ++ "import".toList ++ blank :: rest ++ body).dropWhile isBlank =
      "import".toList ++ blank :: rest ++ body := by
    rw [List.append_assoc, List.append_assoc, List.dropWhile_append_of_pos hlead,
      ← List.append_assoc]
    exact List.dropWhile_cons_of_neg (by decide)
  rw [trim, hstart, trimEnd_append, if_neg hkept, List.append_assoc]
  rfl

/-- A name as it may be meant: it has characters, none of them blank, and does not end in a
semicolon. -/
structure IsPlainName (name : String) : Prop where
  ne_empty : name ≠ ""
  no_blank : ∀ c ∈ name.toList, isBlank c = false
  last_ne : name.toList.getLast? ≠ some ';'

/-- All decoration of a name is removed: blanks anywhere, the word `import` with blanks
after it in front, and a run of semicolons at the end. -/
theorem entryName_of_decorated {name body lead between ending : String}
    (hname : IsPlainName name) (hbody : visible body.toList = name.toList)
    (hlead : AllBlank lead.toList) (hbetween : AllBlank between.toList)
    (hending : AllBlank ending.toList) (count : Nat) :
    (∀ gap : String, gap ≠ "" → AllBlank gap.toList →
      entryName (lead ++ "import" ++ gap ++ body ++ between ++
        String.ofList (List.replicate count ';') ++ ending) = name) ∧
    (¬ BeginsWithImport (trim (lead ++ body ++ between ++
        String.ofList (List.replicate count ';') ++ ending).toList) →
      entryName (lead ++ body ++ between ++
        String.ofList (List.replicate count ';') ++ ending) = name) := by
  have hne : name.toList ≠ [] := fun h => hname.ne_empty (String.toList_eq_nil_iff.1 h)
  constructor
  · intro gap hgapNe hgap
    have hvisible : visible (lead.toList ++ "import".toList ++ gap.toList ++ body.toList ++
        between.toList) = "import".toList ++ name.toList := by
      simp only [visible_append, hlead.visible_eq_nil, hgap.visible_eq_nil, hbody,
        hbetween.visible_eq_nil, List.nil_append, List.append_nil]
      rfl
    have hlast : ("import".toList ++ name.toList).getLast? ≠ some ';' := by
      rw [List.getLast?_append_of_ne_nil _ hne]
      exact hname.last_ne
    have himport : BeginsWithImport (trim (lead ++ "import" ++ gap ++ body ++ between ++
        String.ofList (List.replicate count ';') ++ ending).toList) := by
      have hrest : visible (body.toList ++ (between.toList ++
          (List.replicate count ';' ++ ending.toList))) ≠ [] := by
        rw [visible_append, hbody]
        exact List.append_ne_nil_of_left_ne_nil hne _
      have hstarts := beginsWithImport_trim hlead hgap
        (fun h => hgapNe (String.toList_eq_nil_iff.1 h)) hrest
      simpa only [String.toList_append, String.toList_ofList, List.append_assoc] using hstarts
    have hchars := toList_entryName_of_import himport
    simp only [String.toList_append, String.toList_ofList] at hchars
    rw [visible_withoutEnding (by rwa [hvisible]) hending, hvisible] at hchars
    exact String.toList_inj.1 (List.append_cancel_left hchars)
  · intro himport
    have hvisible : visible (lead.toList ++ body.toList ++ between.toList) = name.toList := by
      simp only [visible_append, hlead.visible_eq_nil, hbody, hbetween.visible_eq_nil,
        List.nil_append, List.append_nil]
    rw [← String.toList_inj, toList_entryName_of_not_import himport]
    simp only [String.toList_append, String.toList_ofList]
    rw [visible_withoutEnding (by rw [hvisible]; exact hname.last_ne) hending, hvisible]

theorem entryName_importer :
    entryName " import\timporter. App ;;\n" = "importer.App" ∧
      entryName " importer. App ;;\n" = "importer.App" := by
  have hvisible : visible "importer.App".toList = "importer.App".toList := rfl
  have hname : IsPlainName "importer.App" := by
    refine ⟨by decide, fun c hc => ?_, by decide⟩
    rw [← hvisible] at hc
    exact isBlank_of_mem_visible hc
  have hdecorated := entryName_of_decorated hname (rfl : visible "importer. App".toList = _)
    (by decide : AllBlank " ".toList) (by decide : AllBlank " ".toList)
    (by decide : AllBlank "\n".toList) 2
  refine ⟨hdecorated.1 "\t" (by decide) (by decide), hdecorated.2 ?_⟩
  rintro ⟨blank, rest, hblank, htrim⟩
  -- The word is followed by a letter.
  have hnext : (trim " importer. App ;;\n".toList)[6]? = some 'e' := by decide +kernel
  obtain rfl : blank = 'e' := by
    simpa using (congrArg (fun cs => cs[6]?) htrim).symm.trans hnext
  exact absurd hblank (by decide)

/-! ## Clean names -/

/-- The text ends in two runs of semicolons with blanks between them, and perhaps blanks
after them. -/
def StrandsSemicolon (cs : List Char) : Prop :=
  ∃ start gap count ending, gap ≠ [] ∧ AllBlank gap ∧ AllBlank ending ∧
    cs = start ++ ';' :: gap ++ List.replicate (count + 1) ';' ++ ending

theorem exists_eq_rdropWhile_append_replicate (cs : List Char) :
    ∃ count, cs = cs.rdropWhile (· = ';') ++ List.replicate count ';' := by
  have hrun : cs.rtakeWhile (· = ';') =
      List.replicate (cs.rtakeWhile (· = ';')).length ';' := by
    rw [List.eq_replicate_iff]
    exact ⟨rfl, fun c hc => by simpa using List.mem_rtakeWhile_imp hc⟩
  refine ⟨(cs.rtakeWhile (· = ';')).length, ?_⟩
  rw [← hrun]
  exact List.rdropWhile_append_rtakeWhile.symm

theorem getLast?_visible_withoutEnding_iff {cs : List Char} :
    (visible (withoutEnding cs)).getLast? = some ';' ↔ StrandsSemicolon cs := by
  rw [getLast?_visible_eq_some_iff]
  constructor
  · rintro ⟨-, start, gap, hcut, hgap⟩
    obtain ⟨ending, hending, hcs⟩ := exists_eq_trimEnd_append cs
    obtain ⟨count, hrun⟩ := exists_eq_rdropWhile_append_replicate (trimEnd cs)
    rw [← withoutEnding, hcut] at hrun
    -- Neither the blanks nor the semicolons after them can be missing, since both cuts are
    -- made as far as they go.
    rcases gap.eq_nil_or_concat' with rfl | ⟨blanks, blank, rfl⟩
    · exact absurd (not_of_rdropWhile_eq_concat hcut) (by decide)
    · cases count with
      | zero =>
          rw [List.replicate_zero, List.append_nil, ← List.cons_append, ← List.append_assoc] at hrun
          have hblank := not_of_rdropWhile_eq_concat hrun
          rw [hgap blank (by simp)] at hblank
          exact absurd hblank (by decide)
      | succ count =>
          refine ⟨start, _, count, ending, by simp, hgap, hending, ?_⟩
          rw [← hrun]
          exact hcs
  · rintro ⟨start, gap, count, ending, hne, hgap, hending, rfl⟩
    refine ⟨by decide, start, gap, ?_, hgap⟩
    rw [withoutEnding_run _ count hending, rdropWhile_semicolon_eq_self_iff]
    intro hlast
    rcases gap.eq_nil_or_concat' with rfl | ⟨blanks, blank, rfl⟩
    · exact hne rfl
    · have hblank := hgap blank (by simp)
      rw [← List.cons_append, ← List.append_assoc, List.getLast?_concat, Option.some_inj] at hlast
      rw [hlast] at hblank
      exact absurd hblank (by decide)

theorem isBlank_of_mem_entryName {typed : String} {c : Char} (h : c ∈ (entryName typed).toList) :
    isBlank c = false := by
  rw [toList_entryName] at h
  exact isBlank_of_mem_visible h

theorem getLast?_entryName_iff {typed : String} :
    (entryName typed).toList.getLast? = some ';' ↔ StrandsSemicolon typed.toList := by
  rw [← getLast?_visible_withoutEnding_iff]
  by_cases himport : BeginsWithImport (trim typed.toList)
  · rw [← toList_entryName_of_import himport, List.getLast?_append]
    cases (entryName typed).toList.getLast? with
    | none => simp
    | some c => simp
  · rw [toList_entryName_of_not_import himport]

/-- Typed without blanks, a name loses only the semicolons at its end. -/
theorem toList_entryName_of_visible {name : String} (h : ∀ c ∈ name.toList, isBlank c = false) :
    (entryName name).toList = name.toList.rdropWhile (· = ';') := by
  have hself : trimEnd name.toList = name.toList := by
    rw [trimEnd_eq_rdropWhile, List.rdropWhile_eq_self_iff]
    intro hne
    simp [h _ (List.getLast_mem hne)]
  have himport : ¬ BeginsWithImport (trim name.toList) := by
    rintro ⟨blank, rest, hblank, htrim⟩
    obtain ⟨blanks, -, hcut⟩ := exists_trimEnd_eq_append_trim name.toList
    have hmem : blank ∈ name.toList := by
      rw [← hself, hcut, htrim]
      simp
    rw [h blank hmem] at hblank
    exact absurd hblank (by decide)
  rw [toList_entryName_of_not_import himport, withoutEnding, hself]
  exact visible_eq_self fun c hc => h c ((List.rdropWhile_prefix _ _).subset hc)

/-- An entry name never holds a blank.  It does not end in a semicolon, and stays as it is
when it is typed again, exactly if the text typed does not end in two runs of semicolons
with blanks between them. -/
theorem entryName_clean_iff (typed : String) :
    (∀ c ∈ (entryName typed).toList, isBlank c = false) ∧
    ((entryName typed).toList.getLast? ≠ some ';' ↔ ¬ StrandsSemicolon typed.toList) ∧
    (entryName (entryName typed) = entryName typed ↔ ¬ StrandsSemicolon typed.toList) := by
  refine ⟨fun c hc => isBlank_of_mem_entryName hc, not_congr getLast?_entryName_iff, ?_⟩
  rw [← getLast?_entryName_iff, ← String.toList_inj,
    toList_entryName_of_visible fun c hc => isBlank_of_mem_entryName hc]
  exact rdropWhile_semicolon_eq_self_iff

/-- The first of two semicolons with a blank between them stays, and goes when the name is
typed again. -/
theorem entryName_strandedSemicolon :
    entryName "a; ;" = "a;" ∧ entryName (entryName "a; ;") = "a" := by
  decide +kernel

end CommandLine
end Classpath
