import Classpath.Proofs.ClassFile.AnnotationTree
import Classpath.Proofs.ClassFile.ReadInversion
import Classpath.Proofs.ClassFile.Recipe

/-!
# The calls that annotations take

An annotation holds element values, and these hold annotations and further values, in
numbers that the bytes declare.  Reading one is bounded by a depth.  The bound is never
felt, since every call that succeeds uses up several bytes: the number of calls, and so
how deep they nest, is limited by the bytes, whatever the counts say.
-/

namespace Classpath
namespace ClassFile

namespace Annotations

/-- An annotation, given how its element values are passed over. -/
def annotationBody (pool : ConstantPool) (value : Reader Unit) : Reader String := do
  let type ← Reader.text pool
  let pairs ← Reader.u2
  let _ ← Reader.times pairs.toNat do
    Reader.skip 2
    value
  return type

/-- An element value, given how the annotations and the values in it are passed over. -/
def valueBody (mark : Reader String) (value : Reader Unit) : Reader Unit := do
  let tag ← Reader.u1
  if isConstantTag (Char.ofNat tag.toNat) then
    Reader.skip 2
  else if Char.ofNat tag.toNat = 'e' then
    Reader.skip 2
    Reader.skip 2
  else if Char.ofNat tag.toNat = '@' then
    let _ ← mark
  else if Char.ofNat tag.toNat = '[' then
    let count ← Reader.u2
    let _ ← Reader.times count.toNat value
  else
    throw (.malformed .elementValue)

theorem readWithin_eq (depth : Nat) (pool : ConstantPool) :
    readWithin depth pool = annotationBody pool (skipValueWithin depth pool) := by
  rw [readWithin, annotationBody]

theorem skipValueWithin_zero (pool : ConstantPool) :
    skipValueWithin 0 pool = throw .unexpectedEnd := by
  rw [skipValueWithin]

theorem skipValueWithin_succ (depth : Nat) (pool : ConstantPool) :
    skipValueWithin (depth + 1) pool =
      valueBody (readWithin depth pool) (skipValueWithin depth pool) := by
  rw [skipValueWithin, valueBody]

end Annotations

namespace Recipe

/-! ## Recipes for annotations -/

def annotationBody (pool : ConstantPool) {skip : Reader Unit} (value : Recipe skip) :
    Recipe (Annotations.annotationBody pool skip) :=
  (text pool).bind fun type => u2.bind fun pairs =>
    (times ((skipFew 2).bind fun _ => value) pairs.toNat).map fun _ => type

def valueBody {read : Reader String} {skip : Reader Unit} (mark : Recipe read)
    (value : Recipe skip) : Recipe (Annotations.valueBody read skip) :=
  Recipe.byte.bind fun _ =>
    .choice (fun _ => skipFew 2) fun _ =>
    .choice (fun _ => (skipFew 2).bind fun _ => skipFew 2) fun _ =>
    .choice (fun _ => mark.map fun _ => ()) fun _ =>
    .choice (fun _ => u2.bind fun count => (value.times count.toNat).map fun _ => ()) fun _ =>
    .fail (.malformed .elementValue)

/-- One call for an annotation, given the calls for its values. -/
def annotationOf {depth : Nat} {pool : ConstantPool}
    (value : Recipe (Annotations.skipValueWithin depth pool)) :
    Recipe (Annotations.readWithin depth pool) :=
  .call <| .ofEq (Annotations.readWithin_eq depth pool) (annotationBody pool value)

/-- One call for an element value, and the calls that it makes. -/
def value (pool : ConstantPool) :
    (depth : Nat) → Recipe (Annotations.skipValueWithin depth pool)
  | 0 => .call <| .ofEq (Annotations.skipValueWithin_zero pool) (.fail .unexpectedEnd)
  | depth + 1 => .call <| .ofEq (Annotations.skipValueWithin_succ depth pool) <|
      valueBody (annotationOf (value pool depth)) (value pool depth)

def mark (pool : ConstantPool) (depth : Nat) : Recipe (Annotations.readWithin depth pool) :=
  annotationOf (value pool depth)

end Recipe

/-! ## Counting calls -/

/-- The calls of a run: how many there are, and how deep they nest. -/
structure Calls where
  total : Nat
  deepest : Nat
deriving DecidableEq, Repr

namespace Calls

def none : Calls := ⟨0, 0⟩

/-- The calls of two runs, one after the other. -/
def andThen (first next : Calls) : Calls :=
  ⟨first.total + next.total, max first.deepest next.deepest⟩

/-- One more call, in which all others are made. -/
def around (inner : Calls) : Calls := ⟨inner.total + 1, inner.deepest + 1⟩

end Calls

namespace Recipe

/-- The calls that are made on an input, up to the end of the run or its failure. -/
def calls {α : Type} {reader : Reader α} : Recipe reader → Bytes → Calls
  | .pure _, _ | .fail _, _ | .byte, _ | .word _ _, _ | .skip _, _ | .work _, _ => .none
  | @slice _ n _ _ rest, input =>
      match Reader.bytes n input with
      | .ok taken left => if h : taken.length = n then (rest taken h).calls left else .none
      | .error _ _ => .none
  | .signed rest, input =>
      match Reader.u4 input with
      | .ok number left => (rest number.toInt32).calls left
      | .error _ _ => .none
  | @bind _ _ first _ start rest, input =>
      match first input with
      | .ok value left => (start.calls input).andThen ((rest value).calls left)
      | .error _ _ => start.calls input
  | .within bound recipe, input => (recipe (bound input.length)).calls input
  | .ofEq _ recipe, input => recipe.calls input
  | .call recipe, input => (recipe.calls input).around

variable {α β : Type} {reader first : Reader α} {next : α → Reader β}

theorem calls_bind_of_ok (start : Recipe first) (rest : (value : α) → Recipe (next value))
    {input left : Bytes} {value : α} (h : first input = .ok value left) :
    (start.bind rest).calls input = (start.calls input).andThen ((rest value).calls left) := by
  rw [calls, h]

theorem calls_bind_of_error (start : Recipe first) (rest : (value : α) → Recipe (next value))
    {input left : Bytes} {error : DecodeError} (h : first input = .error error left) :
    (start.bind rest).calls input = start.calls input := by
  rw [calls, h]

/-- Calls that nest are different calls. -/
theorem deepest_le_total (recipe : Recipe reader) (input : Bytes) :
    (recipe.calls input).deepest ≤ (recipe.calls input).total := by
  induction recipe generalizing input with
  | pure value => exact Nat.le_refl 0
  | fail error => exact Nat.le_refl 0
  | byte => exact Nat.le_refl 0
  | word width value => exact Nat.le_refl 0
  | skip length => exact Nat.le_refl 0
  | work task => exact Nat.le_refl 0
  | slice length rest ih =>
      rw [calls]
      split
      · split
        · exact ih _ _ _
        · exact Nat.le_refl 0
      · exact Nat.le_refl 0
  | signed rest ih =>
      rw [calls]
      split
      · exact ih _ _
      · exact Nat.le_refl 0
  | bind start rest hstart hrest =>
      have hfirst := hstart input
      rw [calls]
      split
      · next value left _ =>
          have hsecond := hrest value left
          exact Nat.max_le.2 ⟨Nat.le_trans hfirst (Nat.le_add_right _ _),
            Nat.le_trans hsecond (Nat.le_add_left _ _)⟩
      · exact hfirst
  | within bound recipe ih => exact ih _ _
  | ofEq h recipe ih => exact ih _
  | call recipe ih => exact Nat.succ_le_succ (ih input)

/-! ## Calls are paid for in bytes -/

/-- Where the recipe succeeds, it takes as many bytes as it makes calls, and `spare` more.
Where it fails, the calls exceed the bytes taken before by at most `debt`. -/
structure Affords (recipe : Recipe reader) (spare debt : Nat) : Prop where
  ok : ∀ {input value left}, reader input = .ok value left →
    (recipe.calls input).total + spare + left.length ≤ input.length
  error : ∀ {input error left}, reader input = .error error left →
    (recipe.calls input).total + left.length ≤ input.length + debt

namespace Affords

variable {recipe : Recipe reader} {a b d e : Nat}

theorem mono (h : recipe.Affords a d) (hspare : b ≤ a) (hdebt : d ≤ e) : recipe.Affords b e where
  ok hok := by
    have htaken := h.ok hok
    omega
  error herror := by
    have hfailed := h.error herror
    omega

theorem pure (value : α) : (Recipe.pure value).Affords 0 0 where
  ok h := by
    obtain ⟨-, rfl⟩ := EStateM.Result.ok.inj h
    exact Nat.le_of_eq (Nat.zero_add _)
  error h := by cases h

/-- What never succeeds has any number of bytes to spare. -/
theorem fail (error : DecodeError) (spare : Nat) :
    (Recipe.fail error : Recipe (throw error : Reader α)).Affords spare 0 where
  ok h := by cases h
  error h := by
    obtain ⟨-, rfl⟩ := EStateM.Result.error.inj h
    exact Nat.le_of_eq (Nat.zero_add _)

theorem byte : Recipe.byte.Affords 1 0 where
  ok {input value left} h := by
    cases input with
    | nil => cases h
    | cons first rest =>
        obtain ⟨-, rfl⟩ := EStateM.Result.ok.inj h
        show 0 + 1 + _ ≤ _
        rw [List.length_cons]
        omega
  error {input error left} h := by
    cases input with
    | nil =>
        obtain ⟨-, rfl⟩ := EStateM.Result.error.inj h
        exact Nat.le_refl 0
    | cons first rest => cases h

/-- A read of several bytes makes no call. -/
theorem of_bytes {n : Nat} {f : Bytes → α}
    (hreader : reader = Reader.bytes n >>= fun taken => Pure.pure (f taken))
    (hcalls : ∀ input, recipe.calls input = .none) : recipe.Affords n 0 := by
  have hread : ∀ input, reader input =
      if n ≤ input.length then .ok (f (input.take n)) (input.drop n)
      else .error .unexpectedEnd input := by
    intro input
    rw [hreader]
    show EStateM.bind (Reader.bytes n) _ input = _
    rw [EStateM.bind, bytes_eq]
    by_cases hle : n ≤ input.length
    · rw [if_pos hle, if_pos hle]
      rfl
    · rw [if_neg hle, if_neg hle]
  constructor
  · intro input value left h
    rw [hread] at h
    split at h
    · next hle =>
        obtain ⟨-, rfl⟩ := EStateM.Result.ok.inj h
        rw [hcalls, List.length_drop]
        show 0 + n + _ ≤ _
        omega
    · cases h
  · intro input error left h
    rw [hread] at h
    split at h
    · cases h
    · obtain ⟨-, rfl⟩ := EStateM.Result.error.inj h
      rw [hcalls]
      exact Nat.le_of_eq (Nat.zero_add _)

theorem skipFew (n : UInt8) : (Recipe.skipFew n).Affords n.toNat 0 := of_bytes rfl fun _ => rfl

theorem u2 : Recipe.u2.Affords 2 0 := of_bytes rfl fun _ => rfl

theorem lookup (result : Except DecodeError α) : (Recipe.lookup result).Affords 0 0 := by
  cases result with
  | ok value => exact ⟨(pure value).ok, (pure value).error⟩
  | error error => exact ⟨(fail error 0).ok, (fail error 0).error⟩

/-- Bytes that the first part has to spare pay for what the second part owes. -/
theorem bind {start : Recipe first} {rest : (value : α) → Recipe (next value)}
    (hstart : start.Affords a e) (hrest : ∀ value, (rest value).Affords b d) (hdebt : d ≤ a + e) :
    (start.bind rest).Affords (a + b) e := by
  constructor
  · intro input value left h
    obtain ⟨middle, between, hfirst, hsecond⟩ := bind_eq_ok_iff.1 h
    have htaken := hstart.ok hfirst
    have htaken' := (hrest middle).ok hsecond
    rw [calls_bind_of_ok start rest hfirst]
    show (_ + _) + _ + _ ≤ _
    omega
  · intro input error left h
    replace h : EStateM.bind first next input = .error error left := h
    rw [EStateM.bind] at h
    split at h
    · next middle between hfirst =>
        have htaken := hstart.ok hfirst
        have hfailed := (hrest middle).error h
        rw [calls_bind_of_ok start rest hfirst]
        show (_ + _) + _ ≤ _
        omega
    · next other between hfirst =>
        obtain ⟨rfl, rfl⟩ := EStateM.Result.error.inj h
        rw [calls_bind_of_error start rest hfirst]
        exact hstart.error hfirst

theorem map (h : recipe.Affords a e) (f : α → β) : (recipe.map f).Affords a e :=
  h.bind (fun value => pure (f value)) (Nat.zero_le _)

theorem choice {P : Prop} {yes no : Reader α} {decision : Decidable P} {recipe : P → Recipe yes}
    {other : ¬P → Recipe no} (hyes : ∀ h, (recipe h).Affords a e)
    (hno : ∀ h, (other h).Affords a e) :
    (@Recipe.choice α P yes no decision recipe other).Affords a e := by
  cases decision with
  | isTrue h => exact hyes h
  | isFalse h => exact hno h

theorem times (h : recipe.Affords a e) (n : Nat) : (recipe.times n).Affords 0 e := by
  induction n with
  | zero => exact (pure []).mono (Nat.le_refl _) (Nat.zero_le _)
  | succ n ih =>
      have hitems := h.bind (fun first => ih.map (first :: ·)) (Nat.le_add_left _ _)
      exact hitems.mono (Nat.zero_le _) (Nat.le_refl _)

theorem ofEq {reader' : Reader α} {recipe : Recipe reader'} (hreader : reader = reader')
    (h : recipe.Affords a e) : (Recipe.ofEq hreader recipe).Affords a e := by
  subst hreader
  exact ⟨h.ok, h.error⟩

/-- The call itself takes one byte of those that are spare, or is owed. -/
theorem call (h : recipe.Affords (a + 1) 0) : recipe.call.Affords a 1 where
  ok hok := by
    have htaken := h.ok hok
    show _ + 1 + a + _ ≤ _
    omega
  error herror := by
    have hfailed := h.error herror
    show _ + 1 + _ ≤ _
    omega

theorem annotationOf {depth : Nat} {pool : ConstantPool}
    {value : Recipe (Annotations.skipValueWithin depth pool)} (h : value.Affords 2 1) :
    (Recipe.annotationOf value).Affords 3 1 := by
  have htext : (Recipe.text pool).Affords 2 0 := u2.bind (fun _ => lookup _) (Nat.zero_le _)
  -- The name of an element pays for a value that fails.
  have helement := (skipFew 2).bind (fun _ => h) (by decide)
  have hbody : (Recipe.annotationBody pool value).Affords (2 + (2 + 0)) 0 :=
    htext.bind (fun _ => u2.bind (fun pairs => (helement.times pairs.toNat).map _) (Nat.zero_le _))
      (Nat.zero_le _)
  exact call (ofEq _ hbody)

theorem valueBody {read : Reader String} {skip : Reader Unit} {mark : Recipe read}
    {value : Recipe skip} (hmark : mark.Affords 3 1) (hvalue : value.Affords 2 1) :
    (Recipe.valueBody mark value).Affords 3 0 := by
  have htwo := skipFew 2
  -- The tag pays for what is owed when a part fails.
  refine byte.bind (b := 2) (d := 1) (fun tag => ?_) (by decide)
  refine choice (fun _ => htwo.mono (by decide) (by decide)) fun _ => ?_
  refine choice (fun _ => (htwo.bind (fun _ => htwo) (by decide)).mono (by decide) (by decide))
    fun _ => ?_
  refine choice (fun _ => (hmark.map _).mono (by decide) (by decide)) fun _ => ?_
  refine choice (fun _ => ?_) fun _ => (fail _ 2).mono (by decide) (by decide)
  exact (u2.bind (fun count => (hvalue.times count.toNat).map _) (by decide)).mono (by decide)
    (by decide)

theorem value (pool : ConstantPool) (depth : Nat) : (Recipe.value pool depth).Affords 2 1 := by
  induction depth with
  | zero => exact call (ofEq _ (fail _ 3))
  | succ depth ih => exact call (ofEq _ (valueBody (annotationOf ih) ih))

end Affords

/-! ## The bound on the depth is not felt -/

/-- On inputs up to a length two recipes come to the same result through the same calls. -/
def AgreeUpTo (bound : Nat) {reader' : Reader α} (recipe : Recipe reader)
    (recipe' : Recipe reader') : Prop :=
  ∀ input : Bytes, input.length ≤ bound →
    reader input = reader' input ∧ recipe.calls input = recipe'.calls input

namespace AgreeUpTo

variable {bound : Nat} {reader' first' : Reader α} {next' : α → Reader β} {recipe : Recipe reader}
  {recipe' : Recipe reader'}

theorem refl (bound : Nat) (recipe : Recipe reader) : AgreeUpTo bound recipe recipe :=
  fun _ _ => ⟨rfl, rfl⟩

theorem mono {bound' : Nat} (h : AgreeUpTo bound recipe recipe') (hbound : bound' ≤ bound) :
    AgreeUpTo bound' recipe recipe' :=
  fun input hinput => h input (Nat.le_trans hinput hbound)

/-- Bytes that the first part has taken are not there for the second. -/
theorem bind {start : Recipe first} {start' : Recipe first'}
    {rest : (value : α) → Recipe (next value)} {rest' : (value : α) → Recipe (next' value)}
    {a e : Nat} (h : AgreeUpTo bound start start') (haffords : start.Affords a e)
    (hrest : ∀ value, AgreeUpTo (bound - a) (rest value) (rest' value)) :
    AgreeUpTo bound (start.bind rest) (start'.bind rest') := by
  intro input hinput
  obtain ⟨hread, hcalls⟩ := h input hinput
  show EStateM.bind first next input = EStateM.bind first' next' input ∧ _
  cases hfirst : first input with
  | ok value left =>
      have htaken := haffords.ok hfirst
      obtain ⟨hsecond, hcalls'⟩ := hrest value left (by omega)
      have hfirst' := hread.symm.trans hfirst
      rw [EStateM.bind, EStateM.bind, hfirst, hfirst', calls_bind_of_ok start rest hfirst,
        calls_bind_of_ok start' rest' hfirst', hcalls, hcalls']
      exact ⟨hsecond, rfl⟩
  | error error left =>
      have hfirst' := hread.symm.trans hfirst
      rw [EStateM.bind, EStateM.bind, hfirst, hfirst', calls_bind_of_error start rest hfirst,
        calls_bind_of_error start' rest' hfirst']
      exact ⟨rfl, hcalls⟩

theorem map {a e : Nat} (h : AgreeUpTo bound recipe recipe') (haffords : recipe.Affords a e)
    (f : α → β) : AgreeUpTo bound (recipe.map f) (recipe'.map f) :=
  h.bind haffords fun _ => refl _ _

theorem times {a e : Nat} (h : AgreeUpTo bound recipe recipe') (haffords : recipe.Affords a e)
    (n : Nat) : AgreeUpTo bound (recipe.times n) (recipe'.times n) := by
  induction n with
  | zero => exact refl _ _
  | succ n ih =>
      have hrest := ih.mono (Nat.sub_le bound a)
      exact h.bind haffords fun first => hrest.map (haffords.times n) (first :: ·)

theorem choice {P : Prop} {yes no yes' no' : Reader α} {decision : Decidable P}
    {whenTrue : P → Recipe yes} {whenFalse : ¬P → Recipe no} {whenTrue' : P → Recipe yes'}
    {whenFalse' : ¬P → Recipe no'} (hyes : ∀ h, AgreeUpTo bound (whenTrue h) (whenTrue' h))
    (hno : ∀ h, AgreeUpTo bound (whenFalse h) (whenFalse' h)) :
    AgreeUpTo bound (@Recipe.choice α P yes no decision whenTrue whenFalse)
      (@Recipe.choice α P yes' no' decision whenTrue' whenFalse') := by
  cases decision with
  | isTrue h => exact hyes h
  | isFalse h => exact hno h

theorem ofEq {function function' : Reader α} (hbody : function = reader)
    (hbody' : function' = reader') (h : AgreeUpTo bound recipe recipe') :
    AgreeUpTo bound (Recipe.ofEq hbody recipe) (Recipe.ofEq hbody' recipe') := by
  subst hbody hbody'
  exact h

theorem call (h : AgreeUpTo bound recipe recipe') : AgreeUpTo bound recipe.call recipe'.call :=
  fun input hinput => ⟨(h input hinput).1, congrArg Calls.around (h input hinput).2⟩

section Bodies

variable {read read' : Reader String} {skip skip' : Reader Unit} {mark : Recipe read}
  {mark' : Recipe read'} {value : Recipe skip} {value' : Recipe skip'}

theorem annotationBody (pool : ConstantPool) (h : AgreeUpTo bound value value')
    (haffords : value.Affords 2 1) :
    AgreeUpTo bound (Recipe.annotationBody pool value) (Recipe.annotationBody pool value') := by
  have htext : (Recipe.text pool).Affords 0 0 :=
    (Affords.u2.bind (fun _ => Affords.lookup _) (Nat.zero_le _)).mono (by decide) (by decide)
  have hskip := Affords.skipFew 2
  have helement := (refl bound _).bind hskip fun _ => h.mono (Nat.sub_le _ _)
  have helementAffords := hskip.bind (fun _ => haffords) (by decide)
  refine (refl bound _).bind htext fun type => (refl _ _).bind Affords.u2 fun pairs => ?_
  have hpairs := helement.times helementAffords pairs.toNat
  exact (hpairs.map (helementAffords.times _) _).mono (Nat.sub_le _ _)

/-- The tag is read first, so the parts are shorter. -/
theorem valueBody (hmark : AgreeUpTo bound mark mark')
    (hmarkAffords : mark.Affords 3 1) (hvalue : AgreeUpTo bound value value')
    (hvalueAffords : value.Affords 2 1) :
    AgreeUpTo (bound + 1) (Recipe.valueBody mark value)
      (Recipe.valueBody mark' value') := by
  refine (refl _ _).bind Affords.byte fun tag => ?_
  refine choice (fun _ => refl _ _) fun _ => ?_
  refine choice (fun _ => refl _ _) fun _ => ?_
  refine choice (fun _ => hmark.map hmarkAffords _) fun _ => ?_
  refine choice (fun _ => ?_) fun _ => refl _ _
  refine (refl _ _).bind Affords.u2 fun count => ?_
  have hitems := hvalue.times hvalueAffords count.toNat
  exact (hitems.map (hvalueAffords.times _) _).mono (Nat.sub_le _ _)

end Bodies

theorem mark {pool : ConstantPool} {depth depth' : Nat}
    (h : AgreeUpTo bound (value pool depth) (value pool depth')) :
    AgreeUpTo bound (Recipe.mark pool depth) (Recipe.mark pool depth') :=
  call (ofEq _ _ (annotationBody pool h (Affords.value pool depth)))

/-- On inputs no longer than the bound, a greater bound makes no difference. -/
theorem value_succ (pool : ConstantPool) (depth : Nat) :
    AgreeUpTo depth (value pool depth) (value pool (depth + 1)) := by
  induction depth with
  | zero =>
      intro input hinput
      obtain rfl : input = [] := List.eq_nil_of_length_eq_zero (Nat.le_zero.1 hinput)
      refine ⟨?_, rfl⟩
      rw [Annotations.skipValueWithin_zero, Annotations.skipValueWithin_succ]
      rfl
  | succ depth ih =>
      exact call (ofEq _ _ (valueBody (mark ih) (Affords.annotationOf (Affords.value pool depth))
        ih (Affords.value pool depth)))

theorem value_of_le (pool : ConstantPool) {bound depth : Nat} (h : bound ≤ depth) :
    AgreeUpTo bound (value pool bound) (value pool depth) := by
  induction h with
  | refl => exact refl _ _
  | @step depth hle ih =>
      intro input hinput
      obtain ⟨hread, hcalls⟩ := ih input hinput
      obtain ⟨hread', hcalls'⟩ := value_succ pool depth input (Nat.le_trans hinput hle)
      exact ⟨hread.trans hread', hcalls.trans hcalls'⟩

end AgreeUpTo
end Recipe

/-! ## The skipper without a bound -/

namespace Annotations

/-- One annotation, as deep as it goes. -/
def read (pool : ConstantPool) : Reader String := fun input => readWithin input.length pool input

/-- Pass over one element value, as deep as it goes. -/
def skipValue (pool : ConstantPool) : Reader Unit := fun input =>
  skipValueWithin input.length pool input

end Annotations

namespace Recipe

def wholeMark (pool : ConstantPool) : Recipe (Annotations.read pool) :=
  .within id (mark pool)

def wholeValue (pool : ConstantPool) : Recipe (Annotations.skipValue pool) :=
  .within id (value pool)

theorem AgreeUpTo.wholeValue (pool : ConstantPool) (depth : Nat) :
    AgreeUpTo depth (value pool depth) (Recipe.wholeValue pool) := fun input hinput =>
  have h := value_of_le pool hinput input (Nat.le_refl _)
  ⟨h.1.symm, h.2.symm⟩

theorem AgreeUpTo.wholeMark (pool : ConstantPool) (depth : Nat) :
    AgreeUpTo depth (Recipe.mark pool depth) (Recipe.wholeMark pool) :=
  fun input hinput =>
  have h := mark (value_of_le pool hinput) input (Nat.le_refl _)
  ⟨h.1.symm, h.2.symm⟩

end Recipe

namespace Annotations

theorem read_eq (pool : ConstantPool) : read pool = annotationBody pool (skipValue pool) := by
  funext input
  have h := (Recipe.AgreeUpTo.wholeValue pool input.length).annotationBody pool
    (Recipe.Affords.value pool input.length) input (Nat.le_refl _)
  rw [read, readWithin_eq]
  exact h.1

theorem skipValue_eq (pool : ConstantPool) :
    skipValue pool = valueBody (read pool) (skipValue pool) := by
  funext input
  cases input with
  | nil =>
      rw [skipValue, List.length_nil, skipValueWithin_zero]
      rfl
  | cons byte rest =>
      have hvalue := Recipe.Affords.value pool rest.length
      have h := (Recipe.AgreeUpTo.wholeMark pool rest.length).valueBody
        (Recipe.Affords.annotationOf hvalue) (Recipe.AgreeUpTo.wholeValue pool rest.length) hvalue
        (byte :: rest) (Nat.le_refl _)
      rw [skipValue, List.length_cons, skipValueWithin_succ]
      exact h.1

/-! ## Calls and bytes -/

/-- A call that succeeds counts itself. -/
theorem length_of_calls {α : Type} {reader : Reader α} {recipe : Recipe reader} {spare debt : Nat}
    (h : recipe.Affords spare debt) {input left : Bytes} {result : α}
    (hcall : 0 < (recipe.calls input).total) (hread : reader input = .ok result left) :
    left.length + (spare + 1) ≤ input.length := by
  have htaken := h.ok hread
  omega

/-- Whether it succeeds or fails, a recipe that owes one call makes at most one more call
than there are bytes, and they nest no deeper. -/
theorem calls_le_length {α : Type} {reader : Reader α} {recipe : Recipe reader} {spare : Nat}
    (h : recipe.Affords spare 1) (input : Bytes) :
    (recipe.calls input).total ≤ input.length + 1 ∧
      (recipe.calls input).deepest ≤ input.length + 1 := by
  have hdeepest := recipe.deepest_le_total input
  have htotal : (recipe.calls input).total ≤ input.length + 1 := by
    cases hread : reader input with
    | ok result left =>
        have htaken := h.ok hread
        omega
    | error error left =>
        have hfailed := h.error hread
        omega
  exact ⟨htotal, Nat.le_trans hdeepest htotal⟩

/-- A value that is read takes at least three bytes and an annotation at least four.  On
every input there is at most one more call than there are bytes, and the calls nest at
most as deep.  So the two functions can call each other without a bound on the depth:
on inputs no longer than the bound, the bounded ones compute the functions that satisfy
the unbounded recursion, through the same calls. -/
theorem calls_bounded_by_bytes (pool : ConstantPool) :
    (∀ depth input left, skipValueWithin depth pool input = .ok () left →
      left.length + 3 ≤ input.length) ∧
    (∀ depth input type left, readWithin depth pool input = .ok type left →
      left.length + 4 ≤ input.length) ∧
    (∀ (depth : Nat) (input : Bytes),
      ((Recipe.value pool depth).calls input).total ≤ input.length + 1 ∧
        ((Recipe.value pool depth).calls input).deepest ≤ input.length + 1) ∧
    (∀ (depth : Nat) (input : Bytes),
      ((Recipe.mark pool depth).calls input).total ≤ input.length + 1 ∧
        ((Recipe.mark pool depth).calls input).deepest ≤ input.length + 1) ∧
    (read pool = annotationBody pool (skipValue pool) ∧
      skipValue pool = valueBody (read pool) (skipValue pool)) ∧
    ∀ depth, (Recipe.mark pool depth).AgreeUpTo depth (Recipe.wholeMark pool) ∧
      (Recipe.value pool depth).AgreeUpTo depth (Recipe.wholeValue pool) := by
  have hvalue := Recipe.Affords.value pool
  have hmark := fun depth => Recipe.Affords.annotationOf (hvalue depth)
  refine ⟨?_, ?_, fun depth => calls_le_length (hvalue depth),
    fun depth => calls_le_length (hmark depth), ⟨read_eq pool, skipValue_eq pool⟩,
    fun depth => ⟨.wholeMark pool depth, .wholeValue pool depth⟩⟩
  · intro depth input left h
    have hcall : 0 < ((Recipe.value pool depth).calls input).total := by
      cases depth <;> exact Nat.succ_pos _
    exact length_of_calls (hvalue depth) hcall h
  · intro depth input type left h
    exact length_of_calls (hmark depth) (Nat.succ_pos _) h

/-- A pool with the type of an annotation. -/
def markPool : ConstantPool := ⟨[none, some (.utf8 "Lpkg/Mark;")]⟩

def markType : TextRef markPool := ⟨1, "Lpkg/Mark;", rfl⟩

/-- An annotation whose one value is an annotation whose one value is an array of two. -/
def twofoldMark : AnnotationTree markPool where
  type := markType
  count := 1
  names := fun _ => 1
  values := fun _ => .nested markType 1 (fun _ => 1) fun _ => .array 2 fun _ => .constant .byte 1

/-- With no bytes at all there is still the one call that finds none. -/
theorem twofoldMark_calls :
    twofoldMark.bytes.length = 22 ∧ readWithin 30 markPool twofoldMark.bytes = .ok "Lpkg/Mark;" [] ∧
    ([] : Bytes).length + 4 ≤ twofoldMark.bytes.length ∧
    readWithin 30 markPool twofoldMark.bytes = read markPool twofoldMark.bytes ∧
    ((Recipe.mark markPool 30).calls twofoldMark.bytes).total ≤ 23 ∧
    (Recipe.value markPool 30).calls [] = ⟨1, 1⟩ := by
  have hlength : twofoldMark.bytes.length = 22 := by decide +kernel
  have hdepth : twofoldMark.bytes.length ≤ 30 := by
    rw [hlength]
    decide
  have hread : readWithin 30 markPool twofoldMark.bytes = .ok "Lpkg/Mark;" [] := by
    have htree := twofoldMark.readsMark 30 hdepth []
    rwa [List.append_nil] at htree
  obtain ⟨-, htaken, -, hcalls, -, hagree⟩ := calls_bounded_by_bytes markPool
  have htotal := (hcalls 30 twofoldMark.bytes).1
  rw [hlength] at htotal
  exact ⟨hlength, hread, htaken _ _ _ _ hread, ((hagree 30).1 _ hdepth).1, htotal, rfl⟩

end Annotations
end ClassFile
end Classpath
