import Classpath.Proofs.ClassFile.Reads
import Classpath.Proofs.ClassFile.WordArithmetic

/-!
# Readers that keep a position

A reader is a function of the bytes that are left, and does not say which reads it
makes.  A recipe does: it puts a reader together from single reads, and can be carried
out on a machine that holds the whole byte string, a position in it as a word, and a
journal of every read.  Whatever the recipe, the machine comes to the result of the
reader, without a fault, and its journals are in order.
-/

namespace Classpath
namespace ClassFile

/-! ## Journals -/

/-- One read: where it started, for how many bytes it asked, whether it got them, and
where it left the position. -/
structure Access where
  before : UInt64
  asked : UInt64
  granted : Bool
  after : UInt64
deriving DecidableEq, Repr

/-- A byte string that was opened for reading, with all the reads from it. -/
structure Journal where
  bytes : Bytes
  accesses : List Access
deriving DecidableEq, Repr

namespace Journal

/-- The positions that a reader had, in order. -/
def positions (journal : Journal) : List UInt64 := 0 :: journal.accesses.map Access.after

/-- The read moves the position over the bytes it got, or leaves it where it was. -/
structure Admits (bytes : Bytes) (access : Access) : Prop where
  bounded : access.after.toNat ≤ bytes.length
  granted : access.granted = true → access.after.toNat = access.before.toNat + access.asked.toNat
  refused : access.granted = false →
    access.after = access.before ∧ bytes.length < access.before.toNat + access.asked.toNat

/-- The position starts at zero, never moves back and never passes the end, and each
read takes up where the one before it stopped. -/
structure InBounds (journal : Journal) : Prop where
  short : Addressable journal.bytes
  continued : journal.accesses.map Access.before = journal.positions.dropLast
  ascending : journal.positions.Pairwise (· ≤ ·)
  admitted : ∀ access ∈ journal.accesses, Admits journal.bytes access

theorem Admits.before_le {bytes : Bytes} {access : Access} (h : Admits bytes access) :
    access.before ≤ access.after := by
  rw [UInt64.le_iff_toNat_le]
  cases hgranted : access.granted with
  | true =>
      have hmoved := h.granted hgranted
      omega
  | false => exact Nat.le_of_eq (congrArg UInt64.toNat (h.refused hgranted).1.symm)

theorem inBounds_nil {bytes : Bytes} (h : Addressable bytes) : InBounds ⟨bytes, []⟩ where
  short := h
  continued := rfl
  ascending := List.pairwise_singleton _ _
  admitted := by simp

/-- A read from the last position keeps the journal in order. -/
theorem InBounds.append {journal : Journal} {access : Access} (h : journal.InBounds)
    (hlast : journal.positions.getLast? = some access.before)
    (haccess : Admits journal.bytes access) :
    InBounds ⟨journal.bytes, journal.accesses ++ [access]⟩ := by
  obtain ⟨earlier, hearlier⟩ := List.getLast?_eq_some_iff.1 hlast
  have hpositions : positions ⟨journal.bytes, journal.accesses ++ [access]⟩ =
      journal.positions ++ [access.after] := by
    simp [positions]
  refine ⟨h.short, ?_, ?_, ?_⟩
  · rw [hpositions, List.dropLast_concat, hearlier, List.map_append, h.continued, hearlier,
      List.dropLast_concat]
    rfl
  · have hascending := h.ascending
    rw [hearlier] at hascending
    have hbelow := (List.pairwise_append.1 hascending).2.2
    rw [hpositions, List.pairwise_append]
    refine ⟨h.ascending, List.pairwise_singleton _ _, fun passed hpassed next hnext => ?_⟩
    rw [List.mem_singleton.1 hnext]
    -- Whatever was passed lies before the last position.
    rw [hearlier, List.mem_append, List.mem_singleton] at hpassed
    rcases hpassed with hpassed | rfl
    · exact UInt64.le_trans (hbelow passed hpassed _ (by simp)) haccess.before_le
    · exact haccess.before_le
  · intro other hother
    rcases List.mem_append.1 hother with hother | hother
    · exact h.admitted other hother
    · rw [List.mem_singleton.1 hother]
      exact haccess

theorem InBounds.position_le {journal : Journal} (h : journal.InBounds) {position : UInt64}
    (hposition : position ∈ journal.positions) : position.toNat ≤ journal.bytes.length := by
  rcases List.mem_cons.1 hposition with rfl | hmoved
  · exact Nat.zero_le _
  · obtain ⟨access, haccess, rfl⟩ := List.mem_map.1 hmoved
    exact (h.admitted access haccess).bounded

end Journal

/-! ## The machine -/

/-- A byte string that is being read, and the journals of those that were read before. -/
structure Session where
  bytes : Bytes
  position : UInt64
  accesses : List Access
  closed : List Journal

/-- Why a run stops: for a fault, or because the reader objects to the bytes. -/
inductive Stop
  | fault (fault : Fault)
  | error (error : DecodeError)

abbrev Machine := EStateM Stop Session

namespace Session

def start (bytes : Bytes) (closed : List Journal) : Session := ⟨bytes, 0, [], closed⟩

def journal (session : Session) : Journal := ⟨session.bytes, session.accesses⟩

/-- The bytes that are left. -/
def rest (session : Session) : Bytes := session.bytes.drop session.position.toNat

def grant (session : Session) (asked next : UInt64) : Session :=
  { session with
    position := next
    accesses := session.accesses ++ [⟨session.position, asked, true, next⟩] }

def refuse (session : Session) (asked : UInt64) : Session :=
  { session with
    accesses := session.accesses ++ [⟨session.position, asked, false, session.position⟩] }

/-- The journal is in order and the position is where it ends. -/
structure Sound (session : Session) : Prop where
  inBounds : session.journal.InBounds
  current : session.journal.positions.getLast? = some session.position

/-- What holds between a session and a later state of it. -/
structure Continues (session after : Session) : Prop where
  sound : after.Sound
  bytes_eq : after.bytes = session.bytes
  closed : ∃ opened : List Journal,
    (∀ journal ∈ opened, journal.InBounds) ∧ after.closed = session.closed ++ opened

theorem sound_start {bytes : Bytes} (h : Addressable bytes) (closed : List Journal) :
    (start bytes closed).Sound :=
  ⟨Journal.inBounds_nil h, rfl⟩

variable {session middle after : Session}

theorem Sound.position_le (h : session.Sound) : session.position.toNat ≤ session.bytes.length :=
  h.inBounds.position_le (List.mem_of_getLast? h.current)

theorem Sound.length_rest (h : session.Sound) :
    session.rest.length + session.position.toNat = session.bytes.length := by
  have hle := h.position_le
  rw [rest, List.length_drop]
  omega

theorem Continues.refl (h : session.Sound) : Continues session session :=
  ⟨h, rfl, [], by simp, (List.append_nil _).symm⟩

theorem Continues.trans (h : Continues session middle) (h' : Continues middle after) :
    Continues session after := by
  obtain ⟨opened, hopened, hclosed⟩ := h.closed
  obtain ⟨more, hmore, hclosed'⟩ := h'.closed
  refine ⟨h'.sound, h'.bytes_eq.trans h.bytes_eq, opened ++ more, ?_, ?_⟩
  · intro journal hjournal
    exact (List.mem_append.1 hjournal).elim (hopened journal) (hmore journal)
  · rw [hclosed', hclosed, List.append_assoc]

/-- A session goes on with any read from its position that is admitted. -/
theorem Sound.continues_access (h : session.Sound) (access : Access)
    (hbefore : access.before = session.position)
    (haccess : Journal.Admits session.bytes access) :
    Continues session
      { session with
        position := access.after
        accesses := session.accesses ++ [access] } := by
  refine ⟨⟨h.inBounds.append (hbefore ▸ h.current) haccess, ?_⟩, rfl, [], by simp, by simp⟩
  show List.getLast? (0 :: (session.accesses ++ [access]).map Access.after) = some access.after
  rw [List.map_append, ← List.cons_append, List.map_singleton, List.getLast?_concat]

theorem Sound.continues_grant (h : session.Sound) {asked next : UInt64}
    (hnext : next.toNat = session.position.toNat + asked.toNat)
    (hle : next.toNat ≤ session.bytes.length) : Continues session (session.grant asked next) :=
  h.continues_access ⟨session.position, asked, true, next⟩ rfl
    ⟨hle, fun _ => hnext, by simp⟩

theorem Sound.continues_refuse (h : session.Sound) {asked : UInt64}
    (hlt : session.bytes.length < session.position.toNat + asked.toNat) :
    Continues session (session.refuse asked) :=
  h.continues_access ⟨session.position, asked, false, session.position⟩ rfl
    ⟨h.position_le, by simp, fun _ => ⟨rfl, hlt⟩⟩

end Session

namespace Machine

variable {α : Type}

/-- The result of a computation on words. -/
def check (result : Except Fault α) : Machine α := fun session =>
  match result with
  | .ok value => .ok value session
  | .error fault => .error (.fault fault) session

/-- The next bytes.  The end of the read is computed before it is compared. -/
def take (asked : UInt64) : Machine Bytes := fun session =>
  match Word.add session.position asked with
  | .ok next =>
      if session.position ≤ next ∧ next.toNat ≤ session.bytes.length then
        .ok ((session.bytes.take next.toNat).drop session.position.toNat)
          (session.grant asked next)
      else
        .error (.error .unexpectedEnd) (session.refuse asked)
  | .error _ => .error (.error .unexpectedEnd) (session.refuse asked)

/-- The next byte.  It is looked up before the position moves. -/
def byte : Machine UInt8 := fun session =>
  match session.bytes[session.position.toNat]? with
  | some byte =>
      match Word.add session.position 1 with
      | .ok next => .ok byte (session.grant 1 next)
      | .error fault => .error (.fault fault) session
  | none => .error (.error .unexpectedEnd) (session.refuse 1)

/-- The number of bytes left. -/
def remaining : Machine UInt64 := fun session =>
  check (Word.sub (UInt64.ofNat session.bytes.length) session.position) session

end Machine

/-! ## Following a reader -/

/-- The outcome of a run agrees with that of a reader. -/
inductive Agrees {α : Type} (after : Session) :
    EStateM.Result Stop Session α → EStateM.Result DecodeError Bytes α → Prop
  | ok (value : α) : Agrees after (.ok value after) (.ok value after.rest)
  | error (error : DecodeError) (rest : Bytes) :
      Agrees after (.error (.error error) after) (.error error rest)

theorem Agrees.of_ok {α : Type} {after : Session} {run : EStateM.Result Stop Session α} {value : α}
    {rest : Bytes} (h : Agrees after run (.ok value rest)) :
    run = .ok value after ∧ after.rest = rest := by
  generalize hresult : EStateM.Result.ok value rest = result at h
  cases h with
  | ok other =>
      obtain ⟨rfl, rfl⟩ := EStateM.Result.ok.inj hresult
      exact ⟨rfl, rfl⟩
  | error error left => cases hresult

/-- From every sound session the machine comes to the outcome of the reader on the bytes
that are left, and leaves the session sound. -/
def Follows {α : Type} (machine : Machine α) (reader : Reader α) : Prop :=
  ∀ session : Session, session.Sound →
    ∃ after, session.Continues after ∧ Agrees after (machine session) (reader session.rest)

/-- A reader gets its bytes exactly if there are enough. -/
theorem bytes_eq (n : Nat) (input : Bytes) :
    Reader.bytes n input =
      if n ≤ input.length then .ok (input.take n) (input.drop n)
      else .error .unexpectedEnd input := by
  split
  · next hle =>
      have hread := Reads.bytes_of_length (List.length_take_of_le hle) (input.drop n)
      rwa [List.take_append_drop] at hread
  · next hlt =>
      have hnone : splitBytes? n input = none := by
        rw [Option.eq_none_iff_forall_not_mem]
        rintro ⟨taken, rest⟩ hmem
        obtain ⟨rfl, hlength⟩ := splitBytes?_eq_some hmem
        rw [List.length_append] at hlt
        omega
      rw [Reader.bytes, hnone]

theorem length_of_bytes {n : Nat} {input taken rest : Bytes}
    (h : Reader.bytes n input = .ok taken rest) : taken.length = n := by
  rw [bytes_eq] at h
  split at h
  · next hle =>
      obtain ⟨rfl, rfl⟩ := EStateM.Result.ok.inj h
      exact List.length_take_of_le hle
  · cases h

namespace Follows

variable {α β : Type} {machine : Machine α} {first reader : Reader α}

theorem pure (value : α) : Follows (Pure.pure value) (Pure.pure value) :=
  fun session hsession => ⟨session, .refl hsession, .ok value⟩

theorem fail (error : DecodeError) :
    Follows (MonadExcept.throw (Stop.error error)) (MonadExcept.throw error : Reader α) :=
  fun session hsession => ⟨session, .refl hsession, .error error _⟩

/-- The next step need only follow for values that the first reader can yield. -/
theorem bind_of {next : α → Reader β} {machine' : α → Machine β} (h : Follows machine first)
    (hnext : ∀ input value rest, first input = .ok value rest →
      Follows (machine' value) (next value)) :
    Follows (machine >>= machine') (first >>= next) := by
  intro session hsession
  obtain ⟨middle, hmiddle, hagrees⟩ := h session hsession
  show ∃ after, _ ∧ Agrees after (EStateM.bind machine machine' session)
    (EStateM.bind first next session.rest)
  rw [EStateM.bind, EStateM.bind]
  generalize machine session = outcome at hagrees
  generalize hfirst : first session.rest = result at hagrees
  cases hagrees with
  | ok value =>
      obtain ⟨after, hafter, hagrees⟩ := hnext _ value _ hfirst middle hmiddle.sound
      exact ⟨after, hmiddle.trans hafter, hagrees⟩
  | error error rest => exact ⟨middle, hmiddle, .error error rest⟩

theorem bind {next : α → Reader β} {machine' : α → Machine β} (h : Follows machine first)
    (hnext : ∀ value, Follows (machine' value) (next value)) :
    Follows (machine >>= machine') (first >>= next) :=
  h.bind_of fun _ value _ _ => hnext value

/-- A computation that has a value may come before a run. -/
theorem check_bind {result : Except Fault β} {value : β} {machine : β → Machine α}
    (hresult : result = .ok value) (h : Follows (machine value) reader) :
    Follows (Machine.check result >>= machine) reader := by
  rw [hresult]
  exact h

theorem byte : Follows Machine.byte Reader.u1 := by
  intro session hsession
  have hlength := hsession.length_rest
  have hshort : Addressable session.bytes := hsession.inBounds.short
  have hhead : session.bytes[session.position.toNat]? = session.rest.head? :=
    List.head?_drop.symm
  rw [Machine.byte, hhead]
  cases hrest : session.rest with
  | nil =>
      rw [hrest, List.length_nil] at hlength
      refine ⟨session.refuse 1, hsession.continues_refuse ?_, .error _ _⟩
      show session.bytes.length < session.position.toNat + 1
      omega
  | cons byte rest =>
      rw [hrest, List.length_cons] at hlength
      obtain ⟨next, hnext, hvalue⟩ := Word.add_exact (a := session.position) (b := 1) (by
        show session.position.toNat + 1 < UInt64.size
        rw [UInt64.size]
        omega)
      replace hvalue : next.toNat = session.position.toNat + 1 := hvalue
      rw [hnext]
      refine ⟨session.grant 1 next, hsession.continues_grant hvalue (by omega), ?_⟩
      have hleft : (session.grant 1 next).rest = rest := by
        show session.bytes.drop next.toNat = rest
        rw [hvalue, ← List.drop_drop]
        show session.rest.drop 1 = rest
        rw [hrest]
        rfl
      rw [← hleft]
      exact .ok byte

theorem take (asked : UInt64) : Follows (Machine.take asked) (Reader.bytes asked.toNat) := by
  intro session hsession
  have hlength := hsession.length_rest
  have hshort : Addressable session.bytes := hsession.inBounds.short
  rw [bytes_eq]
  split
  · next hle =>
      obtain ⟨next, hnext, hvalue⟩ := Word.add_exact (a := session.position) (b := asked) (by
        rw [UInt64.size]
        omega)
      have hend : session.position ≤ next ∧ next.toNat ≤ session.bytes.length :=
        ⟨UInt64.le_iff_toNat_le.2 (by omega), by omega⟩
      refine ⟨session.grant asked next, hsession.continues_grant hvalue hend.2, ?_⟩
      have htaken : (session.bytes.take next.toNat).drop session.position.toNat =
          session.rest.take asked.toNat := by
        rw [Session.rest, hvalue, List.drop_take, Nat.add_sub_cancel_left]
      have hleft : session.rest.drop asked.toNat = (session.grant asked next).rest := by
        show _ = session.bytes.drop next.toNat
        rw [Session.rest, hvalue, List.drop_drop]
      rw [Machine.take, hnext]
      simp only [if_pos hend, htaken, hleft]
      exact .ok _
  · next hlt =>
      have hrefused : Machine.take asked session =
          .error (.error .unexpectedEnd) (session.refuse asked) := by
        rw [Machine.take]
        split
        · next next hnext =>
            have hvalue := Word.toNat_of_add hnext
            exact if_neg fun hend => by omega
        · rfl
      rw [hrefused]
      exact ⟨session.refuse asked, hsession.continues_refuse (by omega), .error _ _⟩

end Follows

/-! ## Recipes -/

/-- A computation that comes to a result apart from the byte string that is being read.
It may open byte strings of its own, and adds their journals. -/
structure Work {α : Type} (result : Except DecodeError α) where
  run : List Journal → Except Fault (Except DecodeError α) × List Journal
  exact : ∀ closed : List Journal, ∃ opened : List Journal,
    (∀ journal ∈ opened, journal.InBounds) ∧ run closed = (.ok result, closed ++ opened)

namespace Machine

variable {α : Type}

/-- The bytes of a number, looked up one by one. -/
def word (width : UInt64) : Machine Bytes := do
  let taken ← take width
  check (Word.gather taken width.toNat 0)

/-- Go on if a condition holds, which is a fault otherwise. -/
def ensure {P : Prop} [Decidable P] (next : P → Machine α) : Machine α :=
  if h : P then next h else throw (.fault .outOfRange)

def work (run : List Journal → Except Fault (Except DecodeError α) × List Journal) :
    Machine α := fun session =>
  match run session.closed with
  | (.ok (.ok value), closed) => .ok value { session with closed }
  | (.ok (.error error), closed) => .error (.error error) { session with closed }
  | (.error fault, closed) => .error (.fault fault) { session with closed }

end Machine

/-- How a reader is put together from single reads. -/
inductive Recipe : {α : Type} → Reader α → Type 1
  | pure {α : Type} (value : α) : Recipe (Pure.pure value)
  | fail {α : Type} (error : DecodeError) : Recipe (MonadExcept.throw error : Reader α)
  | byte : Recipe Reader.u1
  /-- A number, computed from the bytes it is written in. -/
  | word {α : Type} (width : UInt64) (value : Bytes → α) :
      Recipe (Reader.bytes width.toNat >>= fun taken => Pure.pure (value taken))
  | skip {n : Nat} (length : Length n) : Recipe (Reader.skip n)
  /-- A part of the byte string, which what follows may rely on to have its length. -/
  | slice {α : Type} {n : Nat} {next : Bytes → Reader α} (length : Length n)
      (rest : (taken : Bytes) → taken.length = n → Recipe (next taken)) :
      Recipe (Reader.bytes n >>= next)
  /-- A signed number, which what follows may rely on to have four bytes. -/
  | signed {α : Type} {next : Int → Reader α}
      (rest : (number : Int32) → Recipe (next number.toInt)) : Recipe (Reader.i4 >>= next)
  | work {α : Type} {result : Except DecodeError α} (task : Work result) :
      Recipe (Reader.ofExcept result)
  | bind {α β : Type} {first : Reader α} {next : α → Reader β} (start : Recipe first)
      (rest : (value : α) → Recipe (next value)) : Recipe (first >>= next)
  /-- A reader with a bound that comes from the number of bytes left. -/
  | within {α : Type} {reader : Nat → Reader α} (bound : Nat → Nat)
      (recipe : (n : Nat) → Recipe (reader n)) :
      Recipe fun input => reader (bound input.length) input
  /-- Another form of a reader, such as the body of a function that is called. -/
  | ofEq {α : Type} {reader reader' : Reader α} (h : reader' = reader) (recipe : Recipe reader) :
      Recipe reader'
  /-- A call that is to be counted. -/
  | call {α : Type} {reader : Reader α} (recipe : Recipe reader) : Recipe reader

namespace Recipe

/-- The reads of a recipe, one after the other. -/
def run {α : Type} {reader : Reader α} : Recipe reader → Machine α
  | .pure value => Pure.pure value
  | .fail error => throw (.error error)
  | .byte => Machine.byte
  | .word width value => do
      return value (← Machine.word width)
  | .skip length => do
      let _ ← Machine.take (← Machine.check length.compute)
  | .slice (n := n) length rest => do
      let taken ← Machine.take (← Machine.check length.compute)
      Machine.ensure fun h : taken.length = n => (rest taken h).run
  | .signed rest => do
      let taken ← Machine.word 4
      (rest (UInt32.ofNat (bigEndian taken)).toInt32).run
  | .work task => Machine.work task.run
  | .bind start rest => do
      (rest (← start.run)).run
  | .within bound recipe => fun session => (recipe (bound session.rest.length)).run session
  | .ofEq _ recipe => recipe.run
  | .call recipe => recipe.run

end Recipe

namespace Follows

variable {α : Type}

theorem takeLength {n : Nat} (length : Length n) :
    Follows (Machine.check length.compute >>= Machine.take) (Reader.bytes n) := by
  obtain ⟨word, hcompute, rfl⟩ := length.exact
  exact check_bind hcompute (take word)

theorem word (width : UInt64) : Follows (Machine.word width) (Reader.bytes width.toNat) := by
  have hbind : Reader.bytes width.toNat = Reader.bytes width.toNat >>= Pure.pure :=
    (bind_pure _).symm
  rw [hbind]
  refine (take width).bind_of fun input taken rest hread => ?_
  have hlength := length_of_bytes hread
  have hgather : Word.gather taken width.toNat 0 = .ok taken :=
    Word.gather_exact (i := 0) (hlength ▸ width.toNat_lt) (by rw [hlength]; exact Nat.zero_add _)
  rw [hgather]
  exact pure taken

theorem ensure {P : Prop} [Decidable P] {next : P → Machine α} {reader : Reader α} (hP : P)
    (h : ∀ hP, Follows (next hP) reader) : Follows (Machine.ensure next) reader := by
  rw [Machine.ensure, dif_pos hP]
  exact h hP

theorem work {result : Except DecodeError α} (task : Work result) :
    Follows (Machine.work task.run) (Reader.ofExcept result) := by
  intro session hsession
  obtain ⟨opened, hopened, hrun⟩ := task.exact session.closed
  refine ⟨{ session with closed := session.closed ++ opened }, ?_, ?_⟩
  · exact ⟨⟨hsession.inBounds, hsession.current⟩, rfl, opened, hopened, rfl⟩
  · rw [Machine.work, hrun]
    cases result with
    | ok value => exact .ok value
    | error error => exact .error error _

end Follows

/-- Every recipe is carried out without a fault and to the result of its reader. -/
theorem Recipe.follows {α : Type} {reader : Reader α} (recipe : Recipe reader) :
    Follows recipe.run reader := by
  induction recipe with
  | pure value => exact .pure value
  | fail error => exact .fail error
  | byte => exact .byte
  | word width value => exact (Follows.word width).bind fun taken => .pure (value taken)
  | skip length =>
      have hskip := (Follows.takeLength length).bind fun _ => .pure ()
      rw [bind_assoc] at hskip
      exact hskip
  | slice length rest ih =>
      have hslice := (Follows.takeLength length).bind_of fun input taken left hread =>
        Follows.ensure (length_of_bytes hread) (ih taken)
      rw [bind_assoc] at hslice
      exact hslice
  | @signed α next rest ih =>
      have hsigned : Follows _ (Reader.bytes 4 >>= fun taken =>
          next (UInt32.ofNat (bigEndian taken)).toInt32.toInt) :=
        (Follows.word 4).bind fun taken => ih (UInt32.ofNat (bigEndian taken)).toInt32
      have hread : Reader.i4 >>= next = Reader.bytes 4 >>= fun taken =>
          next (UInt32.ofNat (bigEndian taken)).toInt32.toInt := by
        simp only [Reader.i4, Reader.u4, bind_assoc, pure_bind]
      rw [← hread] at hsigned
      exact hsigned
  | work task => exact .work task
  | bind start rest hstart hrest => exact hstart.bind hrest
  | within bound recipe ih =>
      exact fun session hsession => ih (bound session.rest.length) session hsession
  | ofEq h recipe ih =>
      subst h
      exact ih
  | call recipe ih => exact ih

/-! ## Byte strings of their own -/

/-- Open a byte string, run the machine on it and close it again. -/
def inSession {α : Type} (content : Bytes) (machine : Machine α) (closed : List Journal) :
    Except Fault (Except DecodeError α) × List Journal :=
  match machine (.start content closed) with
  | .ok value session => (.ok (.ok value), session.closed ++ [session.journal])
  | .error (.error error) session => (.ok (.error error), session.closed ++ [session.journal])
  | .error (.fault fault) session => (.error fault, session.closed ++ [session.journal])

/-- What a reader comes to, without the bytes it leaves. -/
def outcome {α : Type} : EStateM.Result DecodeError Bytes α → Except DecodeError α
  | .ok value _ => .ok value
  | .error error _ => .error error

/-- Accept only the end of the input. -/
def atEnd {α : Type} (leftOver : Nat → DecodeError) (value : α) : Reader α := fun input =>
  match input with
  | [] => .ok value []
  | byte :: rest => .error (leftOver (byte :: rest).length) (byte :: rest)

/-- Nothing may be left. -/
def Machine.finish {α : Type} (leftOver : Nat → DecodeError) (value : α) : Machine α := do
  let left ← remaining
  if left = 0 then
    return value
  else
    throw (.error (leftOver left.toNat))

theorem onWhole_eq {α : Type} (reader : Reader α) (leftOver : Nat → DecodeError)
    (content : Bytes) :
    reader.onWhole leftOver content = outcome ((reader >>= atEnd leftOver) content) := by
  show _ = outcome (EStateM.bind reader (atEnd leftOver) content)
  rw [Reader.onWhole, EStateM.bind]
  cases reader content with
  | ok value rest => cases rest <;> rfl
  | error error rest => rfl

section Sessions

variable {α : Type} {machine : Machine α} {content : Bytes} {closed : List Journal}

/-- A run that goes on from the start leaves its own journal with those it added. -/
theorem inSession_eq {after : Session} {result : EStateM.Result DecodeError Bytes α}
    (hafter : (Session.start content closed).Continues after)
    (hagrees : Agrees after (machine (.start content closed)) result) :
    ∃ opened : List Journal, (∀ journal ∈ opened, journal.InBounds) ∧
      (∃ journal ∈ opened, journal.bytes = content) ∧
      inSession content machine closed = (.ok (outcome result), closed ++ opened) := by
  obtain ⟨opened, hopened, hclosed⟩ := hafter.closed
  refine ⟨opened ++ [after.journal], ?_, ⟨after.journal, by simp, hafter.bytes_eq⟩, ?_⟩
  · intro journal hjournal
    rcases List.mem_append.1 hjournal with hjournal | hjournal
    · exact hopened journal hjournal
    · rw [List.mem_singleton.1 hjournal]
      exact hafter.sound.inBounds
  · have hjournals : after.closed ++ [after.journal] = closed ++ (opened ++ [after.journal]) := by
      rw [hclosed, ← List.append_assoc]
      rfl
    rw [inSession, ← hjournals]
    generalize machine (.start content closed) = run at hagrees
    cases hagrees <;> rfl

/-- What is computed to be left is left, and is zero only at the end. -/
theorem remaining_eq {session : Session} (h : session.Sound) :
    ∃ left, Machine.remaining session = .ok left session ∧ left.toNat = session.rest.length ∧
      (left = 0 ↔ session.rest = []) := by
  have hlength := h.length_rest
  have hshort : Addressable session.bytes := h.inBounds.short
  have hword : (UInt64.ofNat session.bytes.length).toNat = session.bytes.length :=
    Nat.mod_eq_of_lt (Nat.lt_trans hshort (by decide))
  obtain ⟨left, hleft, hvalue⟩ := Word.sub_exact (a := UInt64.ofNat session.bytes.length)
    (b := session.position) (by omega)
  have hrest : left.toNat = session.rest.length := by omega
  refine ⟨left, ?_, hrest, ?_⟩
  · rw [Machine.remaining, hleft]
    rfl
  · rw [← List.length_eq_zero_iff, ← hrest]
    exact UInt64.toNat_inj.symm

theorem Follows.finish (leftOver : Nat → DecodeError) (value : α) :
    Follows (Machine.finish leftOver value) (atEnd leftOver value) := by
  intro session hsession
  obtain ⟨left, hleft, hvalue, hend⟩ := remaining_eq hsession
  have hfinish : Machine.finish leftOver value session =
      (if session.rest = [] then Pure.pure value
        else throw (.error (leftOver session.rest.length)) : Machine α) session := by
    show EStateM.bind Machine.remaining _ session = _
    rw [EStateM.bind, hleft, ← hvalue]
    exact congrFun (if_congr hend rfl rfl) session
  rw [hfinish]
  refine ⟨session, .refl hsession, ?_⟩
  cases hrest : session.rest with
  | nil =>
      rw [if_pos rfl]
      show Agrees session (.ok value session) (.ok value [])
      rw [← hrest]
      exact .ok value
  | cons byte rest =>
      rw [if_neg (List.cons_ne_nil _ _)]
      exact .error _ _

/-- A run of a reader on all of a byte string, which it must use up. -/
theorem Follows.inSession_finish {reader : Reader α} (h : Follows machine reader)
    (leftOver : Nat → DecodeError) (hcontent : Addressable content)
    (closed : List Journal) :
    ∃ opened : List Journal, (∀ journal ∈ opened, journal.InBounds) ∧
      (∃ journal ∈ opened, journal.bytes = content) ∧
      inSession content (machine >>= Machine.finish leftOver) closed =
        (.ok (reader.onWhole leftOver content), closed ++ opened) := by
  obtain ⟨after, hafter, hagrees⟩ :=
    h.bind (Follows.finish leftOver) _ (Session.sound_start hcontent closed)
  rw [onWhole_eq]
  exact inSession_eq hafter hagrees

end Sessions

namespace Work

variable {α β : Type} {result : Except DecodeError α}

/-- A result that no byte is read for. -/
def done (result : Except DecodeError α) : Work result where
  run closed := (.ok result, closed)
  exact closed := ⟨[], by simp, by simp⟩

/-- A result that is put into another form. -/
def map (f : α → β) (task : Work result) : Work (f <$> result) where
  run closed :=
    match task.run closed with
    | (.ok result, closed) => (.ok (f <$> result), closed)
    | (.error fault, closed) => (.error fault, closed)
  exact closed := by
    obtain ⟨opened, hopened, hrun⟩ := task.exact closed
    exact ⟨opened, hopened, by rw [hrun]⟩

/-- The text of bytes that were taken. -/
def text {encoded : Bytes} (h : Addressable encoded) : Work (Constant.decodeText encoded) where
  run closed := (Word.decodeText encoded, closed)
  exact closed := ⟨[], by simp, by rw [Word.decodeText_exact h, List.append_nil]⟩

/-- A byte string that is read up to its last byte. -/
def whole {reader : Reader α} (recipe : Recipe reader) (leftOver : Nat → DecodeError)
    {content : Bytes} (h : Addressable content) :
    Work (reader.onWhole leftOver content) where
  run := inSession content (recipe.run >>= Machine.finish leftOver)
  exact closed := by
    obtain ⟨opened, hopened, -, hrun⟩ := recipe.follows.inSession_finish leftOver h closed
    exact ⟨opened, hopened, hrun⟩

end Work

namespace Recipe

variable {α β : Type}

/-! ## Recipes from others -/

def map {reader : Reader α} (recipe : Recipe reader) (f : α → β) :
    Recipe (reader >>= fun value => Pure.pure (f value)) :=
  recipe.bind fun value => .pure (f value)

/-- A choice that is made by what was read before. -/
def choice {P : Prop} {yes no : Reader α} :
    {decision : Decidable P} → (P → Recipe yes) → (¬P → Recipe no) →
      Recipe (@ite (Reader α) P decision yes no)
  | .isTrue h, recipe, _ => recipe h
  | .isFalse h, _, recipe => recipe h

def times {item : Reader α} (recipe : Recipe item) : (n : Nat) → Recipe (Reader.times n item)
  | 0 => .pure []
  | n + 1 => recipe.bind fun first => (times recipe n).map fun rest => first :: rest

/-! ## Numbers and lookups -/

def u2 : Recipe Reader.u2 := .word 2 fun taken => UInt16.ofNat (bigEndian taken)

def u4 : Recipe Reader.u4 := .word 4 fun taken => UInt32.ofNat (bigEndian taken)

def u8 : Recipe Reader.u8 := u4.bind fun _ => u4.map _

def counted {item : Reader α} (recipe : Recipe item) : Recipe (Reader.counted item) :=
  u2.bind fun count => recipe.times count.toNat

/-- A result that no byte is read for. -/
def lookup (result : Except DecodeError α) : Recipe (Reader.ofExcept result) := .work (.done result)

def text (pool : ConstantPool) : Recipe (Reader.text pool) := u2.bind fun _ => lookup _

def className (pool : ConstantPool) : Recipe (Reader.className pool) := u2.bind fun _ => lookup _

def memberOwner (pool : ConstantPool) : Recipe (Reader.memberOwner pool) :=
  u2.bind fun _ => lookup _

/-- A few bytes, whose number is written in the code. -/
def skipFew (n : UInt8) : Recipe (Reader.skip n.toNat) :=
  .skip (.stated n.toUInt64 n.toNat_toUInt64)

end Recipe
end ClassFile
end Classpath
