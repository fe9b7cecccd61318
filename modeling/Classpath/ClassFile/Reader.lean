import Classpath.ClassFile.BigEndian
import Classpath.ClassFile.Error

/-!
# Reading a byte string from the front

A reader takes bytes off the front of its input.  A read either consumes the
bytes it asks for or fails and leaves the input as it was.
-/

namespace Classpath
namespace ClassFile

/-- A computation that takes bytes off the front of its input and can fail. -/
abbrev Reader := EStateM DecodeError Bytes

/-- The first `n` bytes and the rest, if there are that many. -/
def splitBytes? : (n : Nat) → Bytes → Option (Bytes × Bytes)
  | 0, bytes => some ([], bytes)
  | _ + 1, [] => none
  | n + 1, byte :: bytes => (splitBytes? n bytes).map fun (taken, rest) => (byte :: taken, rest)

namespace Reader

/-- Take `n` bytes. -/
def bytes (n : Nat) : Reader Bytes := fun input =>
  match splitBytes? n input with
  | some (taken, rest) => .ok taken rest
  | none => .error .unexpectedEnd input

/-- Pass over `n` bytes. -/
def skip (n : Nat) : Reader Unit := do
  let _ ← bytes n

/-- Take one byte. -/
def u1 : Reader UInt8 := fun input =>
  match input with
  | byte :: rest => .ok byte rest
  | [] => .error .unexpectedEnd []

/-- Take a number of two bytes. -/
def u2 : Reader UInt16 := do
  return UInt16.ofNat (bigEndian (← bytes 2))

/-- Take a number of four bytes. -/
def u4 : Reader UInt32 := do
  return UInt32.ofNat (bigEndian (← bytes 4))

/-- Take a number of eight bytes, which is read as two numbers of four. -/
def u8 : Reader UInt64 := do
  let high ← u4
  let low ← u4
  return high.toUInt64 <<< 32 ||| low.toUInt64

/-- Take a signed number of four bytes. -/
def i4 : Reader Int := do
  return (← u4).toInt32.toInt

/-- The result of a computation that reads nothing. -/
def ofExcept {α : Type} : Except DecodeError α → Reader α
  | .ok value => pure value
  | .error error => throw error

/-- Read the same kind of thing `n` times. -/
def times {α : Type} (n : Nat) (item : Reader α) : Reader (List α) :=
  match n with
  | 0 => pure []
  | n + 1 => do
      let first ← item
      let rest ← times n item
      return first :: rest

/-- A count of two bytes, then that many items. -/
def counted {α : Type} (item : Reader α) : Reader (List α) := do
  times (← u2).toNat item

/-- Run a reader on a whole byte string.  Bytes left over are an error that
depends on their number. -/
def onWhole {α : Type} (reader : Reader α) (leftOver : Nat → DecodeError) (input : Bytes) :
    Except DecodeError α :=
  match reader input with
  | .ok value [] => .ok value
  | .ok _ (byte :: rest) => .error (leftOver (byte :: rest).length)
  | .error error _ => .error error

end Reader

theorem splitBytes?_eq_some {n : Nat} {input taken rest : Bytes}
    (h : splitBytes? n input = some (taken, rest)) :
    input = taken ++ rest ∧ taken.length = n := by
  induction n generalizing input taken with
  | zero =>
      simp only [splitBytes?, Option.some.injEq, Prod.mk.injEq] at h
      obtain ⟨rfl, rfl⟩ := h
      simp
  | succ n ih =>
      cases input with
      | nil => simp [splitBytes?] at h
      | cons byte input =>
          simp only [splitBytes?, Option.map_eq_some_iff, Prod.mk.injEq, Prod.exists] at h
          obtain ⟨first, second, hsplit, rfl, rfl⟩ := h
          obtain ⟨rfl, rfl⟩ := ih hsplit
          simp

theorem splitBytes?_append (taken rest : Bytes) :
    splitBytes? taken.length (taken ++ rest) = some (taken, rest) := by
  induction taken with
  | nil => simp [splitBytes?]
  | cons byte taken ih => simp [splitBytes?, ih]

/-- A reader that, when it succeeds, leaves no more bytes than it was given. -/
def Shrinks {α : Type} (reader : Reader α) : Prop :=
  ∀ {input value rest}, reader input = .ok value rest → rest.length ≤ input.length

namespace Shrinks

theorem bytes (n : Nat) : Shrinks (Reader.bytes n) := by
  intro input value rest h
  unfold Reader.bytes at h
  split at h
  · next taken left hsplit =>
      obtain ⟨rfl, _⟩ := splitBytes?_eq_some hsplit
      simp only [EStateM.Result.ok.injEq] at h
      simp [← h.2]
  · simp at h

theorem pure {α : Type} (value : α) : Shrinks (Pure.pure value : Reader α) := by
  intro input value' rest h
  simp only [Pure.pure, EStateM.pure, EStateM.Result.ok.injEq] at h
  simp [h.2]

theorem throw {α : Type} (error : DecodeError) :
    Shrinks (MonadExcept.throw error : Reader α) := by
  intro input value rest h
  have herror : (EStateM.Result.error error input : EStateM.Result DecodeError Bytes α) =
      .ok value rest := h
  exact absurd herror (by simp)

theorem bind {α β : Type} {first : Reader α} {next : α → Reader β} (hfirst : Shrinks first)
    (hnext : ∀ value, Shrinks (next value)) : Shrinks (first >>= next) := by
  intro input value rest h
  simp only [Bind.bind, EStateM.bind] at h
  split at h
  · next middle left hrun => exact Nat.le_trans (hnext _ h) (hfirst hrun)
  · simp at h

theorem ofExcept {α : Type} (result : Except DecodeError α) : Shrinks (Reader.ofExcept result) := by
  cases result with
  | ok value => exact pure value
  | error error => exact throw error

theorem skip (n : Nat) : Shrinks (Reader.skip n) := bind (bytes n) fun _ => pure _

theorem u1 : Shrinks Reader.u1 := by
  intro input value rest h
  unfold Reader.u1 at h
  split at h
  · simp only [EStateM.Result.ok.injEq] at h
    simp [← h.2]
  · simp at h

theorem u2 : Shrinks Reader.u2 := bind (bytes 2) fun _ => pure _

theorem u4 : Shrinks Reader.u4 := bind (bytes 4) fun _ => pure _

theorem i4 : Shrinks Reader.i4 := bind u4 fun _ => pure _

end Shrinks
end ClassFile
end Classpath
