import Mathlib.Algebra.Group.Int.Defs
import Mathlib.Algebra.GroupWithZero.Nat
import Mathlib.Data.List.TakeDrop
import Mathlib.Order.Nat

/-!
# Byte buffers

A buffer of fixed capacity with a position and a limit. Reading and writing take place between the two
and move the position; `flip` and `compact` turn a buffer that was written into one that is read, and
back. An operation that would pass the limit gives `none`, as does one with an index out of range.

What a buffer holds is said by two lists: the bytes before the position (`before`) and the bytes from
the position to the limit (`bytes`).
-/

namespace Torpedo

/-- The number with these digits to the base 256, most significant first. -/
def bigEndian (bs : List UInt8) : ℕ := bs.foldl (fun n b => n * 256 + b.toNat) 0

/-- The two bytes of a number, most significant first. -/
def shortBytes (n : ℕ) : List UInt8 := [UInt8.ofNat (n / 256), UInt8.ofNat n]

/-- Why a call gives no result: an exception, or a loop that is still running. -/
inductive Stop
  | exception | outOfFuel
deriving DecidableEq, Repr

/-- An operation of a buffer throws where it has no result. -/
def orThrow {α : Type} : Option α → Except Stop α
  | some a => .ok a
  | none => .error .exception

structure ByteBuffer where
  hb : List UInt8
  position : ℕ
  limit : ℕ
  mark : Option ℕ
  position_le : position ≤ limit
  limit_le : limit ≤ hb.length

namespace ByteBuffer

variable (b : ByteBuffer)

def capacity : ℕ := b.hb.length

def remaining : ℕ := b.limit - b.position

/-- The bytes from the position to the limit. -/
def bytes : List UInt8 := (b.hb.drop b.position).take b.remaining

/-- The bytes before the position. -/
def before : List UInt8 := b.hb.take b.position

/-! ## Operations -/

/-- A new buffer, ready to be written. -/
def allocate (n : ℕ) : ByteBuffer where
  hb := List.replicate n 0
  position := 0
  limit := n
  mark := none
  position_le := Nat.zero_le n
  limit_le := List.length_replicate.ge

/-- A buffer over some bytes of an array, ready to be read. -/
def wrap (hb : List UInt8) (offset length : ℕ) : Option ByteBuffer :=
  if h : offset + length ≤ hb.length then some ⟨hb, offset, offset + length, none, by omega, h⟩
  else none

def flip : ByteBuffer where
  hb := b.hb
  position := 0
  limit := b.position
  mark := none
  position_le := Nat.zero_le _
  limit_le := b.position_le.trans b.limit_le

def clear : ByteBuffer where
  hb := b.hb
  position := 0
  limit := b.capacity
  mark := none
  position_le := Nat.zero_le _
  limit_le := le_rfl

theorem length_bytes : b.bytes.length = b.remaining := by
  have := b.limit_le
  unfold bytes remaining
  rw [List.length_take, List.length_drop]
  omega

theorem length_before : b.before.length = b.position := by
  have := b.position_le.trans b.limit_le
  unfold before
  rw [List.length_take]
  omega

theorem remaining_le : b.remaining ≤ b.capacity := (Nat.sub_le _ _).trans b.limit_le

/-- Move the bytes from the position to the limit to the front, and go on writing behind them. -/
def compact : ByteBuffer where
  hb := b.bytes ++ b.hb.drop b.remaining
  position := b.remaining
  limit := b.capacity
  mark := none
  position_le := b.remaining_le
  limit_le := by
    have := b.remaining_le
    unfold capacity at *
    rw [List.length_append, List.length_drop, b.length_bytes]
    omega

/-- Move the position. A mark behind it is forgotten. -/
def setPosition (n : ℕ) : Option ByteBuffer :=
  if h : n ≤ b.limit then
    some { b with position := n, mark := b.mark.filter (· ≤ n), position_le := h }
  else none

def setMark : ByteBuffer := { b with mark := some b.position }

def reset : Option ByteBuffer := b.mark.bind b.setPosition

/-- Read `n` bytes. -/
def get (n : ℕ) : Option (List UInt8 × ByteBuffer) :=
  if h : n ≤ b.remaining then
    some (b.bytes.take n, { b with
      position := b.position + n
      position_le := by
        have := b.position_le
        unfold remaining at h
        omega })
  else none

/-- Write the bytes. -/
def put (bs : List UInt8) : Option ByteBuffer :=
  if h : bs.length ≤ b.remaining then
    some {
      hb := b.before ++ bs ++ b.hb.drop (b.position + bs.length)
      position := b.position + bs.length
      limit := b.limit
      mark := b.mark
      position_le := by
        have := b.position_le
        unfold remaining at h
        omega
      limit_le := by
        have := b.limit_le
        have := b.position_le
        unfold remaining at h
        rw [List.length_append, List.length_append, b.length_before, List.length_drop]
        omega }
  else none

/-- Overwrite the bytes from an index on. The position stays. -/
def putAt (index : ℕ) (bs : List UInt8) : Option ByteBuffer :=
  if h : index + bs.length ≤ b.limit then
    some { b with
      hb := b.hb.take index ++ bs ++ b.hb.drop (index + bs.length)
      limit_le := by
        have := b.limit_le
        rw [List.length_append, List.length_append, List.length_take, List.length_drop]
        omega }
  else none

/-! ## What the operations do -/

variable {b} {b' : ByteBuffer} {n : ℕ} {bs : List UInt8}

@[simp] theorem before_allocate : (allocate n).before = [] := rfl

@[simp] theorem capacity_allocate : (allocate n).capacity = n := List.length_replicate

@[simp] theorem remaining_allocate : (allocate n).remaining = n := rfl

@[simp] theorem bytes_flip : b.flip.bytes = b.before := rfl

@[simp] theorem capacity_flip : b.flip.capacity = b.capacity := rfl

@[simp] theorem before_clear : b.clear.before = [] := rfl

@[simp] theorem capacity_clear : b.clear.capacity = b.capacity := rfl

@[simp] theorem remaining_clear : b.clear.remaining = b.capacity := rfl

@[simp] theorem limit_clear : b.clear.limit = b.capacity := rfl

@[simp] theorem before_compact : b.compact.before = b.bytes := by
  show (b.bytes ++ b.hb.drop b.remaining).take b.remaining = b.bytes
  rw [← b.length_bytes, List.take_left]

@[simp] theorem capacity_compact : b.compact.capacity = b.capacity := by
  have := b.remaining_le
  show (b.bytes ++ b.hb.drop b.remaining).length = b.hb.length
  unfold capacity at this
  rw [List.length_append, List.length_drop, b.length_bytes]
  omega

@[simp] theorem bytes_setMark : b.setMark.bytes = b.bytes := rfl

@[simp] theorem capacity_setMark : b.setMark.capacity = b.capacity := rfl

theorem setPosition_eq (h : n ≤ b.limit) :
    b.setPosition n = some { b with position := n, mark := b.mark.filter (· ≤ n), position_le := h } :=
  dif_pos h

/-- Going on by `n` bytes drops them. -/
theorem setPosition_add (h : n ≤ b.remaining) :
    ∃ b', b.setPosition (b.position + n) = some b' ∧ b'.bytes = b.bytes.drop n ∧
      b'.capacity = b.capacity := by
  have hle : b.position + n ≤ b.limit := by
    have := b.position_le
    unfold remaining at h
    omega
  refine ⟨_, setPosition_eq hle, ?_, rfl⟩
  unfold bytes remaining
  rw [List.drop_take, List.drop_drop, Nat.sub_add_eq]

theorem get_eq (h : n ≤ b.remaining) :
    ∃ b', b.get n = some (b.bytes.take n, b') ∧ b'.bytes = b.bytes.drop n ∧ b'.hb = b.hb ∧
      b'.limit = b.limit ∧ b'.mark = b.mark := by
  refine ⟨_, dif_pos h, ?_, rfl, rfl, rfl⟩
  unfold bytes remaining
  rw [List.drop_take, List.drop_drop, Nat.sub_add_eq]

/-- Writing appends. -/
theorem put_eq (h : bs.length ≤ b.remaining) :
    ∃ b', b.put bs = some b' ∧ b'.before = b.before ++ bs ∧ b'.limit = b.limit ∧
      b'.capacity = b.capacity := by
  refine ⟨_, dif_pos h, ?_, rfl, ?_⟩
  · show (b.before ++ bs ++ b.hb.drop (b.position + bs.length)).take (b.position + bs.length) = _
    rw [← b.length_before, ← List.length_append, List.take_left]
  · have := b.limit_le
    have := b.position_le
    unfold remaining at h
    show (b.before ++ bs ++ b.hb.drop (b.position + bs.length)).length = b.hb.length
    rw [List.length_append, List.length_append, b.length_before, List.length_drop]
    omega

theorem put_eq_none (h : b.remaining < bs.length) : b.put bs = none := dif_neg (by omega)

/-- Going back keeps the bytes up to the new position. -/
theorem setPosition_le (h : n ≤ b.position) :
    ∃ b', b.setPosition n = some b' ∧ b'.before = b.before.take n ∧ b'.limit = b.limit ∧
      b'.capacity = b.capacity := by
  refine ⟨_, setPosition_eq (h.trans b.position_le), ?_, rfl, rfl⟩
  unfold before
  rw [List.take_take, Nat.min_eq_left h]

/-- Overwriting bytes before the position. -/
theorem putAt_eq {index : ℕ} (h : index + bs.length ≤ b.position) :
    ∃ b', b.putAt index bs = some b' ∧
      b'.before = b.before.take index ++ bs ++ b.before.drop (index + bs.length) ∧
      b'.limit = b.limit ∧ b'.capacity = b.capacity := by
  have hcap := b.position_le.trans b.limit_le
  have hlen : (b.hb.take index).length = index := by
    rw [List.length_take]
    omega
  refine ⟨_, dif_pos (h.trans b.position_le), ?_, rfl, ?_⟩
  · show (b.hb.take index ++ bs ++ b.hb.drop (index + bs.length)).take b.position = _
    unfold before
    rw [List.take_take, Nat.min_eq_left (by omega), List.take_append, List.length_append, hlen,
      List.take_of_length_le (by rw [List.length_append, hlen]; omega), List.drop_take]
  · show (b.hb.take index ++ bs ++ b.hb.drop (index + bs.length)).length = b.hb.length
    rw [List.length_append, List.length_append, hlen, List.length_drop]
    omega

end ByteBuffer

end Torpedo
