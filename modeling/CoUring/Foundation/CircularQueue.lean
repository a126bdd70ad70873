import CoUring.Foundation.CircularWindow
import Mathlib.Data.BitVec

namespace CoUring.Foundation

universe u

/-- A number of slots that counters of `width` bits address without a jump at
the wrap-around. -/
structure RingSize (width : Nat) where
  slots : Nat
  divides : slots ∣ 2 ^ width
  proper : slots < 2 ^ width

/-- Slots shared by a producer, which owns `tail`, and a consumer, which owns
`head`. Both counters run freely and wrap. -/
structure CircularQueue (α : Type u) (width : Nat) where
  slots : Nat → α
  head : BitVec width
  tail : BitVec width

/-! Distances of free-running counters. -/

section Counters

variable {width : Nat} {head tail : BitVec width}

theorem distance_eq_zero : (tail - head).toNat = 0 ↔ head = tail := by
  have zero : (0 : BitVec width).toNat = 0 := BitVec.toNat_ofNat 0 width
  rw [← zero, BitVec.toNat_inj, sub_eq_zero, eq_comm]

theorem tail_eq_head_add (head tail : BitVec width) :
    tail.toNat = (head.toNat + (tail - head).toNat) % 2 ^ width := by
  rw [← BitVec.toNat_add, add_sub_cancel]

theorem distance_succ_tail (room : (tail - head).toNat + 1 < 2 ^ width) :
    (tail + 1 - head).toNat = (tail - head).toNat + 1 := by
  have one : (1 : BitVec width).toNat = 1 :=
    Nat.mod_eq_of_lt (Nat.lt_of_le_of_lt (Nat.le_add_left 1 _) room)
  rw [add_sub_right_comm, BitVec.toNat_add, one, Nat.mod_eq_of_lt room]

theorem distance_pos (different : head ≠ tail) : 0 < (tail - head).toNat :=
  Nat.pos_of_ne_zero fun zero => different (distance_eq_zero.mp zero)

theorem toNat_one_of_ne (different : head ≠ tail) :
    (1 : BitVec width).toNat = 1 :=
  Nat.mod_eq_of_lt
    (Nat.lt_of_le_of_lt (distance_pos different) (tail - head).isLt)

theorem distance_succ_head (different : head ≠ tail) :
    (tail - (head + 1)).toNat + 1 = (tail - head).toNat := by
  have positive := distance_pos different
  have one := toNat_one_of_ne different
  have below : (1 : BitVec width) ≤ tail - head := by
    rw [BitVec.le_def, one]
    exact positive
  rw [← sub_sub, BitVec.toNat_sub_of_le below, one]
  exact Nat.sub_add_cancel positive

end Counters

namespace CircularQueue

variable {α : Type u} {width : Nat} (size : RingSize width)

def count (queue : CircularQueue α width) : Nat :=
  (queue.tail - queue.head).toNat

def slotOf (position : BitVec width) : Nat := position.toNat % size.slots

/-- The values the consumer has not released, oldest first. -/
def contents (queue : CircularQueue α width) : List α :=
  window queue.slots size.slots queue.head.toNat queue.count

def Bounded (queue : CircularQueue α width) : Prop :=
  queue.count ≤ size.slots

/-- The value at a position was produced and is not released yet. -/
def Holds (queue : CircularQueue α width) (position : BitVec width) : Prop :=
  (position - queue.head).toNat < queue.count

/-- The producer appends a value when a slot is free. -/
def push (queue : CircularQueue α width) (value : α) :
    Option (CircularQueue α width) :=
  if queue.count < size.slots then
    some { queue with
      slots := Function.update queue.slots (slotOf size queue.tail) value
      tail := queue.tail + 1 }
  else none

def advance (queue : CircularQueue α width) : CircularQueue α width :=
  { queue with head := queue.head + 1 }

variable {size} {queue next : CircularQueue α width}

theorem contents_eq_nil : queue.contents size = [] ↔
    queue.head = queue.tail := by
  rw [← List.length_eq_zero_iff, contents, window_length, count,
    distance_eq_zero]

theorem slotOf_tail (queue : CircularQueue α width) :
    slotOf size queue.tail =
      (queue.head.toNat + queue.count) % size.slots := by
  rw [slotOf, tail_eq_head_add queue.head queue.tail,
    Nat.mod_mod_of_dvd _ size.divides, count]

/-! One operation. -/

theorem push_eq_some {value : α} : queue.push size value = some next ↔
    queue.count < size.slots ∧ next = { queue with
      slots := Function.update queue.slots (slotOf size queue.tail) value
      tail := queue.tail + 1 } := by
  rw [push, Option.ite_none_right_eq_some, Option.some.injEq, eq_comm]

theorem push_count {value : α} (pushed : queue.push size value = some next) :
    next.count = queue.count + 1 := by
  obtain ⟨room, rfl⟩ := push_eq_some.mp pushed
  exact distance_succ_tail (Nat.lt_of_le_of_lt room size.proper)

theorem push_contents {value : α}
    (pushed : queue.push size value = some next) :
    next.contents size = queue.contents size ++ [value] := by
  have counts := push_count pushed
  obtain ⟨room, rfl⟩ := push_eq_some.mp pushed
  rw [contents, counts, window_push]
  dsimp only
  rw [← slotOf_tail, Function.update_self, slotOf_tail,
    window_update_outside _ _ (next_slot_outside room), contents]

theorem advance_count (present : queue.head ≠ queue.tail) :
    queue.advance.count + 1 = queue.count :=
  distance_succ_head present

theorem contents_advance (present : queue.head ≠ queue.tail) :
    queue.contents size =
      queue.slots (slotOf size queue.head) :: queue.advance.contents size := by
  have position : (queue.head + 1).toNat =
      (queue.head.toNat + 1) % 2 ^ width := by
    rw [BitVec.toNat_add, toNat_one_of_ne present]
  have rest : queue.advance.contents size =
      window queue.slots size.slots (queue.head.toNat + 1)
        queue.advance.count := by
    rw [contents, advance, position, window_wrap _ size.divides]
  rw [rest, contents, ← advance_count present, window_pop, slotOf]

theorem holds_head (present : queue.head ≠ queue.tail) :
    queue.Holds queue.head := by
  rw [Holds, distance_eq_zero.mpr rfl]
  exact distance_pos present

end CircularQueue

end CoUring.Foundation
