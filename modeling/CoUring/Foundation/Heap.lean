import Mathlib.Logic.Function.Basic

namespace CoUring.Foundation

universe u

/-- Objects by address. Addresses are handed out in order, so an address at or
beyond `next` has never held an object. -/
structure Heap (α : Type u) where
  cell : Nat → Option α
  next : Nat
  fresh : ∀ address, next ≤ address → cell address = none

namespace Heap

variable {α : Type u}

def empty : Heap α where
  cell := fun _ => none
  next := 0
  fresh := fun _ _ => rfl

def reserve (heap : Heap α) : Heap α where
  cell := heap.cell
  next := heap.next + 1
  fresh := fun address bound => heap.fresh address (by omega)

def put (heap : Heap α) (address : Nat) (value : α) : Heap α where
  cell := Function.update heap.cell address (some value)
  next := max heap.next (address + 1)
  fresh := fun other bound => by
    rw [Function.update_of_ne (by omega)]
    exact heap.fresh other (by omega)

def free (heap : Heap α) (address : Nat) : Heap α where
  cell := Function.update heap.cell address none
  next := heap.next
  fresh := fun other bound => by
    by_cases same : other = address
    · subst same
      simp
    · rw [Function.update_of_ne same]
      exact heap.fresh other bound

@[simp] theorem cell_put_self (heap : Heap α) (address : Nat) (value : α) :
    (heap.put address value).cell address = some value := by
  simp [put]

theorem cell_put_other (heap : Heap α) {address other : Nat} (value : α)
    (different : other ≠ address) :
    (heap.put address value).cell other = heap.cell other := by
  simp [put, different]

theorem next_put (heap : Heap α) (address : Nat) (value : α) :
    (heap.put address value).next = max heap.next (address + 1) := rfl

@[simp] theorem cell_free_self (heap : Heap α) (address : Nat) :
    (heap.free address).cell address = none := by
  simp [free]

theorem cell_free_other (heap : Heap α) {address other : Nat}
    (different : other ≠ address) :
    (heap.free address).cell other = heap.cell other := by
  simp [free, different]

/-- What is stored after one object was stored is this object or an old one. -/
theorem put_cases {heap : Heap α} {address other : Nat} {value stored : α}
    (found : (heap.put address value).cell other = some stored) :
    other = address ∧ stored = value ∨
      other ≠ address ∧ heap.cell other = some stored := by
  by_cases same : other = address
  · subst same
    rw [cell_put_self] at found
    exact .inl ⟨rfl, (Option.some.inj found).symm⟩
  · rw [cell_put_other _ _ same] at found
    exact .inr ⟨same, found⟩

theorem free_cases {heap : Heap α} {address other : Nat} {stored : α}
    (found : (heap.free address).cell other = some stored) :
    other ≠ address ∧ heap.cell other = some stored := by
  have different : other ≠ address := by
    rintro rfl
    rw [cell_free_self] at found
    cases found
  rw [cell_free_other _ different] at found
  exact ⟨different, found⟩

@[simp] theorem cell_next (heap : Heap α) : heap.cell heap.next = none :=
  heap.fresh heap.next (Nat.le_refl _)

theorem lt_next {heap : Heap α} {address : Nat} {value : α}
    (stored : heap.cell address = some value) : address < heap.next := by
  by_contra beyond
  rw [heap.fresh address (by omega)] at stored
  cases stored

theorem ne_next {heap : Heap α} {address : Nat} {value : α}
    (stored : heap.cell address = some value) : address ≠ heap.next :=
  Nat.ne_of_lt (lt_next stored)

theorem next_put_of_lt {heap : Heap α} {address : Nat} (value : α)
    (bound : address < heap.next) :
    (heap.put address value).next = heap.next := by
  rw [next_put]
  omega

/-! Changing every object in place. -/

theorem ext_cells {heap other : Heap α} (cell : heap.cell = other.cell)
    (next : heap.next = other.next) : heap = other := by
  cases heap
  cases other
  cases cell
  cases next
  rfl

def map (heap : Heap α) (change : Nat → α → α) : Heap α where
  cell := fun address => (heap.cell address).map (change address)
  next := heap.next
  fresh := fun address bound => by
    rw [heap.fresh address bound]
    rfl

theorem map_put (heap : Heap α) (change : Nat → α → α) (address : Nat)
    (value : α) :
    (heap.put address value).map change =
      (heap.map change).put address (change address value) := by
  refine ext_cells (funext fun other => ?_) rfl
  by_cases same : other = address
  · subst same
    simp [map]
  · rw [cell_put_other _ _ same]
    simp only [map]
    rw [cell_put_other _ _ same]

theorem map_free (heap : Heap α) (change : Nat → α → α) (address : Nat) :
    (heap.free address).map change = (heap.map change).free address := by
  refine ext_cells (funext fun other => ?_) rfl
  by_cases same : other = address
  · subst same
    simp [map]
  · rw [cell_free_other _ same]
    simp only [map]
    rw [cell_free_other _ same]

theorem map_congr {heap : Heap α} {change change' : Nat → α → α}
    (same : ∀ address value, heap.cell address = some value →
      change address value = change' address value) :
    heap.map change = heap.map change' := by
  refine ext_cells (funext fun address => ?_) rfl
  cases stored : heap.cell address with
  | none => simp [map, stored]
  | some value => simp [map, stored, same address value stored]

/-- Another change of one object more. -/
theorem put_map {heap : Heap α} {change change' : Nat → α → α}
    {address : Nat} {value : α} (stored : heap.cell address = some value)
    (others : ∀ other value', other ≠ address →
      heap.cell other = some value' →
      change' other value' = change other value') :
    (heap.map change).put address (change' address value) =
      heap.map change' := by
  have bound : address < heap.next := lt_next stored
  refine ext_cells (funext fun other => ?_) (next_put_of_lt _ bound)
  by_cases same : other = address
  · subst same
    simp [map, stored]
  · rw [cell_put_other _ _ same]
    cases found : heap.cell other with
    | none => simp [map, found]
    | some value' => simp [map, found, others other value' same found]

end Heap

end CoUring.Foundation
