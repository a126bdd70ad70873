import Mathlib.Data.List.Nodup
import Mathlib.Data.Nat.ModEq
import Mathlib.Logic.Function.Basic

namespace CoUring.Foundation

universe u

variable {α : Type u}

/-! Windows of consecutive slots on a ring of `size` slots. A position is any
natural number: it names the slot it is congruent to. -/

def window (slots : Nat → α) (size head count : Nat) : List α :=
  (List.range count).map fun offset => slots ((head + offset) % size)

@[simp] theorem window_length (slots : Nat → α) (size head count : Nat) :
    (window slots size head count).length = count := by
  simp [window]

theorem window_push (slots : Nat → α) (size head count : Nat) :
    window slots size head (count + 1) =
      window slots size head count ++ [slots ((head + count) % size)] := by
  simp [window, List.range_succ]

theorem window_pop (slots : Nat → α) (size head count : Nat) :
    window slots size head (count + 1) =
      slots (head % size) :: window slots size (head + 1) count := by
  simp only [window, List.range_succ_eq_map, List.map_cons, List.map_map,
    Nat.add_zero, List.cons.injEq, true_and]
  apply List.map_congr_left
  intro offset _
  simp only [Function.comp]
  congr 2
  omega

/-- A free-running counter may wrap at any multiple of the ring's size. -/
theorem window_wrap (slots : Nat → α) {size modulus : Nat}
    (divides : size ∣ modulus) (head count : Nat) :
    window slots size (head % modulus) count = window slots size head count := by
  apply List.map_congr_left
  intro offset _
  rw [Nat.add_mod (head % modulus), Nat.mod_mod_of_dvd _ divides,
    ← Nat.add_mod]

theorem window_getElem (slots : Nat → α) (size head count : Nat)
    {offset : Nat} (bound : offset < (window slots size head count).length) :
    (window slots size head count)[offset] =
      slots ((head + offset) % size) := by
  simp [window]

/-- Positions less than a full turn apart name different slots. -/
theorem offset_unique {size : Nat} (head : Nat) {first second : Nat}
    (firstBound : first < size) (secondBound : second < size)
    (equality : (head + first) % size = (head + second) % size) :
    first = second := by
  have congruent : Nat.ModEq size first second :=
    Nat.ModEq.add_left_cancel' head equality
  rw [Nat.ModEq, Nat.mod_eq_of_lt firstBound,
    Nat.mod_eq_of_lt secondBound] at congruent
  exact congruent

/-! Writing one slot. -/

theorem window_update_outside (slots : Nat → α) {size head count slot : Nat}
    (value : α)
    (outside : ∀ offset < count, (head + offset) % size ≠ slot) :
    window (Function.update slots slot value) size head count =
      window slots size head count := by
  apply List.map_congr_left
  intro offset member
  exact Function.update_of_ne (outside offset (List.mem_range.mp member)) _ _

theorem window_update_inside (slots : Nat → α) {size head count offset : Nat}
    (value : α) (fits : count ≤ size) (bound : offset < count) :
    window (Function.update slots ((head + offset) % size) value)
        size head count =
      (window slots size head count).set offset value := by
  apply List.ext_getElem
  · simp
  · intro index leftBound rightBound
    simp only [window_length] at leftBound
    rw [List.getElem_set, window_getElem]
    by_cases same : offset = index
    · subst same
      simp
    · rw [if_neg same, window_getElem]
      apply Function.update_of_ne
      intro equality
      exact same (offset_unique head (by omega) (by omega) equality).symm

theorem slot_inside_or_outside (size head count slot : Nat) :
    (∃ offset < count, (head + offset) % size = slot) ∨
      ∀ offset < count, (head + offset) % size ≠ slot := by
  by_cases inside : ∃ offset < count, (head + offset) % size = slot
  · exact .inl inside
  · refine .inr fun offset bound equality => inside ⟨offset, bound, equality⟩

theorem next_slot_outside {size head count : Nat} (room : count < size) :
    ∀ offset < count, (head + offset) % size ≠ (head + count) % size := by
  intro offset bound equality
  have := offset_unique head (by omega) room equality
  omega

end CoUring.Foundation
