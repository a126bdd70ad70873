import Mathlib.Data.List.Basic

namespace CoUring.Foundation

universe u v w x

/-! Frames written to a stream one after the other and read back one by one. -/

namespace Framing

variable {Symbol : Type u} {Item : Type v} {Frame : Type w} {Memory : Type x}

/-- One read after the other. What a read finds in the reader's memory may
differ each time. -/
def readEach (read : Memory → List Symbol → Option Frame × List Symbol) :
    List Memory → List Symbol → List (Option Frame × List Symbol)
  | [], _ => []
  | memory :: later, stream =>
      let result := read memory stream
      result :: readEach read later result.2

/-- Each frame is read up to its end, and then the stream is at its end. -/
def framesThenEnd (encode : Item → List Symbol) (frame : Item → Frame) :
    List Item → List (Option Frame × List Symbol)
  | [] => [(none, [])]
  | item :: later =>
      (some (frame item), later.flatMap encode) ::
        framesThenEnd encode frame later

variable {read : Memory → List Symbol → Option Frame × List Symbol}
  {encode : Item → List Symbol} {frame : Item → Frame} {good : Item → Prop}

/-- Where a single frame survives exactly when it is good, whatever comes
after it, a stream of frames does exactly when all are. -/
theorem reads_back_iff [Nonempty Memory]
    (ends : ∀ memory, read memory [] = (none, [])) (items : List Item)
    (exact : ∀ item ∈ items, ∀ later, (∀ memory,
      read memory (encode item ++ later) = (some (frame item), later)) ↔
        good item) :
    (∀ memories : List Memory, memories.length = items.length + 1 →
      readEach read memories (items.flatMap encode) =
        framesThenEnd encode frame items) ↔ ∀ item ∈ items, good item := by
  induction items with
  | nil =>
      refine iff_of_true ?_ (by simp)
      intro memories counted
      obtain ⟨memory, rfl⟩ := List.length_eq_one_iff.mp counted
      simp [readEach, framesThenEnd, ends]
  | cons item later induction =>
      have first := exact item List.mem_cons_self (later.flatMap encode)
      have rest := induction fun other member =>
        exact other (List.mem_cons_of_mem _ member)
      rw [List.forall_mem_cons, ← first, ← rest]
      constructor
      · intro readBack
        have split : ∀ memory (memories : List Memory),
            memories.length = later.length + 1 →
            read memory (encode item ++ later.flatMap encode) =
                (some (frame item), later.flatMap encode) ∧
              readEach read memories (later.flatMap encode) =
                framesThenEnd encode frame later := by
          intro memory memories counted
          have all := readBack (memory :: memories) (by simp [counted])
          rw [readEach, framesThenEnd, List.flatMap_cons] at all
          obtain ⟨head, tail⟩ := List.cons.inj all
          rw [head] at tail
          exact ⟨head, tail⟩
        obtain ⟨some⟩ := ‹Nonempty Memory›
        constructor
        · intro memory
          exact (split memory (List.replicate (later.length + 1) some)
            List.length_replicate).1
        · intro memories counted
          exact (split some memories counted).2
      · rintro ⟨head, tail⟩ memories counted
        cases memories with
        | nil => cases counted
        | cons memory memories =>
            rw [readEach, framesThenEnd, List.flatMap_cons]
            rw [head memory, tail memories (Nat.succ.inj counted)]

end Framing

end CoUring.Foundation
