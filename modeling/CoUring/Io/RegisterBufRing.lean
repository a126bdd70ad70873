import CoUring.Foundation.Transition
import CoUring.Io.BufferRing

namespace CoUring

open Foundation

/-! `registerBufRing`, called any number of times. -/

/-- What `mmap` and `io_uring_register_buf_ring` answer during one call. -/
structure RegisterOutcome where
  mmapErrno : Option Errno
  registered : Int
  deriving DecidableEq, Repr

def RegisterOutcome.mapped (outcome : RegisterOutcome) : Bool :=
  outcome.mmapErrno.isNone

variable {ring : RingMemory} {buffers before : BufferRing}
  {outcome : RegisterOutcome} {outcomes : List RegisterOutcome}

/-! The slots that a call writes. -/

/-- The slots that `fillRing` writes, in order. -/
def filledSlots (size : Nat) (ring : RingMemory) (count : Nat) : List Nat :=
  (List.range count).map fun index =>
    RingMemory.slotAt (ring.tail.toNat + index) (ioUringBufRingMask size)

/-- Slots that are written one after another, each with the index of its
buffer. -/
def writeSlots (slots : Nat → Nat) (written : List Nat) : Nat → Nat :=
  written.zipIdx.foldl
    (fun slots entry => Function.update slots entry.1 entry.2) slots

def setupSlots (ring : RingMemory) (bufList : List (List UInt8))
    (registered : Int) : List Nat :=
  if registered < 0 then []
  else filledSlots bufList.length ring.init bufList.length

theorem filledSlots_succ (size : Nat) (ring : RingMemory) (count : Nat) :
    filledSlots size ring (count + 1) = filledSlots size ring count ++
      [RingMemory.slotAt (ring.tail.toNat + count)
        (ioUringBufRingMask size)] := by
  simp [filledSlots, List.range_succ]

theorem fillRing_writes (size : Nat) (ring : RingMemory) (count : Nat) :
    (fillRing size ring count).slots =
      writeSlots ring.slots (filledSlots size ring count) := by
  induction count with
  | zero => rfl
  | succ count induction =>
      have filled : fillRing size ring (count + 1) =
          (fillRing size ring count).add count (ioUringBufRingMask size)
            count := by
        simp [fillRing, List.range_succ]
      have counted : (filledSlots size ring count).length = count := by
        simp [filledSlots]
      rw [writeSlots] at induction
      rw [filled, RingMemory.add, writeSlots, filledSlots_succ,
        List.zipIdx_append, List.foldl_append, ← induction, fillRing_tail,
        counted]
      simp

theorem setupBufRing_writes (ring : RingMemory) (bufList : List (List UInt8))
    (registered : Int) :
    (setupBufRing ring bufList registered).2.slots =
      writeSlots ring.slots (setupSlots ring bufList registered) := by
  unfold setupBufRing setupSlots
  dsimp only
  split
  · rfl
  · rw [RingMemory.advance_slots, fillRing_writes]
    rfl

theorem last_slot_written {size : Nat} (start : ring.tail = 0)
    (positive : 0 < size) : size - 1 ∈ filledSlots size ring size := by
  apply List.mem_map.mpr
  refine ⟨size - 1, List.mem_range.mpr (Nat.sub_lt positive Nat.one_pos), ?_⟩
  rw [start, RingMemory.slotAt, ioUringBufRingMask, UInt16.toNat_zero,
    Nat.zero_add, Nat.and_self]

theorem slots_in_ring {slot : Nat}
    (written : slot ∈ filledSlots BufferRing.bufRingSize ring
      BufferRing.bufRingSize) : slot < BufferRing.bufRingSize := by
  obtain ⟨index, -, rfl⟩ := List.mem_map.mp written
  exact (slotAt_bufRingSize _).trans_lt (Nat.mod_lt _ (by decide))

namespace BufferRing

def register (buffers : BufferRing) (outcome : RegisterOutcome) :
    Int × BufferRing :=
  buffers.registerBufRing outcome.mmapErrno outcome.registered

def slotsWritten (buffers : BufferRing) (outcome : RegisterOutcome) :
    List Nat :=
  if outcome.mapped then
    setupSlots .zeroed (buffers.bufList ++ freshBufList) outcome.registered
  else []

def registrations (outcomes : List RegisterOutcome) :
    List (BufferRing × RegisterOutcome) :=
  TransitionSystem.traceLabels
    (fun buffers outcome => some (buffers.register outcome).2) {} outcomes

/-- A call that fails leaves everything as it was; one that succeeds leaves
exactly the buffers of the ring, and writes slots of the ring only. -/
structure CallClean (before : BufferRing) (outcome : RegisterOutcome) :
    Prop where
  failed : (before.register outcome).1 ≠ 0 →
    (before.register outcome).2.isInitialized = before.isInitialized ∧
      (before.register outcome).2.bufList = before.bufList ∧
      (before.register outcome).2.mappings = before.mappings
  succeeded : (before.register outcome).1 = 0 →
    (before.register outcome).2.bufList.length = bufRingSize ∧
      ∀ slot ∈ before.slotsWritten outcome, slot < bufRingSize
  written : (before.register outcome).1 = 0 →
    ∃ ring, (before.register outcome).2.bufRing = some ring ∧
      ring.slots =
        writeSlots RingMemory.zeroed.slots (before.slotsWritten outcome)

/-! One call. -/

theorem register_unmapped (before : BufferRing)
    (unmapped : outcome.mapped = false) :
    (before.register outcome).1 ≠ 0 ∧
      (before.register outcome).2 = before := by
  obtain ⟨mmapErrno, registered⟩ := outcome
  cases mmapErrno with
  | none => cases unmapped
  | some errno =>
      refine ⟨?_, rfl⟩
      intro zero
      obtain ⟨missing, -⟩ := registerBufRing_eq_zero.mp zero
      cases missing

theorem register_writes (before : BufferRing)
    (mapped : outcome.mapped = true) :
    ∃ ring, (before.register outcome).2.bufRing = some ring ∧
      ring.slots =
        writeSlots RingMemory.zeroed.slots (before.slotsWritten outcome) := by
  rw [slotsWritten, if_pos mapped, ← setupBufRing_writes]
  obtain ⟨mmapErrno, registered⟩ := outcome
  cases mmapErrno with
  | some errno => cases mapped
  | none => exact ⟨_, rfl, rfl⟩

/-- Whatever becomes of the registration, the buffers are there. -/
theorem register_mapped (before : BufferRing)
    (mapped : outcome.mapped = true) :
    (before.register outcome).2.bufList = before.bufList ++ freshBufList ∧
      (before.register outcome).2.mappings = before.mappings + 1 ∧
      ((before.register outcome).1 = 0 ↔ 0 ≤ outcome.registered) := by
  obtain ⟨mmapErrno, registered⟩ := outcome
  cases mmapErrno with
  | some errno => cases mapped
  | none =>
      refine ⟨rfl, rfl, ?_⟩
      exact registerBufRing_eq_zero.trans (and_iff_right rfl)

theorem callClean_iff : CallClean before outcome ↔
    (outcome.mapped = true →
      before.bufList = [] ∧ 0 ≤ outcome.registered) := by
  cases mapped : outcome.mapped with
  | false =>
      obtain ⟨fails, same⟩ := register_unmapped before mapped
      refine iff_of_true ⟨fun _ => ?_, fun zero => absurd zero fails,
        fun zero => absurd zero fails⟩ nofun
      rw [same]
      exact ⟨rfl, rfl, rfl⟩
  | true =>
      obtain ⟨bufList, mappings, success⟩ :=
        register_mapped before mapped
      rw [imp_iff_right rfl]
      constructor
      · intro clean
        have succeeds : (before.register outcome).1 = 0 := by
          by_contra fails
          obtain ⟨-, -, kept⟩ := clean.failed fails
          omega
        refine ⟨?_, success.mp succeeds⟩
        obtain ⟨counted, -⟩ := clean.succeeded succeeds
        rw [bufList, List.length_append, freshBufList_length] at counted
        exact List.length_eq_zero_iff.mp (by omega)
      · rintro ⟨empty, registers⟩
        have succeeds := success.mpr registers
        refine ⟨fun fails => absurd succeeds fails, fun _ => ⟨?_, ?_⟩,
          fun _ => register_writes before mapped⟩
        · rw [bufList, empty, List.nil_append, freshBufList_length]
        · intro slot written
          rw [slotsWritten, if_pos mapped, setupSlots,
            if_neg (Int.not_lt.mpr registers), empty, List.nil_append,
            freshBufList_length] at written
          exact slots_in_ring written

/-- A retry after a failed registration writes beyond the ring. -/
theorem retry_overruns (present : before.bufList ≠ [])
    (mapped : outcome.mapped = true) (registers : 0 ≤ outcome.registered) :
    ∃ slot ∈ before.slotsWritten outcome, bufRingSize ≤ slot := by
  have positive := List.length_pos_of_ne_nil present
  have sizes : (before.bufList ++ freshBufList).length =
      before.bufList.length + bufRingSize := by
    rw [List.length_append, freshBufList_length]
  refine ⟨before.bufList.length + bufRingSize - 1, ?_, by omega⟩
  rw [slotsWritten, if_pos mapped, setupSlots,
    if_neg (Int.not_lt.mpr registers), sizes]
  exact last_slot_written rfl (by omega)

/-! Whole sequences. -/

theorem calls_clean_iff (before : BufferRing)
    (outcomes : List RegisterOutcome) :
    (∀ taken ∈ TransitionSystem.traceLabels
        (fun buffers outcome => some (buffers.register outcome).2) before
          outcomes,
      CallClean taken.1 taken.2) ↔
      outcomes.countP RegisterOutcome.mapped +
          (if before.bufList = [] then 0 else 1) ≤ 1 ∧
        ∀ outcome ∈ outcomes, outcome.mapped = true →
          0 ≤ outcome.registered := by
  induction outcomes generalizing before with
  | nil =>
      refine iff_of_true nofun ⟨?_, nofun⟩
      split <;> simp
  | cons outcome outcomes induction =>
      rw [TransitionSystem.traceLabels, List.forall_mem_cons, induction,
        callClean_iff, List.forall_mem_cons, List.countP_cons]
      cases mapped : outcome.mapped with
      | false =>
          rw [(register_unmapped _ mapped).2]
          simp
      | true =>
          obtain ⟨bufList, -⟩ := register_mapped before mapped
          have present : before.bufList ++ freshBufList ≠ [] := by
            apply List.append_ne_nil_of_right_ne_nil
            apply List.ne_nil_of_length_pos
            rw [freshBufList_length]
            decide
          rw [bufList, if_neg present, imp_iff_right rfl, imp_iff_right rfl,
            if_pos rfl]
          constructor
          · rintro ⟨⟨empty, registers⟩, counted, others⟩
            rw [if_pos empty]
            exact ⟨counted, registers, others⟩
          · rintro ⟨counted, registers, others⟩
            split at counted
            next empty => exact ⟨⟨empty, registers⟩, counted, others⟩
            next => omega

/-- Registration fails cleanly and can be retried just in the sequences in
which at most one call maps its region, and that one is registered. -/
theorem registrations_clean_iff (outcomes : List RegisterOutcome) :
    (∀ taken ∈ registrations outcomes, CallClean taken.1 taken.2) ↔
      outcomes.countP RegisterOutcome.mapped ≤ 1 ∧
        ∀ outcome ∈ outcomes, outcome.mapped = true →
          0 ≤ outcome.registered :=
  calls_clean_iff {} outcomes

def refusedOnce : List RegisterOutcome := [⟨none, -22⟩, ⟨none, 0⟩]

theorem refused_ring_stays :
    ¬ ∀ taken ∈ registrations refusedOnce, CallClean taken.1 taken.2 := by
  intro clean
  have first := clean ({}, ⟨none, -22⟩) (.head _)
  obtain ⟨initialized, -⟩ := first.failed (by decide)
  cases initialized

end BufferRing

end CoUring
