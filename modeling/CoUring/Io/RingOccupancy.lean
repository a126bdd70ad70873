import CoUring.Foundation.CircularQueue
import CoUring.Foundation.Listing
import CoUring.Foundation.Transition
import CoUring.Io.BufferRing
import Mathlib.Data.Finset.Card
import Mathlib.Data.Finset.Dedup
import Mathlib.Data.Finset.SDiff
import Mathlib.Data.List.GetD

namespace CoUring

open Foundation

/-! Distances of 16-bit counters, those of bit vectors. -/

namespace RingCounter

theorem distance_succ_tail {head tail : UInt16}
    (room : (tail - head).toNat < 2 ^ 16 - 1) :
    (tail + 1 - head).toNat = (tail - head).toNat + 1 :=
  @Foundation.distance_succ_tail 16 head.toBitVec tail.toBitVec
    (Nat.add_lt_of_lt_sub room)

theorem distance_succ_head {head tail : UInt16} (different : head ≠ tail) :
    (tail - head).toNat = (tail - (head + 1)).toNat + 1 :=
  (@Foundation.distance_succ_head 16 head.toBitVec tail.toBitVec
    fun same => different (UInt16.toBitVec_inj.mp same)).symm

theorem tail_eq_head_add (head tail : UInt16) :
    tail.toNat = (head.toNat + (tail - head).toNat) % 2 ^ 16 :=
  Foundation.tail_eq_head_add head.toBitVec tail.toBitVec

theorem tail_slot (head tail : UInt16) :
    tail.toNat % IoUring.bufRingSize =
      (head.toNat + (tail - head).toNat) % IoUring.bufRingSize := by
  conv_lhs => rw [tail_eq_head_add head tail]
  exact Nat.mod_mod_of_dvd _ bufRingSize_dvd_counter

end RingCounter

namespace ProvidedBuffers

/-- The ring offers exactly the ids that are not selected, each once. -/
def RingExact (buffers : ProvidedBuffers) : Prop :=
  Lists buffers.offered fun bufferId =>
    bufferId < IoUring.bufRingSize ∧ bufferId ∉ buffers.kernel.selected

inductive RingLabel
  | select
  | giveBack (bufferId : Nat)
  deriving DecidableEq, Repr

def ringStep (buffers : ProvidedBuffers) : RingLabel → Option ProvidedBuffers
  | .select => buffers.select.map Prod.snd
  | .giveBack bufferId =>
      if bufferId ∈ buffers.kernel.selected then
        some (buffers.returnBuf bufferId)
      else none

def Registered (buffers : ProvidedBuffers) : Prop :=
  buffers.kernel = {} ∧ ∃ registered,
    BufferRing.registerBufRing {} none registered = (0, buffers.app)

def ringSystem : TransitionSystem ProvidedBuffers RingLabel :=
  .ofFunction Registered ringStep

/-- What every run keeps, whether or not returned ids land well. -/
structure RingShape (buffers : ProvidedBuffers) (ring : RingMemory) :
    Prop where
  mapped : buffers.app.bufRing = some ring
  slot_bound : ∀ slot, ring.slots (slot % IoUring.bufRingSize) <
    IoUring.bufRingSize
  selected_bound : ∀ bufferId ∈ buffers.kernel.selected,
    bufferId < IoUring.bufRingSize
  count : buffers.available + buffers.kernel.selected.length =
    IoUring.bufRingSize
  buffer_nonempty : ∀ bufferId < IoUring.bufRingSize,
    buffers.app.bufList.getD bufferId [] ≠ []

/-- The slot that `addBuf` writes when `bufferId` is returned. -/
def writtenSlot (ring : RingMemory) (bufferId : Nat) : Nat :=
  (ring.tail.toNat + bufferId) % IoUring.bufRingSize

def shownSlot (ring : RingMemory) : Nat :=
  ring.tail.toNat % IoUring.bufRingSize

/-- The slot holds an entry the kernel is being offered. -/
def Offers (buffers : ProvidedBuffers) (slot : Nat) : Prop :=
  ∃ offset < buffers.available,
    (buffers.kernel.head.toNat + offset) % IoUring.bufRingSize = slot

/-- Returning the id makes the right entry visible: the id is 0, or the slot
shown already stores what is missing from the window after the write. -/
def ReturnLands (buffers : ProvidedBuffers) (bufferId : Nat) : Prop :=
  ∀ ring, buffers.app.bufRing = some ring →
    bufferId = 0 ∨
    (¬ buffers.Offers (writtenSlot ring bufferId) ∧
      ring.slots (shownSlot ring) = bufferId) ∨
    (buffers.Offers (writtenSlot ring bufferId) ∧
      ring.slots (shownSlot ring) = ring.slots (writtenSlot ring bufferId))

def StepLands (buffers : ProvidedBuffers) : RingLabel → Prop
  | .select => True
  | .giveBack bufferId => buffers.ReturnLands bufferId

variable {buffers : ProvidedBuffers} {ring : RingMemory}

theorem RingShape.available_eq (shape : RingShape buffers ring) :
    buffers.available = (ring.tail - buffers.kernel.head).toNat := by
  simp only [available, shape.mapped]

theorem RingShape.offered_eq (shape : RingShape buffers ring) :
    buffers.offered = window ring.slots IoUring.bufRingSize
      buffers.kernel.head.toNat buffers.available := by
  simp only [offered, shape.mapped]

theorem ringSystem_select {bufferId : Nat} {next : ProvidedBuffers}
    (selected : buffers.select = some (bufferId, next)) :
    ringSystem.step buffers .select next := by
  change buffers.select.map Prod.snd = some next
  rw [selected]
  rfl

theorem ringSystem_giveBack {bufferId : Nat}
    (selected : bufferId ∈ buffers.kernel.selected) :
    ringSystem.step buffers (.giveBack bufferId)
      (buffers.returnBuf bufferId) := by
  change (if bufferId ∈ buffers.kernel.selected then
    some (buffers.returnBuf bufferId) else none) = _
  rw [if_pos selected]

theorem ringSystem_step_cases {label : RingLabel} {next : ProvidedBuffers}
    (stepped : ringSystem.step buffers label next) :
    (label = .select ∧ ∃ bufferId, buffers.select = some (bufferId, next)) ∨
    (∃ bufferId, label = .giveBack bufferId ∧
      bufferId ∈ buffers.kernel.selected ∧
      next = buffers.returnBuf bufferId) := by
  cases label with
  | select =>
      obtain ⟨⟨bufferId, after⟩, selected, rfl⟩ :=
        Option.map_eq_some_iff.mp stepped
      exact .inl ⟨rfl, bufferId, selected⟩
  | giveBack bufferId =>
      simp only [ringSystem, TransitionSystem.ofFunction, ringStep,
        Option.ite_none_right_eq_some, Option.some.injEq] at stepped
      exact .inr ⟨bufferId, rfl, stepped.1, stepped.2.symm⟩

/-! Selecting. -/

theorem RingShape.select_eq_none (shape : RingShape buffers ring)
    (empty : buffers.kernel.head = ring.tail) : buffers.select = none := by
  simp only [select, shape.mapped, if_pos empty]

theorem RingShape.select_eq_some (shape : RingShape buffers ring)
    (nonempty : buffers.kernel.head ≠ ring.tail) :
    buffers.select = some
      (ring.slots (buffers.kernel.head.toNat % IoUring.bufRingSize),
        { buffers with
          kernel := { buffers.kernel with
            head := buffers.kernel.head + 1
            selected := buffers.kernel.selected ++
              [ring.slots
                (buffers.kernel.head.toNat % IoUring.bufRingSize)] } }) := by
  simp only [select, shape.mapped, if_neg nonempty, slotAt_bufRingSize]

theorem RingShape.select_spec (shape : RingShape buffers ring)
    {bufferId : Nat} {next : ProvidedBuffers}
    (selected : buffers.select = some (bufferId, next)) :
    RingShape next ring ∧
      buffers.offered = bufferId :: next.offered ∧
      next.app = buffers.app ∧
      next.kernel.selected = buffers.kernel.selected ++ [bufferId] ∧
      next.kernel.strayReturn = buffers.kernel.strayReturn := by
  by_cases empty : buffers.kernel.head = ring.tail
  · rw [shape.select_eq_none empty] at selected
    cases selected
  · rw [shape.select_eq_some empty] at selected
    simp only [Option.some.injEq, Prod.mk.injEq] at selected
    obtain ⟨rfl, rfl⟩ := selected
    have distance := RingCounter.distance_succ_head empty
    have count := shape.count
    rw [shape.available_eq, distance] at count
    refine ⟨⟨shape.mapped, shape.slot_bound, ?_, ?_, shape.buffer_nonempty⟩,
      ?_, rfl, rfl, rfl⟩
    · intro other member
      rcases List.mem_append.mp member with earlier | new
      · exact shape.selected_bound other earlier
      · rw [List.mem_singleton.mp new]
        exact shape.slot_bound _
    · simp only [available, shape.mapped, List.length_append,
        List.length_singleton]
      omega
    · rw [shape.offered_eq, shape.available_eq, distance, window_pop]
      simp only [offered, available, shape.mapped, List.cons.injEq, true_and,
        UInt16.toNat_add, UInt16.toNat_one]
      exact (window_wrap _ bufRingSize_dvd_counter _ _).symm

theorem RingExact.select (exact : RingExact buffers)
    (shape : RingShape buffers ring) {bufferId : Nat}
    {next : ProvidedBuffers}
    (selected : buffers.select = some (bufferId, next)) : RingExact next := by
  obtain ⟨-, offered, -, history, -⟩ := shape.select_spec selected
  rw [RingExact, offered] at exact
  have rest := exact.tail
  refine ⟨rest.nodup, fun other => (rest.mem_iff other).trans ?_⟩
  rw [history, List.mem_append, List.mem_singleton, not_or, and_assoc]

/-! Returning. -/

theorem RingShape.returned_ring (shape : RingShape buffers ring)
    {bufferId : Nat} (bound : bufferId < IoUring.bufRingSize) :
    (buffers.returnBuf bufferId).app.bufRing = some
      { slots := Function.update ring.slots (writtenSlot ring bufferId)
          bufferId
        tail := ring.tail + 1 } := by
  have nonempty := shape.buffer_nonempty bufferId bound
  simp only [returnBuf, BufferRing.returnBuf, shape.mapped, addBuf,
    if_neg nonempty, RingMemory.add, RingMemory.advance,
    slotAt_bufRingSize, writtenSlot]
  rfl

theorem RingShape.room (shape : RingShape buffers ring) {bufferId : Nat}
    (selected : bufferId ∈ buffers.kernel.selected) :
    buffers.available < IoUring.bufRingSize := by
  have := shape.count
  have := List.length_pos_of_mem selected
  omega

theorem RingShape.returned_available (shape : RingShape buffers ring)
    {bufferId : Nat} (selected : bufferId ∈ buffers.kernel.selected) :
    (buffers.returnBuf bufferId).available = buffers.available + 1 := by
  have room := shape.room selected
  have ringAfter := shape.returned_ring
    (shape.selected_bound bufferId selected)
  have small : (ring.tail - buffers.kernel.head).toNat < 2 ^ 16 - 1 := by
    rw [← shape.available_eq]
    exact Nat.lt_trans room (by decide)
  rw [shape.available_eq]
  simp only [available, ringAfter]
  exact RingCounter.distance_succ_tail small

/-- After a return the window is the old one with the written slot changed,
followed by the slot the tail named. -/
theorem RingShape.returned_offered (shape : RingShape buffers ring)
    {bufferId : Nat} (selected : bufferId ∈ buffers.kernel.selected) :
    (buffers.returnBuf bufferId).offered =
      window (Function.update ring.slots (writtenSlot ring bufferId) bufferId)
          IoUring.bufRingSize buffers.kernel.head.toNat buffers.available ++
        [Function.update ring.slots (writtenSlot ring bufferId) bufferId
          (shownSlot ring)] := by
  have ringAfter := shape.returned_ring
    (shape.selected_bound bufferId selected)
  have shown : shownSlot ring =
      (buffers.kernel.head.toNat + buffers.available) %
        IoUring.bufRingSize := by
    rw [shape.available_eq]
    exact RingCounter.tail_slot buffers.kernel.head ring.tail
  simp only [offered, ringAfter, shape.returned_available selected]
  rw [window_push, shown]
  rfl

theorem RingShape.returnBuf (shape : RingShape buffers ring)
    {bufferId : Nat} (selected : bufferId ∈ buffers.kernel.selected) :
    RingShape (buffers.returnBuf bufferId)
      { slots := Function.update ring.slots (writtenSlot ring bufferId)
          bufferId
        tail := ring.tail + 1 } where
  mapped := shape.returned_ring (shape.selected_bound bufferId selected)
  slot_bound := fun slot => by
    dsimp only
    by_cases written : slot % IoUring.bufRingSize = writtenSlot ring bufferId
    · rw [written, Function.update_self]
      exact shape.selected_bound bufferId selected
    · rw [Function.update_of_ne written]
      exact shape.slot_bound slot
  selected_bound := fun other member =>
    shape.selected_bound other (List.mem_of_mem_erase member)
  count := by
    have := shape.count
    have := List.length_pos_of_mem selected
    rw [shape.returned_available selected]
    simp only [ProvidedBuffers.returnBuf, List.length_erase_of_mem selected]
    omega
  buffer_nonempty := shape.buffer_nonempty

theorem writtenSlot_eq_shownSlot_iff (ring : RingMemory) {bufferId : Nat}
    (bound : bufferId < IoUring.bufRingSize) :
    writtenSlot ring bufferId = shownSlot ring ↔ bufferId = 0 := by
  constructor
  · intro same
    exact offset_unique ring.tail.toNat bound (by decide)
      (by simpa [writtenSlot, shownSlot] using same)
  · rintro rfl
    rfl

theorem returned_free_iff
    (distinct : buffers.kernel.selected.Nodup) {bufferId : Nat}
    (bound : bufferId < IoUring.bufRingSize) (value : Nat) :
    (value < IoUring.bufRingSize ∧
      value ∉ (buffers.returnBuf bufferId).kernel.selected) ↔
      (value < IoUring.bufRingSize ∧ value ∉ buffers.kernel.selected) ∨
        value = bufferId := by
  simp only [ProvidedBuffers.returnBuf, distinct.mem_erase_iff]
  by_cases same : value = bufferId
  · subst same
    simp [bound]
  · simp [same]

theorem RingShape.returnLands_iff (shape : RingShape buffers ring)
    (bufferId : Nat) :
    buffers.ReturnLands bufferId ↔ bufferId = 0 ∨
      (¬ buffers.Offers (writtenSlot ring bufferId) ∧
        ring.slots (shownSlot ring) = bufferId) ∨
      (buffers.Offers (writtenSlot ring bufferId) ∧
        ring.slots (shownSlot ring) =
          ring.slots (writtenSlot ring bufferId)) := by
  simp [ReturnLands, shape.mapped]

theorem RingShape.shownSlot_outside (shape : RingShape buffers ring)
    {bufferId : Nat} (selected : bufferId ∈ buffers.kernel.selected) :
    ∀ offset < buffers.available,
      (buffers.kernel.head.toNat + offset) % IoUring.bufRingSize ≠
        shownSlot ring := by
  rw [shownSlot, RingCounter.tail_slot buffers.kernel.head,
    ← shape.available_eq]
  exact next_slot_outside (shape.room selected)

theorem RingExact.returnBuf_iff (exact : RingExact buffers)
    (shape : RingShape buffers ring)
    (distinct : buffers.kernel.selected.Nodup) {bufferId : Nat}
    (selected : bufferId ∈ buffers.kernel.selected) :
    RingExact (buffers.returnBuf bufferId) ↔
      buffers.ReturnLands bufferId := by
  have bound := shape.selected_bound bufferId selected
  have room := shape.room selected
  have grows := returned_free_iff distinct bound
  have notFree : ¬ (bufferId < IoUring.bufRingSize ∧
      bufferId ∉ buffers.kernel.selected) := fun free => free.2 selected
  rw [RingExact, shape.offered_eq] at exact
  rw [RingExact, shape.returned_offered selected, shape.returnLands_iff]
  by_cases zero : bufferId = 0
  · -- offset 0: the written slot is the one that becomes visible
    have same := (writtenSlot_eq_shownSlot_iff ring bound).mpr zero
    rw [same, window_update_outside _ _ (shape.shownSlot_outside selected),
      Function.update_self]
    simp only [zero, true_or, iff_true]
    subst zero
    exact exact.push notFree grows
  · have apart : shownSlot ring ≠ writtenSlot ring bufferId := fun same =>
      zero ((writtenSlot_eq_shownSlot_iff ring bound).mp same.symm)
    rw [Function.update_of_ne apart]
    rcases slot_inside_or_outside IoUring.bufRingSize
        buffers.kernel.head.toNat buffers.available
        (writtenSlot ring bufferId) with ⟨offset, inside, position⟩ | outside
    · have offers : buffers.Offers (writtenSlot ring bufferId) :=
        ⟨offset, inside, position⟩
      rw [← position, window_update_inside _ _ (Nat.le_of_lt room) inside,
        exact.set_append_iff notFree grows (by simpa using inside),
        window_getElem, position]
      simp [zero, offers]
    · have notOffers : ¬ buffers.Offers (writtenSlot ring bufferId) := by
        rintro ⟨offset, inside, position⟩
        exact outside offset inside position
      rw [window_update_outside _ _ outside,
        exact.append_iff notFree grows]
      simp [zero, notOffers]

theorem RingExact.selected_nodup (exact : RingExact buffers)
    (shape : RingShape buffers ring) : buffers.kernel.selected.Nodup := by
  have free : buffers.offered.toFinset =
      Finset.range IoUring.bufRingSize \ buffers.kernel.selected.toFinset := by
    ext bufferId
    simp [exact.mem_iff bufferId]
  have inside : buffers.kernel.selected.toFinset ⊆
      Finset.range IoUring.bufRingSize := by
    intro bufferId member
    rw [List.mem_toFinset] at member
    exact Finset.mem_range.mpr (shape.selected_bound bufferId member)
  have offeredCard : buffers.offered.toFinset.card = buffers.available := by
    rw [List.toFinset_card_of_nodup exact.nodup, shape.offered_eq,
      window_length]
  have counted := shape.count
  rw [free, Finset.card_sdiff_of_subset inside,
    Finset.card_range] at offeredCard
  have atMost := Finset.card_le_card inside
  rw [Finset.card_range] at atMost
  have full : buffers.kernel.selected.dedup.length =
      buffers.kernel.selected.length := by
    rw [← List.card_toFinset]
    omega
  rw [← (List.dedup_sublist _).eq_of_length full]
  exact List.nodup_dedup _

/-! Runs from a registered ring. -/

theorem freshBufList_getD {bufferId : Nat}
    (bound : bufferId < BufferRing.bufRingSize) :
    BufferRing.freshBufList.getD bufferId [] ≠ [] := by
  rw [BufferRing.freshBufList, List.getD_replicate _ bound]
  apply List.ne_nil_of_length_pos
  rw [List.length_replicate]
  decide

theorem Registered.shape (registered : Registered buffers) :
    ∃ ring, RingShape buffers ring ∧ RingExact buffers ∧
      ring.tail = UInt16.ofNat IoUring.bufRingSize ∧
      ∀ slot, slot < IoUring.bufRingSize → ring.slots slot = slot := by
  obtain ⟨kernel, result, success⟩ := registered
  have nonneg : 0 ≤ result := by
    by_contra negative
    simp only [BufferRing.registerBufRing, setupBufRing,
      if_pos (not_le.mp negative), Prod.mk.injEq] at success
    omega
  obtain ⟨ring, first, tail, slots⟩ := registerBufRing_first nonneg
  rw [first] at success
  simp only [Prod.mk.injEq, true_and] at success
  cases buffers with
  | mk app kernelGroup =>
      dsimp only at kernel success
      subst kernel
      subst success
      have available : ProvidedBuffers.available
          { app := { bufList := BufferRing.freshBufList
                     bufRing := some ring
                     mappings := 1 }
            kernel := {} } = IoUring.bufRingSize := by
        simp only [ProvidedBuffers.available, tail]
        decide
      refine ⟨ring, ⟨rfl, ?_, ?_, ?_, ?_⟩, ?_, tail, slots⟩
      · intro slot
        have bound : slot % IoUring.bufRingSize < IoUring.bufRingSize :=
          Nat.mod_lt _ (by decide)
        rw [slots _ bound]
        exact bound
      · intro bufferId member
        cases member
      · rw [available]
        rfl
      · intro bufferId bound
        exact freshBufList_getD bound
      · have listed : ProvidedBuffers.offered
            { app := { bufList := BufferRing.freshBufList
                       bufRing := some ring
                       mappings := 1 }
              kernel := {} } = List.range IoUring.bufRingSize := by
          simp only [ProvidedBuffers.offered, available, window,
            UInt16.toNat_zero, Nat.zero_add]
          conv_rhs => rw [← List.map_id (List.range IoUring.bufRingSize)]
          apply List.map_congr_left
          intro offset member
          have bound := List.mem_range.mp member
          rw [Nat.mod_eq_of_lt bound, slots offset bound, id]
        rw [RingExact, listed]
        exact ⟨List.nodup_range, fun bufferId => by simp⟩

theorem ringShape_of_reachable (reachable : ringSystem.Reachable buffers) :
    ∃ ring, RingShape buffers ring := by
  refine TransitionSystem.Invariant.of_reachable
    (fun state => ∃ ring, RingShape state ring) ?_ ?_ buffers reachable
  · intro start registered
    obtain ⟨ring, shape, -⟩ := Registered.shape registered
    exact ⟨ring, shape⟩
  · intro state label next _ shaped stepped
    obtain ⟨ring, shape⟩ := shaped
    rcases ringSystem_step_cases stepped with
      ⟨rfl, bufferId, selected⟩ | ⟨bufferId, rfl, selected, rfl⟩
    · exact ⟨ring, (shape.select_spec selected).1⟩
    · exact ⟨_, shape.returnBuf selected⟩

/-- A run keeps the ring exact in every state it passes through just when
every id it returns lands well. -/
theorem ring_exact_iff_returns_land {first last : ProvidedBuffers}
    {history : List (ProvidedBuffers × RingLabel)}
    (start : ringSystem.initial first)
    (run : ringSystem.Execution first history last) :
    (∀ state ∈ TransitionSystem.visited history last, RingExact state) ↔
      ∀ taken ∈ history, taken.1.StepLands taken.2 := by
  refine run.good_iff_guarded ?_ ?_ start
  · intro state registered
    obtain ⟨-, -, exact, -⟩ := Registered.shape registered
    exact exact
  · intro state label next reachable exact stepped
    obtain ⟨ring, shape⟩ := ringShape_of_reachable reachable
    rcases ringSystem_step_cases stepped with
      ⟨rfl, bufferId, selected⟩ | ⟨bufferId, rfl, selected, rfl⟩
    · exact iff_of_true (exact.select shape selected) trivial
    · exact exact.returnBuf_iff shape (exact.selected_nodup shape) selected

def registeredBuffers : ProvidedBuffers where
  app := (BufferRing.registerBufRing {} none 0).2

theorem registeredBuffers_registered : Registered registeredBuffers := by
  obtain ⟨ring, first, -⟩ := registerBufRing_first (le_refl 0)
  exact ⟨rfl, 0, by rw [registeredBuffers, first]⟩

theorem Registered.select_two (registered : Registered buffers) :
    ∃ ring first second,
      buffers.select = some (0, first) ∧ first.select = some (1, second) ∧
      RingShape second ring ∧ RingExact second ∧
      second.kernel.selected = [0, 1] ∧
      ring.tail = UInt16.ofNat IoUring.bufRingSize ∧
      ∀ slot, slot < IoUring.bufRingSize → ring.slots slot = slot := by
  obtain ⟨ring, shape, exact, tail, slots⟩ := registered.shape
  have head : buffers.kernel = {} := registered.1
  have firstSelected := shape.select_eq_some (by
    rw [head, tail]
    decide)
  have firstShape := (shape.select_spec firstSelected).1
  have secondSelected := firstShape.select_eq_some (by
    dsimp only
    rw [head, tail]
    exact (by decide : (0 : UInt16) + 1 ≠ UInt16.ofNat IoUring.bufRingSize))
  have firstId : ring.slots
      (buffers.kernel.head.toNat % IoUring.bufRingSize) = 0 := by
    rw [head]
    exact slots 0 (by decide)
  have secondId : ring.slots
      ((buffers.kernel.head + 1).toNat % IoUring.bufRingSize) = 1 := by
    rw [head]
    exact slots 1 (by decide)
  rw [firstId] at firstSelected secondSelected firstShape
  dsimp only at secondSelected
  rw [secondId] at secondSelected
  refine ⟨ring, _, _, firstSelected, secondSelected,
    (firstShape.select_spec secondSelected).1,
    (exact.select shape firstSelected).select firstShape secondSelected,
    ?_, tail, slots⟩
  rw [head]
  rfl

/-- Returning the second buffer first makes the ring offer the first one,
which is still selected. -/
theorem out_of_order_return_not_exact :
    ∃ first last history, ringSystem.initial first ∧
      ringSystem.Execution first history last ∧
      history.map Prod.snd = [.select, .select, .giveBack 1] ∧
      ¬ RingExact last := by
  obtain ⟨ring, one, two, selectOne, selectTwo, shape, exact, selected, tail,
    slots⟩ := registeredBuffers_registered.select_two
  have member : 1 ∈ two.kernel.selected := by
    rw [selected]
    decide
  have run : ringSystem.Execution registeredBuffers
      ((([] ++ [(registeredBuffers, .select)]) ++ [(one, .select)]) ++
        [(two, .giveBack 1)]) (two.returnBuf 1) := by
    refine ((TransitionSystem.Execution.refl.snoc ?_).snoc ?_).snoc ?_
    · exact ringSystem_select selectOne
    · exact ringSystem_select selectTwo
    · exact ringSystem_giveBack member
  refine ⟨_, _, _, registeredBuffers_registered, run, rfl, ?_⟩
  rw [exact.returnBuf_iff shape (exact.selected_nodup shape) member]
  intro lands
  have shown : ring.slots (shownSlot ring) = 0 := by
    rw [shownSlot, tail]
    exact slots 0 (by decide)
  have written : ring.slots (writtenSlot ring 1) = 1 := by
    rw [writtenSlot, tail]
    exact slots 1 (by decide)
  have := lands ring shape.mapped
  rw [shown, written] at this
  omega

/-- Returning the only selected buffer, which has id 0, keeps the ring
exact. -/
theorem select_then_return_exact :
    ∃ last history, ringSystem.Execution registeredBuffers history last ∧
      history.map Prod.snd = [.select, .giveBack 0] ∧
      ∀ state ∈ TransitionSystem.visited history last, RingExact state := by
  obtain ⟨-, one, -, selectOne, -⟩ := registeredBuffers_registered.select_two
  obtain ⟨ring, shape, -⟩ := registeredBuffers_registered.shape
  have member : 0 ∈ one.kernel.selected := by
    obtain ⟨-, -, -, selected, -⟩ := shape.select_spec selectOne
    rw [selected]
    simp
  have run : ringSystem.Execution registeredBuffers
      (([] ++ [(registeredBuffers, .select)]) ++ [(one, .giveBack 0)])
      (one.returnBuf 0) := by
    refine (TransitionSystem.Execution.refl.snoc ?_).snoc ?_
    · exact ringSystem_select selectOne
    · exact ringSystem_giveBack member
  refine ⟨_, _, run, rfl, ?_⟩
  refine (ring_exact_iff_returns_land registeredBuffers_registered run).mpr ?_
  intro taken inHistory
  simp only [List.nil_append, List.mem_append, List.mem_singleton]
    at inHistory
  rcases inHistory with rfl | rfl
  · trivial
  · exact fun ring _ => .inl rfl

end ProvidedBuffers

end CoUring
