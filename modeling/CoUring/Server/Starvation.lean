import Mathlib.Algebra.Order.BigOperators.Group.List
import Mathlib.Algebra.Order.Group.Nat
import CoUring.Server.BufferConservation

namespace CoUring

open Foundation Server

variable {server before after : Server} {worker : WorkerId} {cqe : Cqe}
  {label : Label} {contents next : Worker}

/-! What a worker can receive, when it gives no buffer back. -/

/-- All completions the kernel posted to a worker, in order. -/
def Worker.completions (contents : Worker) : List Cqe :=
  contents.dispatched ++ contents.ioUring.cq

def Cqe.isData (cqe : Cqe) : Bool :=
  match cqe.userData with
  | some (.recvAwaiter _ _) => 0 < cqe.res
  | _ => false

def Worker.received (contents : Worker) : List Nat :=
  (contents.completions.filter Cqe.isData).map fun cqe => cqe.res.toNat

theorem Cqe.isData_iff : cqe.isData = true ↔ cqe.IsRecv ∧ 0 < cqe.res := by
  obtain ⟨userData, res, flags⟩ := cqe
  cases userData with
  | none => simp [isData, IsRecv]
  | some address => cases address <;> simp [isData, IsRecv]

inductive CompletionsStep (before after : Worker) : Prop
  | same (completions : after.completions = before.completions)
  | posted (cqe : Cqe)
      (completions : after.completions = before.completions ++ [cqe])
      (fits : cqe.isData = true → cqe.res ≤ IoUring.bufSize)
      (carries : cqe.isData = true → cqe.bufferId? ≠ none)

theorem Cqe.isData_eq_false {address : SqeAddr} {operation : Operation}
    (fits : address.Fits operation) (other : operation ≠ .recv) (res : Int)
    (flags : Nat) : Cqe.isData ⟨some address, res, flags⟩ = false := by
  cases fits with
  | accept => rfl
  | recv => exact absurd rfl other
  | send => rfl

theorem completionsStep_complete {index : Nat} {result : KernelResult}
    (requests : contents.ioUring.Kept)
    (completed : contents.complete index result = some next) :
    CompletionsStep contents next := by
  obtain ⟨request, found, answered⟩ := Worker.complete_cases completed
  have fits := requests.fits request (.inr (List.mem_of_getElem? found))
  have appended : ∀ cqe : Cqe, contents.dispatched ++
      (contents.ioUring.cq ++ [cqe]) = contents.completions ++ [cqe] :=
    fun _ => (List.append_assoc _ _ _).symm
  rcases answered with ⟨res, more, operation, rfl⟩ |
    ⟨cqe, buffers, operation, received, rfl⟩ | ⟨buf, res, operation, rfl⟩
  · have noData := Cqe.isData_eq_false fits (by simp [operation]) res
      (moreFlags more)
    refine .posted _ (appended _) (fun isData => ?_) fun isData => ?_
    · cases isData.symm.trans noData
    · cases isData.symm.trans noData
  · refine .posted cqe (appended cqe) (fun isData => ?_) fun isData => ?_
    · rcases ProvidedBuffers.completeRecv_cases received with
        ⟨bytes, bufferId, selected, -, bound, -, rfl, -⟩ |
        ⟨bufferId, -, rfl⟩ | ⟨res, ended, -, rfl, -⟩
      · exact Int.ofNat_le.mpr bound
      · exact Int.natCast_nonneg _
      · exact Int.le_trans ended (Int.natCast_nonneg _)
    · have positive := (Cqe.isData_iff.mp isData).2
      rcases ProvidedBuffers.completeRecv_cases received with
        ⟨bytes, bufferId, selected, -, -, -, rfl, -⟩ |
        ⟨bufferId, -, rfl⟩ | ⟨res, ended, -, rfl, -⟩
      · rw [Cqe.bufferId?_bufferFlags]
        exact Option.some_ne_none _
      · exact absurd positive (Int.lt_irrefl 0)
      · exact absurd positive (not_lt.mpr ended)
  · have noData := Cqe.isData_eq_false fits (by simp [operation]) res 0
    refine .posted _ (appended _) (fun isData => ?_) fun isData => ?_
    · cases isData.symm.trans noData
    · cases isData.symm.trans noData

theorem completionsStep_start (fresh : server.workers worker = {})
    (outcome : InitOutcome) :
    CompletionsStep (server.workers worker)
      ((server.startWorker worker outcome).workers worker) := by
  refine .same ?_
  rw [fresh]
  have started := startWorker_started fresh outcome
  generalize (server.startWorker worker outcome).workers worker = contents
    at started
  cases started with
  | failed fails ring listening buffers dispatched =>
      rw [Worker.completions, ring, dispatched]
      rfl
  | ready succeeds file ring listening buffers dispatched =>
      rw [Worker.completions, ring, dispatched]
      rfl

theorem completionsStep_of_step (reachable : serverSystem.Reachable before)
    (step : before.step label = some after) (worker : WorkerId) :
    CompletionsStep (before.workers worker) (after.workers worker) := by
  have matched := ringsMatch_of_reachable reachable
  have same : ∀ other, CompletionsStep (before.workers other)
      (before.workers other) := fun _ => .same rfl
  have changed : ∀ changed contents,
      CompletionsStep (before.workers changed) contents →
      ∀ other, CompletionsStep (before.workers other)
        ((before.setWorker changed contents).workers other) :=
    fun changed contents here => setWorker_forall changed contents
      (fun other contents => CompletionsStep (before.workers other) contents)
      here same
  cases (step_cases step).2 with
  | @start started outcome unstarted =>
      refine workers_forall (fun other contents =>
        CompletionsStep (before.workers other) contents)
        (fun _ => startWorker_other outcome) ?_ same worker
      exact completionsStep_start
        (matched.unstarted started (not_not.mpr unstarted)) outcome
  | submit | submitFails | wake | endBatch =>
      refine changed _ _ ?_ worker
      exact .same rfl
  | @dispatch dispatched generated cqe rest dispatching next =>
      obtain ⟨cq, taken⟩ := matched.dispatch_completions
        (started_of_phase dispatching Phase.noConfusion) next generated worker
      refine .same ?_
      rw [Worker.completions, cq, taken]
      by_cases here : worker = dispatched
      · subst here
        rw [setWorker_self, Worker.completions, next]
        exact List.append_assoc _ _ _
      · rw [setWorker_other _ here]
        rfl
  | complete completed =>
      exact changed _ _
        (completionsStep_complete (matched.kept _) completed) worker
  | cleanup swept => exact .same rfl
  | tick => exact .same rfl

/-- Every receive that brought data was into a buffer, and fits there. -/
def Worker.DataFits (contents : Worker) : Prop :=
  ∀ cqe ∈ contents.completions, cqe.isData = true →
    cqe.res ≤ IoUring.bufSize ∧ cqe.bufferId? ≠ none

theorem CompletionsStep.dataFits (stepped : CompletionsStep contents next)
    (fits : contents.DataFits) : next.DataFits := by
  cases stepped with
  | same completions =>
      rw [Worker.DataFits, completions]
      exact fits
  | posted cqe completions bound carries =>
      rw [Worker.DataFits, completions]
      refine List.forall_mem_append.mpr ⟨fits, ?_⟩
      exact List.forall_mem_singleton.mpr fun isData =>
        ⟨bound isData, carries isData⟩

theorem dataFits_of_reachable (reachable : serverSystem.Reachable server)
    (worker : WorkerId) : (server.workers worker).DataFits := by
  refine TransitionSystem.Invariant.of_reachable
    (fun server => ∀ worker, (server.workers worker).DataFits) ?_ ?_ _
    reachable worker
  · intro server start worker cqe member
    cases start
    cases member
  · intro before label after reached fits step worker
    exact (completionsStep_of_step reached step worker).dataFits (fits worker)

/-- The buffers that completions brought, with data or without. -/
def Worker.usedBuffers (contents : Worker) : List Nat :=
  contents.completions.filterMap Cqe.bufferId?

/-- What a worker receives in its life: each buffer is used once at most, each
receive with data uses one, and once all are used a receive gets no data and no
buffer. -/
structure Worker.ReceivesBounded (contents : Worker) : Prop where
  once : contents.usedBuffers.Nodup
  used : contents.usedBuffers.length ≤ IoUring.bufRingSize
  count : contents.received.length ≤ contents.usedBuffers.length
  size : ∀ size ∈ contents.received, 0 < size ∧ size ≤ IoUring.bufSize
  total : contents.received.sum ≤ IoUring.bufRingSize * IoUring.bufSize
  starved : contents.usedBuffers.length = IoUring.bufRingSize →
    ∀ address result cqe left,
      contents.buffers.completeRecv address result = some (cqe, left) →
      cqe.res ≤ 0 ∧ cqe.bufferId? = none

theorem sum_le_of_bounded {sizes : List Nat} {bound limit : Nat}
    (each : ∀ size ∈ sizes, size ≤ limit) (count : sizes.length ≤ bound) :
    sizes.sum ≤ bound * limit :=
  (List.sum_le_card_nsmul sizes limit each).trans
    (Nat.mul_le_mul_right limit count)

theorem Worker.DataFits.received_length (fits : contents.DataFits) :
    contents.received.length ≤ contents.usedBuffers.length := by
  rw [received, usedBuffers, List.length_map, ← List.countP_eq_length_filter,
    List.length_filterMap_eq_countP]
  exact List.countP_mono_left fun cqe member isData =>
    Option.isSome_iff_ne_none.mpr (fits cqe member isData).2

theorem Worker.DataFits.received_size (fits : contents.DataFits) :
    ∀ size ∈ contents.received, 0 < size ∧ size ≤ IoUring.bufSize := by
  intro size member
  obtain ⟨cqe, isReceived, rfl⟩ := List.mem_map.mp member
  obtain ⟨isPosted, isData⟩ := List.mem_filter.mp isReceived
  have positive := (Cqe.isData_iff.mp isData).2
  have bound := (fits cqe isPosted isData).1
  omega

/-- Without a buffer to select, the kernel answers a receive with an error or
the end of the stream. -/
theorem completeRecv_of_select_none {buffers left : ProvidedBuffers}
    (empty : buffers.select = none) {address : SqeAddr} {result : KernelResult}
    (completed : buffers.completeRecv address result = some (cqe, left)) :
    cqe.res ≤ 0 ∧ cqe.bufferId? = none := by
  rcases ProvidedBuffers.completeRecv_cases completed with
    ⟨bytes, bufferId, selected, -, -, taken, -⟩ | ⟨bufferId, taken, -⟩ |
      ⟨res, ended, -, rfl, -⟩
  · cases empty.symm.trans taken
  · cases empty.symm.trans taken
  · exact ⟨ended, Cqe.bufferId?_zero _ _⟩

theorem ProvidedBuffers.RingShape.select_none_of_full
    {buffers : ProvidedBuffers} {ring : RingMemory} (shape : ProvidedBuffers.RingShape buffers ring)
    (full : buffers.kernel.selected.length = IoUring.bufRingSize) :
    buffers.select = none := by
  have count := shape.count
  have used : buffers.available = 0 := by omega
  rw [shape.available_eq] at used
  have none : ring.tail - buffers.kernel.head = 0 := UInt16.toNat_inj.mp used
  rw [UInt16.sub_eq_iff_eq_add, UInt16.zero_add] at none
  exact shape.select_eq_none none.symm

/-- No worker ever receives into a buffer twice: a full ring of receives, and
from then on every receive is refused. -/
theorem receives_bounded (reachable : serverSystem.Reachable server)
    (worker : WorkerId) : (server.workers worker).ReceivesBounded := by
  have kept := buffersKept_of_reachable reachable worker
  have fits := dataFits_of_reachable reachable worker
  generalize server.workers worker = contents at kept fits
  have received := fits.received_length
  have sizes := fits.received_size
  have selected : contents.buffers.kernel.selected = contents.usedBuffers :=
    kept.selected
  suffices used : contents.usedBuffers.Nodup ∧
      contents.usedBuffers.length ≤ IoUring.bufRingSize ∧
      (contents.usedBuffers.length = IoUring.bufRingSize →
        contents.buffers.select = none) by
    obtain ⟨once, within, empty⟩ := used
    have total := sum_le_of_bounded
      (fun size member => (sizes size member).2) (received.trans within)
    refine ⟨once, within, received, sizes, total, ?_⟩
    intro full address result cqe left
    exact completeRecv_of_select_none (empty full)
  by_cases listens : contents.listening = none
  · obtain ⟨ring, dispatched⟩ := kept.unbound listens
    have none : contents.usedBuffers = [] := by
      rw [Worker.usedBuffers, Worker.completions, ring, dispatched]
      rfl
    rw [none]
    refine ⟨.nil, Nat.zero_le _, fun full => ?_⟩
    cases full
  · obtain ⟨ring, shape, exact⟩ := kept.bound listens
    have count := shape.count
    rw [← selected]
    exact ⟨exact.selected_nodup shape, by omega,
      shape.select_none_of_full⟩

/-- One buffer is used, by a receive of one byte. -/
theorem one_byte_received_bounded :
    ∃ last bufferId, TransitionSystem.runLabels Server.step {}
        oneReceived = some last ∧
      (last.workers 0).usedBuffers = [bufferId] ∧
      (last.workers 0).received = [1] ∧
      (last.workers 0).ReceivesBounded := by
  obtain ⟨last, bufferId, run, dispatched, none⟩ := one_received
  refine ⟨last, bufferId, run, ?_, ?_, receives_bounded
    ((TransitionSystem.Execution.runLabels run).reachable rfl) 0⟩
  · simp [Worker.usedBuffers, Worker.completions, dispatched, none]
  · simp [Worker.received, Worker.completions, dispatched, none, Cqe.isData]

end CoUring
