import CoUring.Server.EventLoop
import CoUring.Server.Starvation

namespace CoUring

open Foundation Server

/-! What the provided buffers contain: a receive uses the buffer after the one
of the receive before it, and what it wrote stays there. -/

namespace BufferRing

variable {buffers : BufferRing} {chunks : List (List UInt8)}

def freshBuf : List UInt8 := List.replicate bufSize 0

def holding (bytes : List UInt8) : List UInt8 :=
  bytes ++ freshBuf.drop bytes.length

/-- Fresh buffers after one receive into each of the first ones. -/
def memoryAfter (chunks : List (List UInt8)) : List (List UInt8) :=
  chunks.map holding ++ freshBufList.drop chunks.length

theorem holding_take (bytes : List UInt8) :
    (holding bytes).take bytes.length = bytes :=
  List.take_left

theorem fill_nil (bufferId : Nat) : buffers.fill bufferId [] = buffers := by
  have same : buffers.bufList.set bufferId
      (buffers.bufList.getD bufferId []) = buffers.bufList := by
    apply List.ext_getElem?
    intro other
    rw [List.getElem?_set]
    split
    next here =>
      subst here
      split
      next inside => simp [inside]
      next outside =>
        exact (List.getElem?_eq_none (not_lt.mp outside)).symm
    · rfl
  simp only [fill, List.length_nil, List.drop_zero, List.nil_append, same]

theorem drop_freshBufList {count : Nat} (room : count < bufRingSize) :
    freshBufList.drop count = freshBuf :: freshBufList.drop (count + 1) := by
  have left : bufRingSize - count = bufRingSize - (count + 1) + 1 := by omega
  simp only [freshBufList, List.drop_replicate, left, List.replicate_succ,
    freshBuf]

theorem fill_memoryAfter (room : chunks.length < bufRingSize)
    (memory : buffers.bufList = memoryAfter chunks) (bytes : List UInt8) :
    (buffers.fill chunks.length bytes).bufList =
      memoryAfter (chunks ++ [bytes]) := by
  have position : chunks.length = (chunks.map holding).length :=
    (List.length_map _).symm
  have next : (memoryAfter chunks).getD chunks.length [] = freshBuf := by
    rw [memoryAfter, drop_freshBufList room, List.getD_eq_getElem?_getD,
      List.getElem?_append_right position.ge, ← position]
    simp
  rw [fill, memory, next, memoryAfter, drop_freshBufList room,
    List.set_append_right _ _ position.ge, ← position, Nat.sub_self]
  simp [memoryAfter, holding]

theorem memoryAfter_getD {index : Nat} (used : index < chunks.length) :
    (memoryAfter chunks).getD index [] = holding chunks[index] := by
  rw [memoryAfter, List.getD_append _ _ _ _ (by simpa using used),
    List.getD_eq_getElem _ _ (by simpa using used), List.getElem_map]

end BufferRing

/-- What a result writes to the front of a buffer, if the kernel selects one
for it. -/
def KernelResult.chunk? : KernelResult → Option (List UInt8)
  | .received bytes => some bytes
  | .ended true => some []
  | _ => none

/-- The buffer that comes with a completion and how much of it was written. -/
def Cqe.slice? (cqe : Cqe) : Option (Nat × Nat) :=
  cqe.bufferId?.map fun bufferId => (bufferId, cqe.res.toNat)

namespace ProvidedBuffers

variable {buffers left : ProvidedBuffers} {chunks : List (List UInt8)}

/-- The ring still is as it was registered, and so many of its buffers are
used. -/
structure FilledInOrder (buffers : ProvidedBuffers)
    (chunks : List (List UInt8)) : Prop where
  ring : ∃ ring, buffers.app.bufRing = some ring ∧
    ring.tail = UInt16.ofNat IoUring.bufRingSize ∧
    ∀ slot, slot < IoUring.bufRingSize → ring.slots slot = slot
  head : buffers.kernel.head = UInt16.ofNat chunks.length
  count : chunks.length ≤ IoUring.bufRingSize
  memory : buffers.app.bufList = BufferRing.memoryAfter chunks

namespace FilledInOrder

theorem registered (registered : Registered buffers) :
    FilledInOrder buffers [] := by
  obtain ⟨ring, shape, -, tail, slots⟩ := registered.shape
  obtain ⟨kernel, result, success⟩ := registered
  have nonneg : 0 ≤ result :=
    (registerBufRing_eq_zero.mp (congrArg Prod.fst success)).2
  obtain ⟨ring', first, -⟩ := registerBufRing_first nonneg
  refine ⟨⟨ring, shape.mapped, tail, slots⟩, ?_, Nat.zero_le _, ?_⟩
  · rw [kernel]
    rfl
  · have app := congrArg Prod.snd (first.symm.trans success)
    exact (congrArg BufferRing.bufList app).symm

theorem borrowBuf (filled : FilledInOrder buffers chunks) (bufferId : Nat) :
    FilledInOrder (buffers.borrowBuf bufferId).1 chunks where
  ring := filled.ring
  head := filled.head
  count := filled.count
  memory := filled.memory

theorem select (filled : FilledInOrder buffers chunks) {bufferId : Nat}
    (selected : buffers.select = some (bufferId, left)) :
    bufferId = chunks.length ∧
      ∀ bytes, FilledInOrder (left.fill bufferId bytes)
        (chunks ++ [bytes]) := by
  obtain ⟨ring, mapped, tail, slots⟩ := filled.ring
  have count := filled.count
  have inRange : chunks.length < 2 ^ 16 := by
    simp only [IoUring.bufRingSize] at count
    omega
  have used : buffers.kernel.head.toNat = chunks.length := by
    rw [filled.head]
    exact UInt16.toNat_ofNat_of_lt' inRange
  simp only [ProvidedBuffers.select, mapped,
    Option.ite_none_left_eq_some, Option.some.injEq, Prod.mk.injEq]
    at selected
  obtain ⟨nonempty, rfl, rfl⟩ := selected
  have room : chunks.length < IoUring.bufRingSize := by
    refine Nat.lt_of_le_of_ne count fun full => nonempty ?_
    rw [filled.head, tail, full]
  have position : ring.slots (RingMemory.slotAt buffers.kernel.head.toNat
      (ioUringBufRingMask IoUring.bufRingSize)) = chunks.length := by
    rw [slotAt_bufRingSize, used, Nat.mod_eq_of_lt room]
    exact slots _ room
  rw [position]
  refine ⟨rfl, fun bytes => ⟨⟨ring, mapped, tail, slots⟩, ?_, ?_, ?_⟩⟩
  · change buffers.kernel.head + 1 = _
    rw [filled.head, List.length_append, List.length_singleton,
      UInt16.ofNat_add]
    rfl
  · rw [List.length_append, List.length_singleton]
    exact room
  · exact BufferRing.fill_memoryAfter room filled.memory bytes

theorem completeRecv (filled : FilledInOrder buffers chunks)
    {address : SqeAddr} {result : KernelResult} {cqe : Cqe}
    (completed : buffers.completeRecv address result = some (cqe, left)) :
    FilledInOrder left (chunks ++ result.chunk?.toList) ∧
      cqe.slice? = result.chunk?.map fun bytes =>
        (chunks.length, bytes.length) := by
  cases result with
  | accepted res more => cases completed
  | sent res => cases completed
  | received bytes =>
      simp only [ProvidedBuffers.completeRecv, Option.ite_none_right_eq_some,
        Option.map_eq_some_iff, Prod.mk.injEq] at completed
      obtain ⟨-, ⟨bufferId, selected⟩, select, rfl, rfl⟩ := completed
      obtain ⟨rfl, after⟩ := filled.select select
      exact ⟨after bytes, by simp [Cqe.slice?, KernelResult.chunk?]⟩
  | ended selects =>
      cases selects with
      | false =>
          cases completed
          exact ⟨by simpa [KernelResult.chunk?] using filled,
            by simp [Cqe.slice?, KernelResult.chunk?]⟩
      | true =>
          simp only [ProvidedBuffers.completeRecv, Option.map_eq_some_iff,
            Prod.mk.injEq] at completed
          obtain ⟨⟨bufferId, selected⟩, select, rfl, rfl⟩ := completed
          obtain ⟨rfl, after⟩ := filled.select select
          refine ⟨?_, by simp [Cqe.slice?, KernelResult.chunk?]⟩
          have nothing := after []
          rwa [fill, BufferRing.fill_nil] at nothing
  | recvFailed res =>
      simp only [ProvidedBuffers.completeRecv, Option.ite_none_right_eq_some,
        Option.some.injEq, Prod.mk.injEq] at completed
      obtain ⟨-, rfl, rfl⟩ := completed
      exact ⟨by simpa [KernelResult.chunk?] using filled,
        by simp [Cqe.slice?, KernelResult.chunk?]⟩

end FilledInOrder

end ProvidedBuffers

variable {server before after : Server} {worker : WorkerId} {label : Label}
  {contents next : Worker} {chunks : List (List UInt8)}

def Label.chunk? (worker : WorkerId) : Label → Option (List UInt8)
  | .complete other _ result =>
      if other = worker then result.chunk? else none
  | _ => none

def chunksOf (worker : WorkerId) (history : List (Server × Label)) :
    List (List UInt8) :=
  history.filterMap fun taken => taken.2.chunk? worker

def Worker.readBack (contents : Worker) : List (List UInt8) :=
  (contents.completions.filter fun cqe => cqe.bufferId?.isSome).map
    fun cqe => RecvCompletion.bytes
      ⟨cqe.res, cqe.flags, contents.buffers.app.bufList⟩

/-- All that was received is still there: the completions name the buffers in
order, and nothing but the data they stand for was written to these. -/
structure Worker.Retains (contents : Worker) (chunks : List (List UInt8)) :
    Prop where
  slices : contents.completions.filterMap Cqe.slice? =
    chunks.mapIdx fun index bytes => (index, bytes.length)
  memory : contents.listening ≠ none →
    contents.buffers.app.bufList = BufferRing.memoryAfter chunks
  readBack : contents.readBack = chunks

namespace Worker

/-- A worker that does not listen receives nothing; one that does fills its
buffers in order. -/
inductive FillsInOrder (contents : Worker) (chunks : List (List UInt8)) :
    Prop
  | unbound (unbound : contents.listening = none)
      (none : contents.completions = []) (nothing : chunks = [])
  | bound (filled : contents.buffers.FilledInOrder chunks)
      (slices : contents.completions.filterMap Cqe.slice? =
        chunks.mapIdx fun index bytes => (index, bytes.length))

theorem readBack_eq_slices :
    contents.readBack = (contents.completions.filterMap Cqe.slice?).map
      fun slice => (contents.buffers.app.bufList.getD slice.1 []).take
        slice.2 := by
  rw [readBack, List.map_filterMap, ← List.filterMap_eq_map',
    List.filterMap_filter]
  apply congrArg (fun read => List.filterMap read contents.completions)
  funext cqe
  unfold Cqe.slice? Cqe.bufferId?
  split
  · rfl
  · rfl

theorem readBack_of_memory
    (slices : contents.completions.filterMap Cqe.slice? =
      chunks.mapIdx fun index bytes => (index, bytes.length))
    (memory : contents.buffers.app.bufList =
      BufferRing.memoryAfter chunks) : contents.readBack = chunks := by
  rw [readBack_eq_slices, slices, memory]
  apply List.ext_getElem
  · simp
  · intro index _ used
    rw [List.getElem_map, List.getElem_mapIdx,
      BufferRing.memoryAfter_getD used, BufferRing.holding_take]

theorem FillsInOrder.retains (fills : contents.FillsInOrder chunks) :
    contents.Retains chunks := by
  cases fills with
  | unbound unbound none nothing =>
      subst nothing
      refine ⟨?_, fun listens => absurd unbound listens, ?_⟩
      · rw [none]
        rfl
      · rw [Worker.readBack, none]
        rfl
  | bound filled slices =>
      exact ⟨slices, fun _ => filled.memory,
        readBack_of_memory slices filled.memory⟩

theorem FillsInOrder.congr (fills : contents.FillsInOrder chunks)
    (listening : next.listening = contents.listening)
    (completions : next.completions = contents.completions)
    (buffers : next.buffers = contents.buffers ∨
      ∃ bufferId, next.buffers = (contents.buffers.borrowBuf bufferId).1) :
    next.FillsInOrder chunks := by
  cases fills with
  | unbound unbound none nothing =>
      exact .unbound (listening.trans unbound) (completions.trans none) nothing
  | bound filled slices =>
      refine .bound ?_ (completions ▸ slices)
      rcases buffers with same | ⟨bufferId, borrowed⟩
      · rw [same]
        exact filled
      · rw [borrowed]
        exact filled.borrowBuf bufferId

theorem FillsInOrder.posted {buffers : ProvidedBuffers}
    {inflight : List Request} {cqe : Cqe} {chunk : Option (List UInt8)}
    (slices : contents.completions.filterMap Cqe.slice? =
      chunks.mapIdx fun index bytes => (index, bytes.length))
    (filled : buffers.FilledInOrder (chunks ++ chunk.toList))
    (slice : cqe.slice? =
      chunk.map fun bytes => (chunks.length, bytes.length)) :
    FillsInOrder { contents with
      buffers := buffers
      ioUring := { contents.ioUring with
        inflight := inflight
        cq := contents.ioUring.cq ++ [cqe] } } (chunks ++ chunk.toList) := by
  refine .bound filled ?_
  have appended : contents.dispatched ++ (contents.ioUring.cq ++ [cqe]) =
      contents.completions ++ [cqe] := (List.append_assoc _ _ _).symm
  rw [completions, appended, List.filterMap_append, slices]
  cases chunk with
  | none =>
      rw [Option.map_none] at slice
      simp [slice]
  | some bytes =>
      rw [Option.map_some] at slice
      simp [slice]

theorem complete_unread {index : Nat} {result : KernelResult}
    {request : Request}
    (found : contents.ioUring.inflight[index]? = some request)
    (other : request.operation ≠ .recv)
    (completed : contents.complete index result = some next) :
    result.chunk? = none := by
  rw [complete, found, Option.bind_some] at completed
  cases operation : request.operation with
  | recv => exact absurd operation other
  | multishotAccept =>
      rw [operation] at completed
      cases result with
      | accepted res more => rfl
      | received bytes => cases completed
      | ended selects => cases completed
      | recvFailed res => rfl
      | sent res => rfl
  | send buf =>
      rw [operation] at completed
      cases result with
      | accepted res more => rfl
      | received bytes => cases completed
      | ended selects => cases completed
      | recvFailed res => rfl
      | sent res => rfl

theorem FillsInOrder.complete (fills : contents.FillsInOrder chunks)
    (kept : contents.BuffersKept) {index : Nat} {result : KernelResult}
    (completed : contents.complete index result = some next) :
    next.FillsInOrder (chunks ++ result.chunk?.toList) := by
  obtain ⟨request, found, answered⟩ := complete_cases completed
  cases fills with
  | unbound unbound none nothing =>
      rw [(kept.unbound unbound).1] at found
      cases found
  | bound filled slices =>
      have unread : request.operation ≠ .recv →
          contents.buffers.FilledInOrder (chunks ++ result.chunk?.toList) ∧
          none = result.chunk?.map fun bytes =>
            (chunks.length, bytes.length) := by
        intro other
        rw [complete_unread found other completed]
        exact ⟨by simpa using filled, rfl⟩
      rcases answered with ⟨res, more, operation, rfl⟩ |
        ⟨cqe, buffers, operation, received, rfl⟩ |
        ⟨buf, res, operation, rfl⟩
      · obtain ⟨filled', slice⟩ := unread (by simp [operation])
        refine .posted slices filled' ?_
        rw [← slice]
        simp [Cqe.slice?]
      · obtain ⟨filled', slice⟩ := filled.completeRecv received
        exact .posted slices filled' slice
      · obtain ⟨filled', slice⟩ := unread (by simp [operation])
        refine .posted slices filled' ?_
        rw [← slice]
        simp [Cqe.slice?]

end Worker

theorem fillsInOrder_start (fresh : server.workers worker = {})
    (outcome : InitOutcome)
    (fills : (server.workers worker).FillsInOrder chunks) :
    ((server.startWorker worker outcome).workers worker).FillsInOrder
      chunks := by
  have nothing : chunks = [] := by
    rw [fresh] at fills
    cases fills with
    | unbound unbound none nothing => exact nothing
    | bound filled slices =>
        obtain ⟨ring, mapped, -⟩ := filled.ring
        cases mapped
  subst nothing
  have succeeds := initStages_succeeds outcome .looping
  obtain ⟨kernel, -, registers⟩ := initStages_buffers outcome .looping
  have started := startWorker_started fresh outcome
  generalize (server.startWorker worker outcome).workers worker = contents
    at started
  cases started with
  | failed fails ring listening buffers dispatched =>
      refine .unbound listening ?_ rfl
      rw [Worker.completions, ring, dispatched]
      rfl
  | ready success file ring listening buffers dispatched =>
      refine .bound (.registered ⟨?_, ?_⟩) ?_
      · rw [buffers, kernel]
      · rw [buffers]
        exact registers (succeeds.mpr success)
      · rw [Worker.completions, ring, dispatched]
        rfl

theorem fillsInOrder_step (reachable : serverSystem.Reachable before)
    (step : before.step label = some after)
    (fills : (before.workers worker).FillsInOrder chunks) :
    (after.workers worker).FillsInOrder
      (chunks ++ (label.chunk? worker).toList) := by
  have matched := ringsMatch_of_reachable reachable
  -- only a completion adds to the chunks
  have changed : ∀ changed contents,
      (worker = changed → contents.FillsInOrder chunks) →
      ((before.setWorker changed contents).workers worker).FillsInOrder
        chunks := by
    intro changed contents here
    by_cases same : worker = changed
    · subst same
      rw [setWorker_self]
      exact here rfl
    · rw [setWorker_other _ same]
      exact fills
  cases (step_cases step).2 with
  | @start started outcome unstarted =>
      simp only [Label.chunk?, Option.toList_none, List.append_nil]
      by_cases same : worker = started
      · subst same
        exact fillsInOrder_start
          (matched.unstarted worker (not_not.mpr unstarted)) outcome fills
      · rw [startWorker_other outcome same]
        exact fills
  | submit | submitFails | wake | endBatch =>
      simp only [Label.chunk?, Option.toList_none, List.append_nil]
      refine changed _ _ fun same => ?_
      subst same
      exact fills.congr rfl rfl (.inl rfl)
  | @dispatch taker generated cqe rest dispatching next =>
      simp only [Label.chunk?, Option.toList_none, List.append_nil]
      have dispatched :=
        dispatched_of_reachable reachable dispatching next generated
      by_cases same : worker = taker
      · subst same
        refine fills.congr dispatched.listening ?_ ?_
        · exact matched.dispatch_taken
            (started_of_phase dispatching Phase.noConfusion) next generated
            worker
        · cases dispatched.outcome with
          | refused carries failed ring buffers => exact .inl buffers
          | accepted carries success ring buffers => exact .inl buffers
          | received rawFd carries suspended received ring buffers =>
              exact .inr ⟨0, buffers⟩
          | ended carries suspended ended ring buffers => exact .inl buffers
      · rw [dispatched.others worker same]
        exact fills
  | @complete completer index result contents completed =>
      rw [Label.chunk?]
      by_cases same : completer = worker
      · subst same
        rw [if_pos rfl, setWorker_self]
        exact fills.complete (buffersKept_of_reachable reachable completer)
          completed
      · rw [if_neg same, Option.toList_none, List.append_nil]
        exact changed _ _ fun here => absurd here.symm same
  | cleanup | tick =>
      simp only [Label.chunk?, Option.toList_none, List.append_nil]
      exact fills

theorem fillsInOrder_run {history : List (Server × Label)} {last : Server}
    (run : serverSystem.Execution {} history last) (worker : WorkerId) :
    (last.workers worker).FillsInOrder (chunksOf worker history) := by
  induction run with
  | refl => exact .unbound rfl rfl rfl
  | @snoc last next history label run step induction =>
      have grown : chunksOf worker (history ++ [(last, label)]) =
          chunksOf worker history ++ (label.chunk? worker).toList := by
        rw [chunksOf, List.filterMap_append, ← chunksOf]
        cases chunk : label.chunk? worker with
        | none => simp [chunk]
        | some bytes => simp [chunk]
      rw [grown]
      exact fillsInOrder_step (run.reachable rfl) step induction

/-- Over any run the buffers of a worker keep what it received: the n-th
receive is in buffer n, behind it zeros, and is never written over. -/
theorem received_data_kept {history : List (Server × Label)} {last : Server}
    (run : serverSystem.Execution {} history last) (worker : WorkerId) :
    (last.workers worker).Retains (chunksOf worker history) :=
  (fillsInOrder_run run worker).retains

/-- A client connects, and one byte of it comes. -/
theorem first_byte_kept :
    ∃ history last, serverSystem.Execution {} history last ∧
      chunksOf 0 history = [[1]] ∧
      (last.workers 0).Retains [[1]] := by
  have run : ∃ server, TransitionSystem.runLabels Server.step {}
      untilReceive = some server ∧
      (server.workers 0).listening ≠ none ∧
      (server.workers 0).ioUring.inflight[1]? = some
        ⟨.recv, 7, .recvAwaiter 3 .awaited⟩ ∧
      (server.workers 0).buffers.kernel.selected = [] :=
    ⟨_, rfl, by decide, rfl, rfl⟩
  obtain ⟨server, run, listens, inflight, noneSelected⟩ := run
  have execution : serverSystem.Execution {} _ server := .runLabels run
  have reachable := execution.reachable rfl
  obtain ⟨bufferId, contents, completed, -⟩ :=
    (buffersKept_of_reachable reachable 0).receives listens noneSelected
      inflight
  have received := execution.snoc ((Stepped.complete completed).step
    (sessionsKept_of_reachable reachable).healthy)
  refine ⟨_, _, received, ?_, ?_⟩
  · rfl
  · exact received_data_kept received 0

end CoUring
