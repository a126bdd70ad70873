import CoUring.Io.RingOccupancy
import CoUring.Server.Start

namespace CoUring

open Foundation Server

/-! The ring while the application returns nothing. -/

namespace ProvidedBuffers

variable {buffers : ProvidedBuffers} {ring : RingMemory}

theorem RingShape.congr (shape : RingShape buffers ring) {app : BufferRing}
    (bufRing : app.bufRing = buffers.app.bufRing)
    (nonempty : ∀ bufferId < IoUring.bufRingSize,
      app.bufList.getD bufferId [] ≠ []) :
    RingShape { buffers with app := app } ring where
  mapped := bufRing.trans shape.mapped
  slot_bound := shape.slot_bound
  selected_bound := shape.selected_bound
  count := by
    rw [← shape.count, available, available, bufRing]
  buffer_nonempty := nonempty

theorem RingExact.congr (exact : RingExact buffers) {app : BufferRing}
    (bufRing : app.bufRing = buffers.app.bufRing) :
    RingExact { buffers with app := app } := by
  have offers : offered { buffers with app := app } = buffers.offered := by
    rw [offered, offered, available, available, bufRing]
  rwa [RingExact, offers]

theorem RingShape.borrowBuf (shape : RingShape buffers ring)
    (bufferId : Nat) : RingShape (buffers.borrowBuf bufferId).1 ring :=
  shape.congr rfl shape.buffer_nonempty

theorem RingExact.borrowBuf (exact : RingExact buffers) (bufferId : Nat) :
    RingExact (buffers.borrowBuf bufferId).1 :=
  exact.congr rfl

theorem RingShape.fill (shape : RingShape buffers ring) (bufferId : Nat)
    {bytes : List UInt8} (received : bytes ≠ []) :
    RingShape (buffers.fill bufferId bytes) ring := by
  refine shape.congr rfl fun other bound => ?_
  have original := shape.buffer_nonempty other bound
  rw [BufferRing.fill, List.getD_eq_getElem?_getD, List.getElem?_set]
  split
  next same =>
    split
    · simp [received]
    next beyond =>
      subst same
      exact absurd (List.getD_eq_default _ _ (not_lt.mp beyond)) original
  · rwa [← List.getD_eq_getElem?_getD]

theorem RingExact.fill (exact : RingExact buffers) (bufferId : Nat)
    (bytes : List UInt8) : RingExact (buffers.fill bufferId bytes) :=
  exact.congr rfl

theorem RingShape.select_ne_none (shape : RingShape buffers ring)
    (left : buffers.kernel.selected.length < IoUring.bufRingSize) :
    buffers.select ≠ none := by
  have count := shape.count
  have nonempty : buffers.kernel.head ≠ ring.tail := by
    intro empty
    rw [shape.available_eq, empty] at count
    simp at count
    omega
  rw [shape.select_eq_some nonempty]
  exact Option.some_ne_none _

end ProvidedBuffers

variable {server before after : Server} {worker : WorkerId} {cqe : Cqe}
  {rest : List Cqe} {generated : SessionId}

def Cqe.bufferId? (cqe : Cqe) : Option Nat :=
  if hasBuffer cqe.flags then some (cqe.flags >>> ioringCqeBufferShift)
  else none

@[simp] theorem Cqe.bufferId?_zero (userData : Option SqeAddr) (res : Int) :
    Cqe.bufferId? ⟨userData, res, 0⟩ = none := by
  simp [bufferId?]

@[simp] theorem Cqe.bufferId?_moreFlags (userData : Option SqeAddr)
    (res : Int) (more : Bool) :
    Cqe.bufferId? ⟨userData, res, moreFlags more⟩ = none := by
  simp [bufferId?]

@[simp] theorem Cqe.bufferId?_bufferFlags (userData : Option SqeAddr)
    (res : Int) (bufferId : Nat) :
    Cqe.bufferId? ⟨userData, res, bufferFlags bufferId⟩ = some bufferId := by
  simp [bufferId?]

def Cqe.IsRecv (cqe : Cqe) : Prop :=
  ∃ frame slot, cqe.userData = some (.recvAwaiter frame slot)

/-- No provided buffer is lost: whatever the kernel selected and did not get
back is with a receive that is not dispatched yet. -/
structure Worker.BuffersConserved (worker : Worker) : Prop where
  held : ∀ bufferId < IoUring.bufRingSize,
    bufferId ∉ worker.buffers.kernel.selected ∨
      ∃ cqe ∈ worker.ioUring.cq, cqe.IsRecv ∧ cqe.bufferId? = some bufferId
  returned : worker.buffers.kernel.strayReturn = false
  borrowed : ∀ bufferId,
    worker.buffers.app.borrowedBufSet bufferId = false
  available : (∃ request ∈ worker.ioUring.inflight,
      request.operation = .recv) →
    worker.ioUring.cq.length < IoUring.bufRingSize →
    worker.buffers.select ≠ none

/-- What holds of a worker's buffers whatever it receives. -/
structure Worker.BuffersKept (worker : Worker) : Prop where
  selected : worker.buffers.kernel.selected =
    (worker.dispatched ++ worker.ioUring.cq).filterMap Cqe.bufferId?
  returned : worker.buffers.kernel.strayReturn = false
  carriers : ∀ cqe ∈ worker.ioUring.cq, cqe.bufferId? ≠ none → cqe.IsRecv
  filled : ∀ cqe ∈ worker.ioUring.cq, cqe.IsRecv → 0 < cqe.res →
    cqe.bufferId? ≠ none
  borrowed : (∀ cqe ∈ worker.dispatched, cqe.bufferId? = none) →
    ∀ bufferId, worker.buffers.app.borrowedBufSet bufferId = false
  unbound : worker.listening = none →
    worker.ioUring = {} ∧ worker.dispatched = []
  bound : worker.listening ≠ none →
    ∃ ring, ProvidedBuffers.RingShape worker.buffers ring ∧
      ProvidedBuffers.RingExact worker.buffers

namespace Worker.BuffersKept

variable {contents next : Worker}

/-- The completions without a buffer are the ones that lose none. -/
theorem conserved_iff (kept : contents.BuffersKept) :
    contents.BuffersConserved ↔
      ∀ cqe ∈ contents.dispatched, cqe.bufferId? = none := by
  have selected := kept.selected
  rw [List.filterMap_append] at selected
  constructor
  · intro conserved cqe member
    by_contra carries
    obtain ⟨bufferId, carries⟩ := Option.ne_none_iff_exists'.mp carries
    have listens : contents.listening ≠ none := by
      intro unbound
      rw [(kept.unbound unbound).2] at member
      cases member
    obtain ⟨ring, shape, exact⟩ := kept.bound listens
    have early : bufferId ∈ contents.dispatched.filterMap Cqe.bufferId? :=
      List.mem_filterMap.mpr ⟨cqe, member, carries⟩
    have isSelected : bufferId ∈ contents.buffers.kernel.selected := by
      rw [selected]
      exact List.mem_append_left _ early
    have still := (conserved.held bufferId
      (shape.selected_bound bufferId isSelected)).resolve_left
        (not_not.mpr isSelected)
    obtain ⟨other, undispatched, -, again⟩ := still
    have late : bufferId ∈ contents.ioUring.cq.filterMap Cqe.bufferId? :=
      List.mem_filterMap.mpr ⟨other, undispatched, again⟩
    -- the kernel never selects an id twice
    have distinct := exact.selected_nodup shape
    rw [selected] at distinct
    exact (List.nodup_append.mp distinct).2.2 _ early _ late rfl
  · intro noneLost
    rw [List.filterMap_eq_nil_iff.mpr noneLost, List.nil_append] at selected
    refine ⟨?_, kept.returned, kept.borrowed noneLost, ?_⟩
    · intro bufferId bound
      by_cases isSelected : bufferId ∈ contents.buffers.kernel.selected
      · rw [selected] at isSelected
        obtain ⟨cqe, member, carries⟩ := List.mem_filterMap.mp isSelected
        exact .inr ⟨cqe, member,
          kept.carriers cqe member (by simp [carries]), carries⟩
      · exact .inl isSelected
    · rintro ⟨request, inflight, -⟩ fewer
      have listens : contents.listening ≠ none := by
        intro unbound
        rw [(kept.unbound unbound).1] at inflight
        cases inflight
      obtain ⟨ring, shape, -⟩ := kept.bound listens
      refine shape.select_ne_none ?_
      rw [selected]
      exact Nat.lt_of_le_of_lt (List.length_filterMap_le _ _) fewer

theorem empty : BuffersKept {} where
  selected := rfl
  returned := rfl
  carriers := fun _ member => by cases member
  filled := fun _ member => by cases member
  borrowed := fun _ _ => rfl
  unbound := fun _ => ⟨rfl, rfl⟩
  bound := fun listens => absurd rfl listens

theorem congr (kept : contents.BuffersKept)
    (cq : next.ioUring.cq = contents.ioUring.cq)
    (dispatched : next.dispatched = contents.dispatched)
    (buffers : next.buffers = contents.buffers)
    (listening : next.listening = contents.listening)
    (empty : contents.ioUring = {} → next.ioUring = {}) :
    next.BuffersKept where
  selected := by rw [buffers, dispatched, cq, kept.selected]
  returned := by rw [buffers, kept.returned]
  carriers := by rw [cq]; exact kept.carriers
  filled := by rw [cq]; exact kept.filled
  borrowed := by rw [dispatched, buffers]; exact kept.borrowed
  unbound := by
    rw [listening, dispatched]
    exact fun unbound => (kept.unbound unbound).imp_left empty
  bound := by rw [listening, buffers]; exact kept.bound

theorem posted (kept : contents.BuffersKept)
    (listens : contents.listening ≠ none) {cqe : Cqe}
    {inflight : List Request} {buffers : ProvidedBuffers}
    (selected : buffers.kernel.selected =
      contents.buffers.kernel.selected ++ cqe.bufferId?.toList)
    (returned : buffers.kernel.strayReturn =
      contents.buffers.kernel.strayReturn)
    (borrowed : buffers.app.borrowedBufSet =
      contents.buffers.app.borrowedBufSet)
    (carrier : cqe.bufferId? ≠ none → cqe.IsRecv)
    (filled : cqe.IsRecv → 0 < cqe.res → cqe.bufferId? ≠ none)
    (ring : ∃ ring, ProvidedBuffers.RingShape buffers ring ∧
      ProvidedBuffers.RingExact buffers) :
    BuffersKept { contents with
      buffers := buffers
      ioUring := { contents.ioUring with
        inflight := inflight
        cq := contents.ioUring.cq ++ [cqe] } } where
  selected := by
    rw [selected, kept.selected]
    simp only [List.filterMap_append, List.append_assoc]
    cases carried : cqe.bufferId? with
    | none => simp [carried]
    | some bufferId => simp [carried]
  returned := returned.trans kept.returned
  carriers := fun other member => by
    rcases List.mem_append.mp member with earlier | added
    · exact kept.carriers other earlier
    · rw [List.mem_singleton.mp added]
      exact carrier
  filled := fun other member => by
    rcases List.mem_append.mp member with earlier | added
    · exact kept.filled other earlier
    · rw [List.mem_singleton.mp added]
      exact filled
  borrowed := by
    dsimp only
    rw [borrowed]
    exact kept.borrowed
  unbound := fun unbound => absurd unbound listens
  bound := fun _ => ring

theorem complete (kept : contents.BuffersKept) {index : Nat}
    {result : KernelResult} (requests : contents.ioUring.Kept)
    (completed : contents.complete index result = some next) :
    next.BuffersKept := by
  obtain ⟨request, found, answered⟩ := Worker.complete_cases completed
  have member := List.mem_of_getElem? found
  have fits := requests.fits request (.inr member)
  have listens : contents.listening ≠ none := by
    intro unbound
    rw [(kept.unbound unbound).1] at member
    cases member
  obtain ⟨ring, shape, exact⟩ := kept.bound listens
  rcases answered with
    ⟨res, more, operation, rfl⟩ | ⟨cqe, buffers, operation, received, rfl⟩ |
      ⟨buf, res, operation, rfl⟩
  · refine kept.posted listens (by simp) rfl rfl (by simp) ?_
      ⟨ring, shape, exact⟩
    rintro ⟨frame, slot, carries⟩
    rw [Option.some.inj carries, operation] at fits
    cases fits
  · have isRecv : Cqe.IsRecv cqe := by
      rw [operation] at fits
      rw [Cqe.IsRecv, ProvidedBuffers.completeRecv_userData received]
      generalize request.userData = address at fits
      cases fits
      exact ⟨_, _, rfl⟩
    rcases ProvidedBuffers.completeRecv_cases received with
      ⟨bytes, bufferId, taken, nonempty, -, select, rfl, rfl⟩ |
        ⟨bufferId, select, rfl⟩ | ⟨res, failed, -, rfl, rfl⟩
    · obtain ⟨shape', -, app, selected, stray⟩ := shape.select_spec select
      refine kept.posted listens ?_ stray ?_ (fun _ => isRecv) (by simp)
        ⟨ring, shape'.fill bufferId nonempty,
          (exact.select shape select).fill bufferId bytes⟩
      · rw [Cqe.bufferId?_bufferFlags]
        exact selected
      · change taken.app.borrowedBufSet = _
        rw [app]
    · obtain ⟨shape', -, app, selected, stray⟩ := shape.select_spec select
      refine kept.posted listens ?_ stray ?_ (fun _ => isRecv) (by simp)
        ⟨ring, shape', exact.select shape select⟩
      · rw [Cqe.bufferId?_bufferFlags]
        exact selected
      · rw [app]
    · refine kept.posted listens (by simp) rfl rfl (by simp) ?_
        ⟨ring, shape, exact⟩
      intro _ positive
      exact absurd positive (not_lt.mpr failed)
  · refine kept.posted listens (by simp) rfl rfl (by simp) ?_
      ⟨ring, shape, exact⟩
    rintro ⟨frame, slot, carries⟩
    rw [Option.some.inj carries, operation] at fits
    cases fits

theorem seen (kept : contents.BuffersKept)
    (next' : contents.ioUring.cq = cqe :: rest)
    (listening : next.listening = contents.listening)
    (cq : next.ioUring.cq = rest)
    (dispatched : next.dispatched = contents.dispatched ++ [cqe])
    (buffers : next.buffers = contents.buffers ∨
      cqe.bufferId? ≠ none ∧
        next.buffers = (contents.buffers.borrowBuf 0).1) :
    next.BuffersKept := by
  have member : cqe ∈ contents.ioUring.cq := by rw [next']; simp
  have suffix : ∀ other ∈ next.ioUring.cq, other ∈ contents.ioUring.cq := by
    intro other later
    rw [next', ← cq]
    exact List.mem_cons_of_mem _ later
  have kernel : next.buffers.kernel = contents.buffers.kernel := by
    rcases buffers with same | ⟨-, borrowed⟩
    · rw [same]
    · rw [borrowed]
      rfl
  refine ⟨?_, ?_, ?_, ?_, ?_, ?_, ?_⟩
  · rw [kernel, kept.selected, dispatched, cq, next']
    simp
  · rw [kernel, kept.returned]
  · exact fun other later => kept.carriers other (suffix other later)
  · exact fun other later => kept.filled other (suffix other later)
  · intro noneLost
    rw [dispatched] at noneLost
    rcases buffers with same | ⟨carries, -⟩
    · rw [same]
      exact kept.borrowed fun other earlier =>
        noneLost other (List.mem_append_left _ earlier)
    · exact absurd (noneLost cqe (by simp)) carries
  · intro unbound
    rw [listening] at unbound
    rw [(kept.unbound unbound).1] at member
    cases member
  · intro listens
    rw [listening] at listens
    obtain ⟨ring, shape, exact⟩ := kept.bound listens
    rcases buffers with same | ⟨-, borrowed⟩
    · rw [same]
      exact ⟨ring, shape, exact⟩
    · rw [borrowed]
      exact ⟨ring, shape.borrowBuf 0, exact.borrowBuf 0⟩

end Worker.BuffersKept

/-! Over a run. -/

theorem buffersKept_start (fresh : server.workers worker = {})
    (outcome : InitOutcome) :
    ((server.startWorker worker outcome).workers worker).BuffersKept := by
  have succeeds := initStages_succeeds outcome .looping
  obtain ⟨kernel, borrowed, registers⟩ := initStages_buffers outcome .looping
  have started := startWorker_started fresh outcome
  generalize (server.startWorker worker outcome).workers worker = contents
    at started
  cases started with
  | failed fails ring listening buffers dispatched =>
      refine ⟨?_, ?_, ?_, ?_, ?_, ?_, ?_⟩
      · rw [buffers, kernel, dispatched, ring]
        rfl
      · rw [buffers, kernel]
      · rw [ring]
        exact fun _ member => by cases member
      · rw [ring]
        exact fun _ member => by cases member
      · rw [buffers]
        exact fun _ => borrowed
      · exact fun _ => ⟨ring, dispatched⟩
      · exact fun listens => absurd listening listens
  | ready success file ring listening buffers dispatched =>
      obtain ⟨registered, first⟩ := registers (succeeds.mpr success)
      have isRegistered : ProvidedBuffers.Registered contents.buffers := by
        rw [buffers]
        exact ⟨kernel, registered, first⟩
      obtain ⟨memory, shape, exact, -⟩ := isRegistered.shape
      refine ⟨?_, ?_, ?_, ?_, ?_, ?_, ?_⟩
      · rw [buffers, kernel, dispatched, ring]
        rfl
      · rw [buffers, kernel]
      · rw [ring]
        exact fun _ member => by cases member
      · rw [ring]
        exact fun _ member => by cases member
      · rw [buffers]
        exact fun _ => borrowed
      · intro unbound
        rw [listening] at unbound
        cases unbound
      · exact fun _ => ⟨memory, shape, exact⟩

theorem Dispatched.buffersKept
    (dispatched : Dispatched server worker cqe rest generated after)
    (kept : (server.workers worker).BuffersKept)
    (next : (server.workers worker).ioUring.cq = cqe :: rest)
    (taken : (after.workers worker).dispatched =
      (server.workers worker).dispatched ++ [cqe]) :
    (after.workers worker).BuffersKept := by
  have member : cqe ∈ (server.workers worker).ioUring.cq := by
    rw [next]
    exact List.mem_cons_self
  cases dispatched.outcome with
  | refused carries failed ring buffers =>
      exact kept.seen next dispatched.listening (by rw [ring]; rfl) taken
        (.inl buffers)
  | accepted carries success ring buffers =>
      exact kept.seen next dispatched.listening
        (by rw [ring, IoUring.queueRequest_cq]; rfl) taken (.inl buffers)
  | received rawFd carries suspended received ring buffers =>
      have carriesBuffer := kept.filled cqe member ⟨_, _, carries⟩ received
      exact kept.seen next dispatched.listening
        (by rw [ring, IoUring.queueRequest_cq]; rfl) taken
        (.inr ⟨carriesBuffer, buffers⟩)
  | ended carries suspended ended ring buffers =>
      exact kept.seen next dispatched.listening (by rw [ring]; rfl) taken
        (.inl buffers)

theorem RingsMatch.dispatch_dispatched (matched : RingsMatch server)
    (started : server.Started worker)
    (next : (server.workers worker).ioUring.cq = cqe :: rest)
    (generated : SessionId) :
    (((server.setWorker worker ((server.workers worker).seen cqe
      rest)).dispatchCqe worker cqe generated).workers worker).dispatched =
        (server.workers worker).dispatched ++ [cqe] := by
  rw [(matched.dispatch_completions started next generated worker).2,
    setWorker_self]
  rfl

def Server.BuffersKept (server : Server) : Prop :=
  ∀ worker, (server.workers worker).BuffersKept

theorem Server.BuffersKept.setWorker (kept : server.BuffersKept)
    {contents : Worker} (here : contents.BuffersKept) :
    (server.setWorker worker contents).BuffersKept :=
  setWorker_forall worker contents (fun _ contents => contents.BuffersKept)
    here kept

theorem Server.BuffersKept.step (kept : before.BuffersKept)
    (reachable : serverSystem.Reachable before) {label : Label}
    (stepped : Stepped before label after) : after.BuffersKept := by
  have matched := ringsMatch_of_reachable reachable
  cases stepped with
  | @start worker outcome unstarted =>
      exact workers_forall (fun _ contents => contents.BuffersKept)
        (fun _ => startWorker_other outcome)
        (buffersKept_start
          (matched.unstarted worker (not_not.mpr unstarted)) outcome) kept
  | @dispatch worker generated cqe rest dispatching next =>
      have dispatched :=
        dispatched_of_reachable reachable dispatching next generated
      have taken := matched.dispatch_dispatched
        (started_of_phase dispatching Phase.noConfusion) next generated
      exact workers_forall (fun _ contents => contents.BuffersKept)
        dispatched.others (dispatched.buffersKept (kept worker) next taken)
        kept
  | @submit worker looping =>
      refine kept.setWorker ((kept worker).congr rfl rfl rfl rfl ?_)
      intro empty
      rw [Worker.submit, empty]
      rfl
  | @submitFails worker looping =>
      exact kept.setWorker ((kept worker).congr rfl rfl rfl rfl id)
  | @wake worker submitted waiting present =>
      exact kept.setWorker ((kept worker).congr rfl rfl rfl rfl id)
  | @endBatch worker dispatching empty =>
      exact kept.setWorker ((kept worker).congr rfl rfl rfl rfl id)
  | @complete worker index result contents completed =>
      exact kept.setWorker
        ((kept worker).complete (matched.kept worker) completed)
  | cleanup swept => exact kept
  | tick => exact kept

theorem buffersKept_of_reachable (reachable : serverSystem.Reachable server) :
    server.BuffersKept := by
  refine TransitionSystem.Invariant.of_reachable Server.BuffersKept ?_ ?_ _
    reachable
  · rintro _ rfl worker
    exact .empty
  · intro before label after reached kept step
    exact kept.step reached (step_cases step).2

/-! Conservation. -/

def Server.BuffersConserved (server : Server) : Prop :=
  ∀ worker, (server.workers worker).BuffersConserved

def Server.NoBufferTaken (server : Server) : Prop :=
  ∀ worker, ∀ cqe ∈ (server.workers worker).dispatched, cqe.bufferId? = none

/-- No completion that carries a provided buffer is dispatched. -/
def Server.TakesNoBuffer (server : Server) : Label → Prop
  | .dispatch worker _ =>
      ∀ cqe ∈ (server.workers worker).ioUring.cq.head?, cqe.bufferId? = none
  | _ => True

theorem buffersConserved_iff (reachable : serverSystem.Reachable server) :
    server.BuffersConserved ↔ server.NoBufferTaken :=
  forall_congr' fun worker =>
    (buffersKept_of_reachable reachable worker).conserved_iff

theorem Server.NoBufferTaken.setWorker (noneTaken : server.NoBufferTaken)
    {contents : Worker}
    (dispatched : contents.dispatched =
      (server.workers worker).dispatched) :
    (server.setWorker worker contents).NoBufferTaken := by
  refine setWorker_forall worker contents
    (fun _ contents => ∀ cqe ∈ contents.dispatched, cqe.bufferId? = none)
    ?_ noneTaken
  rw [dispatched]
  exact noneTaken worker

theorem noBufferTaken_dispatch (matched : RingsMatch server)
    (noneTaken : server.NoBufferTaken) (started : server.Started worker)
    (next : (server.workers worker).ioUring.cq = cqe :: rest)
    (generated : SessionId) :
    ((server.setWorker worker ((server.workers worker).seen cqe
      rest)).dispatchCqe worker cqe generated).NoBufferTaken ↔
        cqe.bufferId? = none := by
  have taken : ∀ other, (((server.setWorker worker
      ((server.workers worker).seen cqe rest)).dispatchCqe worker cqe
        generated).workers other).dispatched =
      ((server.setWorker worker ((server.workers worker).seen cqe
        rest)).workers other).dispatched := fun other =>
    (matched.dispatch_completions started next generated other).2
  constructor
  · intro all
    refine all worker cqe ?_
    rw [taken, setWorker_self]
    simp [Worker.seen]
  · intro bare other earlier member
    rw [taken] at member
    refine setWorker_forall worker ((server.workers worker).seen cqe rest)
      (fun _ contents => ∀ cqe ∈ contents.dispatched, cqe.bufferId? = none)
      ?_ noneTaken other earlier member
    intro added member
    rcases List.mem_append.mp member with old | new
    · exact noneTaken worker added old
    · rw [List.mem_singleton.mp new]
      exact bare

theorem buffersConserved_step (reachable : serverSystem.Reachable before)
    (conserved : before.BuffersConserved) {label : Label}
    (step : before.step label = some after) :
    after.BuffersConserved ↔ before.TakesNoBuffer label := by
  have matched := ringsMatch_of_reachable reachable
  rw [buffersConserved_iff reachable] at conserved
  rw [buffersConserved_iff (reachable.step step)]
  cases (step_cases step).2 with
  | @start worker outcome unstarted =>
      refine iff_of_true (fun other => ?_) trivial
      have initial := (initStages_same outcome
        { before.workers worker with phase := .looping }).2.2
      rw [((Quiet.startWorker outcome).completions other).2]
      exact conserved.setWorker initial other
  | @dispatch worker generated cqe rest dispatching next =>
      have single : before.TakesNoBuffer (.dispatch worker generated) ↔
          cqe.bufferId? = none := by
        simp [TakesNoBuffer, next]
      rw [single]
      exact noBufferTaken_dispatch matched conserved
        (started_of_phase dispatching Phase.noConfusion) next generated
  | submit looping => exact iff_of_true (conserved.setWorker rfl) trivial
  | submitFails looping => exact iff_of_true (conserved.setWorker rfl) trivial
  | wake waiting present => exact iff_of_true (conserved.setWorker rfl) trivial
  | endBatch dispatching empty =>
      exact iff_of_true (conserved.setWorker rfl) trivial
  | complete completed =>
      obtain ⟨-, -, dispatched, -⟩ := Worker.complete_same completed
      exact iff_of_true (conserved.setWorker dispatched) trivial
  | cleanup swept => exact iff_of_true conserved trivial
  | tick => exact iff_of_true conserved trivial

/-- Exactly the runs that dispatch no completion with a provided buffer
conserve the buffers. -/
theorem buffers_conserved_iff_none_taken {history : List (Server × Label)}
    {last : Server} (run : serverSystem.Execution {} history last) :
    (∀ state ∈ TransitionSystem.visited history last,
      state.BuffersConserved) ↔
      ∀ taken ∈ history, taken.1.TakesNoBuffer taken.2 := by
  refine TransitionSystem.Execution.good_iff_guarded ?_ ?_ rfl run
  · rintro _ rfl worker
    refine Worker.BuffersKept.empty.conserved_iff.mpr fun cqe member => ?_
    cases member
  · intro before label after reachable conserved step
    exact buffersConserved_step reachable conserved step

/-- A worker starts, a client connects, and its receive is submitted. -/
def untilReceive : List Label :=
  [.start 0 ⟨0, none, 0, some 3, 0⟩, .submit 0,
    .complete 0 0 (.accepted 7 true), .wake 0, .dispatch 0 "only",
    .endBatch 0, .submit 0]

theorem connecting_conserves_buffers :
    ∃ last, TransitionSystem.runLabels Server.step {}
        (untilReceive.take 5) = some last ∧
      ∀ state ∈ TransitionSystem.visited (TransitionSystem.traceLabels
        Server.step {} (untilReceive.take 5)) last,
        state.BuffersConserved := by
  have run : ∃ last, TransitionSystem.runLabels Server.step {}
      (untilReceive.take 5) = some last := ⟨_, rfl⟩
  obtain ⟨last, run⟩ := run
  refine ⟨last, run, (buffers_conserved_iff_none_taken
    (.runLabels run)).mpr ?_⟩
  have trace : TransitionSystem.traceLabels Server.step {}
      (untilReceive.take 5) =
        [(_, _), (_, _), (_, _), (_, _), (_, _)] := rfl
  rw [trace]
  simp only [List.forall_mem_cons]
  refine ⟨trivial, trivial, trivial, trivial, ?_, List.forall_mem_nil _⟩
  rintro cqe ⟨⟩
  exact Cqe.bufferId?_moreFlags _ _ _

theorem Worker.BuffersKept.receives {contents : Worker}
    (kept : contents.BuffersKept) (listens : contents.listening ≠ none)
    (noneSelected : contents.buffers.kernel.selected = []) {rawFd : RawFd}
    {address : SqeAddr}
    (inflight : contents.ioUring.inflight[1]? =
      some ⟨.recv, rawFd, address⟩) :
    ∃ bufferId next, contents.complete 1 (.received [1]) = some next ∧
      next.phase = contents.phase ∧
      next.dispatched = contents.dispatched ∧
      next.ioUring.cq = contents.ioUring.cq ++
        [⟨some address, 1, bufferFlags bufferId⟩] := by
  obtain ⟨ring, shape, -⟩ := kept.bound listens
  have nonempty := shape.select_ne_none
    (by rw [noneSelected]; decide)
  obtain ⟨⟨bufferId, selected⟩, select⟩ :=
    Option.ne_none_iff_exists'.mp nonempty
  have completed : contents.buffers.completeRecv address (.received [1]) =
      some (⟨some address, 1, bufferFlags bufferId⟩,
        selected.fill bufferId [1]) := by
    simp [ProvidedBuffers.completeRecv, select, IoUring.bufSize]
  have answered : contents.complete 1 (.received [1]) =
      some { contents with
        buffers := selected.fill bufferId [1]
        ioUring := { contents.ioUring with
          inflight := contents.ioUring.inflight.eraseIdx 1
          cq := contents.ioUring.cq ++
            [⟨some address, 1, bufferFlags bufferId⟩] } } := by
    simp [Worker.complete, inflight, completed]
  exact ⟨bufferId, _, answered, rfl, rfl, rfl⟩

/-- One byte is received, and its completion is dispatched. -/
def oneReceived : List Label :=
  untilReceive ++
    [.complete 0 1 (.received [1]), .wake 0, .dispatch 0 ""]

theorem one_received :
    ∃ server bufferId,
      TransitionSystem.runLabels Server.step {} oneReceived = some server ∧
      (server.workers 0).dispatched =
        [⟨some (.acceptGuard 0), 7, moreFlags true⟩,
          ⟨some (.recvAwaiter 3 .awaited), 1, bufferFlags bufferId⟩] ∧
      (server.workers 0).ioUring.cq = [] := by
  have run : ∃ server, TransitionSystem.runLabels Server.step {}
      untilReceive = some server ∧
      (server.workers 0).phase = .waiting 1 ∧
      (server.workers 0).listening ≠ none ∧
      (server.workers 0).ioUring.inflight[1]? = some
        ⟨.recv, 7, .recvAwaiter 3 .awaited⟩ ∧
      (server.workers 0).ioUring.cq = [] ∧
      (server.workers 0).dispatched =
        [⟨some (.acceptGuard 0), 7, moreFlags true⟩] ∧
      (server.workers 0).buffers.kernel.selected = [] :=
    ⟨_, rfl, rfl, by decide, rfl, rfl, rfl, rfl⟩
  obtain ⟨server, run, waiting, listens, inflight, empty, accepted,
    noneSelected⟩ := run
  have reachable : serverSystem.Reachable server :=
    .runLabels (.initial rfl) run
  obtain ⟨bufferId, contents, completed, phase, before, posted⟩ :=
    (buffersKept_of_reachable reachable 0).receives listens noneSelected
      inflight
  rw [empty, List.nil_append] at posted
  rw [accepted] at before
  have complete := (Stepped.complete completed).step
    (sessionsKept_of_reachable reachable).healthy
  have reachable' := reachable.step complete
  have isWaiting : ((server.setWorker 0 contents).workers 0).phase =
      .waiting 1 := by
    rw [setWorker_self, phase, waiting]
  have present : ((server.setWorker 0 contents).workers 0).ioUring.cq ≠
      [] := by
    rw [setWorker_self, posted]
    exact List.cons_ne_nil _ _
  have wake := (Stepped.wake isWaiting present).step
    (sessionsKept_of_reachable reachable').healthy
  have reachable'' := reachable'.step wake
  let woken := (server.setWorker 0 contents).setWorker 0
    (((server.setWorker 0 contents).workers 0).wake 1)
  have dispatching : (woken.workers 0).phase = .dispatching := by
    rw [setWorker_self]
    rfl
  have next : (woken.workers 0).ioUring.cq =
      [⟨some (.recvAwaiter 3 .awaited), 1, bufferFlags bufferId⟩] := by
    rw [setWorker_self, ← posted, setWorker_self]
    rfl
  have taken : (woken.workers 0).dispatched =
      [⟨some (.acceptGuard 0), 7, moreFlags true⟩] := by
    rw [setWorker_self, ← before, setWorker_self]
    rfl
  have started : woken.Started 0 :=
    started_of_phase dispatching Phase.noConfusion
  have matched := ringsMatch_of_reachable reachable''
  obtain ⟨last, dispatch, dispatched, none⟩ : ∃ last,
      woken.step (.dispatch 0 "") = some last ∧
      (last.workers 0).dispatched = (woken.workers 0).dispatched ++
        [⟨some (.recvAwaiter 3 .awaited), 1, bufferFlags bufferId⟩] ∧
      (last.workers 0).ioUring.cq = [] := by
    refine ⟨_, (Stepped.dispatch dispatching next).step
      (sessionsKept_of_reachable reachable'').healthy,
      matched.dispatch_dispatched started next "", ?_⟩
    rw [(matched.dispatch_completions started next "" 0).1, setWorker_self]
    rfl
  refine ⟨last, bufferId, ?_, ?_, none⟩
  · rw [oneReceived, TransitionSystem.runLabels_append, run,
      Option.bind_some, TransitionSystem.runLabels, complete,
      Option.bind_some, TransitionSystem.runLabels, wake, Option.bind_some,
      TransitionSystem.runLabels, dispatch, Option.bind_some]
    rfl
  · rw [dispatched, taken]
    rfl

theorem first_received_buffer_lost :
    ∃ server, TransitionSystem.runLabels Server.step {} oneReceived =
        some server ∧
      ¬ server.BuffersConserved := by
  obtain ⟨server, bufferId, run, taken, -⟩ := one_received
  refine ⟨server, run, fun conserved => ?_⟩
  have bare := (buffersKept_of_reachable
    (.runLabels (.initial rfl) run) 0).conserved_iff.mp (conserved 0)
      ⟨some (.recvAwaiter 3 .awaited), 1, bufferFlags bufferId⟩
      (by rw [taken]; simp)
  rw [Cqe.bufferId?_bufferFlags] at bare
  cases bare

end CoUring
