import CoUring.Foundation.Simulation
import CoUring.Server.HalfTaken
import CoUring.Server.Matching

namespace CoUring

open Foundation Server

universe u

/-! The server with the completion queues the kernel shares with the workers.
An event loop takes one statement after the other, and the kernel and the other
workers go on in between. -/

/-- The completion queue of a worker, and where its loop stands. -/
structure RingLoop where
  queue : CircularQueue Cqe 32
  head : BitVec 32
  point : PassPoint

def RingLoop.pass {State : Type u} (loop : RingLoop) (state : State) :
    DispatchPass State where
  queue := loop.queue
  head := loop.head
  point := loop.point
  state := state
  posted := []

def DispatchPass.ringLoop {State : Type u} (pass : DispatchPass State) :
    RingLoop :=
  ⟨pass.queue, pass.head, pass.point⟩

structure RingServer where
  /-- Completions are in the queues; its own lists of them stay empty. -/
  server : Server
  loops : WorkerId → RingLoop

inductive RingLabel
  | start (worker : WorkerId) (outcome : InitOutcome)
  | submit (worker : WorkerId)
  | submitFails (worker : WorkerId)
  | wake (worker : WorkerId)
  | statement (worker : WorkerId) (generated : SessionId)
  | complete (worker : WorkerId) (index : Nat) (result : KernelResult)
  | cleanup (order : List SessionEntry) (readings : List Nat)
  | tick (elapsed : Nat)
  deriving DecidableEq, Repr

namespace RingServer

def setServer (state : RingServer) (server : Server) : RingServer :=
  { state with server := server }

def setLoop (state : RingServer) (worker : WorkerId)
    (loop : RingLoop) : RingServer :=
  { state with loops := Function.update state.loops worker loop }

/-- A loop that has seen the tail goes back to the head of `eventLoop`. -/
def goBack (server : Server) (worker : WorkerId) : PassPoint → Server
  | .left _ =>
      server.setWorker worker
        { server.workers worker with phase := .looping }
  | _ => server

def statement (size : RingSize 32) (state : RingServer)
    (worker : WorkerId) (generated : SessionId) : Option RingServer :=
  let loop := state.loops worker
  match loop.point with
  | .left _ =>
      some (state.setLoop worker
        (DispatchPass.start size loop.queue ()).ringLoop)
  | _ =>
      ((loop.pass (state.server, [generated])).advance (sqeProgram worker)
        size).map fun pass =>
          (state.setServer (goBack pass.state.1 worker pass.point)).setLoop
            worker pass.ringLoop

/-- The kernel puts the completion into the queue, if there is room. -/
def complete (size : RingSize 32) (state : RingServer) (worker : WorkerId)
    (index : Nat) (result : KernelResult) : Option RingServer :=
  ((state.server.workers worker).complete index result).bind fun contents =>
    contents.ioUring.cq.head?.bind fun cqe =>
      ((state.loops worker).queue.push size cqe).map fun queue =>
        (state.setServer
          (state.server.setWorker worker contents.emptied)).setLoop worker
            { state.loops worker with queue := queue }

def perform (size : RingSize 32) (state : RingServer) :
    RingLabel → Option RingServer
  | .start worker outcome =>
      (state.server.perform (.start worker outcome)).map state.setServer
  | .submit worker =>
      (state.server.perform (.submit worker)).map state.setServer
  | .submitFails worker =>
      (state.server.perform (.submitFails worker)).map state.setServer
  | .wake worker =>
      let contents := state.server.workers worker
      let queue := (state.loops worker).queue
      match contents.phase with
      | .waiting submitted =>
          if queue.head = queue.tail then none
          else some (state.setServer
            (state.server.setWorker worker (contents.wake submitted)))
      | _ => none
  | .statement worker generated =>
      if (state.server.workers worker).phase = .dispatching then
        state.statement size worker generated
      else none
  | .complete worker index result => state.complete size worker index result
  | .cleanup order readings =>
      (state.server.perform (.cleanup order readings)).map state.setServer
  | .tick elapsed =>
      (state.server.perform (.tick elapsed)).map state.setServer

def step (size : RingSize 32) (state : RingServer) (label : RingLabel) :
    Option RingServer :=
  if state.server.faulted then none else state.perform size label

/-- No loop runs and no completion is pending, wherever the counters stand. -/
def Initial (state : RingServer) : Prop :=
  state.server = {} ∧ ∀ worker, ∃ observed,
    (state.loops worker).point = .left observed ∧
    (state.loops worker).queue.head = (state.loops worker).queue.tail

/-- What a statement comes to: a completion is dealt with when its coroutine
was resumed. -/
def seen (state : RingServer) : RingLabel → Option Label
  | .start worker outcome => some (.start worker outcome)
  | .submit worker => some (.submit worker)
  | .submitFails worker => some (.submitFails worker)
  | .wake worker => some (.wake worker)
  | .statement worker generated =>
      match (state.loops worker).point with
      | .test =>
          if (state.loops worker).head = (state.loops worker).queue.tail then
            some (.endBatch worker)
          else none
      | .released _ => some (.dispatch worker generated)
      | _ => none
  | .complete worker index result => some (.complete worker index result)
  | .cleanup order readings => some (.cleanup order readings)
  | .tick elapsed => some (.tick elapsed)

end RingServer

def ringSystem (size : RingSize 32) : TransitionSystem RingServer RingLabel :=
  .ofFunction RingServer.Initial (RingServer.step size)

variable {size : RingSize 32} {loop : RingLoop} {state : RingServer}
  {server fine : Server} {contents after : Worker} {worker : WorkerId}
  {half : WorkerId → Option Cqe} {taken : Option Cqe} {cqe : Cqe}
  {address : SqeAddr} {frame : FrameId} {generated : SessionId}

/-! What the statement at each point does. -/

namespace RingServer

theorem statement_left {observed : BitVec 32}
    (point : (state.loops worker).point = .left observed) :
    state.statement size worker generated = some (state.setLoop worker
      (DispatchPass.start size (state.loops worker).queue ()).ringLoop) := by
  simp only [statement, point]

theorem statement_seen (point : (state.loops worker).point = .test)
    (same : (state.loops worker).head = (state.loops worker).queue.tail) :
    state.statement size worker generated =
      some ((state.setServer (state.server.setWorker worker
        { state.server.workers worker with phase := .looping })).setLoop
          worker { state.loops worker with
            point := .left (state.loops worker).queue.tail }) := by
  simp only [statement, point, DispatchPass.advance, RingLoop.pass]
  rw [if_pos same]
  rfl

theorem statement_more (point : (state.loops worker).point = .test)
    (more : (state.loops worker).head ≠ (state.loops worker).queue.tail) :
    state.statement size worker generated = some (state.setLoop worker
      { state.loops worker with point := .body }) := by
  simp only [statement, point, DispatchPass.advance, RingLoop.pass]
  rw [if_neg more]
  rfl

theorem statement_body (point : (state.loops worker).point = .body)
    (isSlot : (state.loops worker).queue.slots
      (CircularQueue.slotOf size (state.loops worker).head) = cqe)
    (carries : cqe.userData = some address) :
    state.statement size worker generated =
      some ((state.setServer (state.server.storeResult address cqe.res
        cqe.flags)).setLoop worker
          { state.loops worker with point := .stored address }) := by
  simp only [statement, point, DispatchPass.advance, RingLoop.pass, isSlot,
    carries]
  rfl

theorem statement_stored
    (point : (state.loops worker).point = .stored address) :
    state.statement size worker generated = some (state.setLoop worker
      ⟨(state.loops worker).queue.advance, (state.loops worker).head,
        .released ((state.server.sqeData address).bind
          SqeData.coroutine)⟩) := by
  simp only [statement, point, DispatchPass.advance, RingLoop.pass]
  rfl

theorem statement_released
    (point : (state.loops worker).point = .released (some frame)) :
    state.statement size worker generated =
      some ((state.setServer (state.server.resume worker frame
        generated)).setLoop worker
          ⟨(state.loops worker).queue, (state.loops worker).head + 1,
            .test⟩) := by
  simp only [statement, point, DispatchPass.advance, RingLoop.pass]
  rfl

end RingServer

def Worker.resumed (contents : Worker) : SqeAddr → Option FrameId
  | .acceptGuard _ => contents.acceptor
  | .recvAwaiter frame _ => some frame
  | .sendAwaiter frame => some frame

/-- A loop and its queue against the worker's list of completions, and what the
loop is half through: it keeps the completion until it has resumed the
coroutine. -/
inductive RingLoop.Stage (size : RingSize 32) (loop : RingLoop)
    (contents : Worker) : Option Cqe → Prop
  | left {observed : BitVec 32} (point : loop.point = .left observed)
      (pending : contents.ioUring.cq = loop.queue.contents size) :
      Stage size loop contents none
  | test (point : loop.point = .test)
      (running : contents.phase = .dispatching)
      (head : loop.head = loop.queue.head)
      (pending : contents.ioUring.cq = loop.queue.contents size) :
      Stage size loop contents none
  | body (point : loop.point = .body)
      (running : contents.phase = .dispatching)
      (head : loop.head = loop.queue.head)
      (present : loop.queue.contents size ≠ [])
      (pending : contents.ioUring.cq = loop.queue.contents size) :
      Stage size loop contents none
  | stored {address : SqeAddr} {cqe : Cqe}
      (point : loop.point = .stored address)
      (running : contents.phase = .dispatching)
      (head : loop.head = loop.queue.head)
      (present : loop.queue.contents size ≠ [])
      (carries : cqe.userData = some address)
      (pending : contents.ioUring.cq =
        cqe :: (loop.queue.contents size).tail) :
      Stage size loop contents (some cqe)
  | released {address : SqeAddr} {cqe : Cqe} {frame : FrameId}
      (point : loop.point = .released (some frame))
      (running : contents.phase = .dispatching)
      (head : loop.head + 1 = loop.queue.head)
      (carries : cqe.userData = some address)
      (resumed : contents.resumed address = some frame)
      (pending : contents.ioUring.cq = cqe :: loop.queue.contents size) :
      Stage size loop contents (some cqe)

/-- The server with the queues against the server with the lists. -/
structure RingServer.Follows (size : RingSize 32)
    (half : WorkerId → Option Cqe) (state : RingServer)
    (server : Server) : Prop where
  shown : state.server = server.ahead half
  loops : ∀ worker, (state.loops worker).Stage size (server.workers worker)
    (half worker)

theorem Server.Awaits.resumed
    (awaits : server.Awaits worker address frame) :
    (server.workers worker).resumed address = some frame := by
  cases awaits with
  | accept names suspended => exact names
  | recv names suspended => rfl
  | send names suspended => rfl

/-- The kernel's answer depends neither on the completions before it nor on
the one the worker is half through. -/
theorem Worker.complete_ahead (contents : Worker) (index : Nat)
    (result : KernelResult) :
    (contents.ahead worker taken).complete index result =
      (contents.complete index result).map fun posted =>
        { posted.ahead worker taken with
          ioUring := { posted.ioUring with
            cq := posted.ioUring.cq.drop contents.ioUring.cq.length } } := by
  have inflight : (contents.ahead worker taken).ioUring.inflight =
      contents.ioUring.inflight := rfl
  have buffers : (contents.ahead worker taken).buffers =
      contents.buffers := rfl
  unfold complete
  rw [inflight, buffers]
  cases contents.ioUring.inflight[index]? with
  | none => rfl
  | some request =>
      simp only [Option.bind_some]
      cases request.operation with
      | multishotAccept =>
          cases result with
          | accepted res more =>
              simp [Worker.ahead, Worker.emptied, IoUring.emptied]
          | received bytes => rfl
          | ended selects => rfl
          | recvFailed res => rfl
          | sent res => rfl
      | recv =>
          cases contents.buffers.completeRecv request.userData result with
          | none => rfl
          | some answer => simp [Worker.ahead, Worker.emptied, IoUring.emptied]
      | send buf =>
          cases result with
          | accepted res more => rfl
          | received bytes => rfl
          | ended selects => rfl
          | recvFailed res => rfl
          | sent res =>
              by_cases fits : res ≤ buf.size
              · simp [fits, Worker.ahead, Worker.emptied, IoUring.emptied]
              · simp [fits]

namespace RingLoop.Stage

/-- Only while it dispatches, a worker is inside its loop. -/
theorem resting (stage : loop.Stage size contents taken)
    (idle : contents.phase ≠ .dispatching) :
    taken = none ∧ (∃ observed, loop.point = .left observed) ∧
      contents.ioUring.cq = loop.queue.contents size := by
  cases stage with
  | left point pending => exact ⟨rfl, ⟨_, point⟩, pending⟩
  | test point running head pending => exact absurd running idle
  | body point running head present pending => exact absurd running idle
  | stored point running head present carries pending =>
      exact absurd running idle
  | released point running head carries resumed pending =>
      exact absurd running idle

theorem push (stage : loop.Stage size contents taken)
    {queue : CircularQueue Cqe 32}
    (pushed : loop.queue.push size cqe = some queue)
    (phase : after.phase = contents.phase)
    (acceptor : after.acceptor = contents.acceptor)
    (cq : after.ioUring.cq = contents.ioUring.cq ++ [cqe]) :
    Stage size { loop with queue := queue } after taken := by
  have added := CircularQueue.push_contents pushed
  have same : queue.head = loop.queue.head := by
    obtain ⟨-, rfl⟩ := CircularQueue.push_eq_some.mp pushed
    rfl
  cases stage with
  | left point pending =>
      exact .left point (by rw [cq, pending, added])
  | test point running head pending =>
      exact .test point (phase.trans running) (head.trans same.symm)
        (by rw [cq, pending, added])
  | body point running head present pending =>
      exact .body point (phase.trans running) (head.trans same.symm)
        (by simp [added]) (by rw [cq, pending, added])
  | stored point running head present carries pending =>
      refine .stored point (phase.trans running) (head.trans same.symm)
        (by simp [added]) carries ?_
      rw [cq, pending, added, List.tail_append_of_ne_nil present]
      rfl
  | @released address _ frame point running head carries resumed pending =>
      refine .released point (phase.trans running) (head.trans same.symm)
        carries ?_ (by rw [cq, pending, added]; rfl)
      cases address with
      | acceptGuard worker => exact acceptor.trans resumed
      | recvAwaiter inside slot => exact resumed
      | sendAwaiter inside => exact resumed

end RingLoop.Stage

/-- What a step comes to is a step of the server with the lists. -/
def RingServer.Answered (size : RingSize 32) (server : Server)
    (next : RingServer) : Option Label → Prop
  | none => ∃ half, Follows size half next server
  | some action => ∃ half moved, Stepped server action moved ∧
      Follows size half next moved

namespace RingServer.Follows

variable (follows : Follows size half state server)

include follows

theorem phase : (state.server.workers worker).phase =
    (server.workers worker).phase := by
  rw [follows.shown]
  rfl

theorem manager : state.server.manager = server.manager := by
  rw [follows.shown]
  rfl

theorem clock : state.server.clock = server.clock := by
  rw [follows.shown]
  rfl

theorem keep {moved : Server}
    (others : ∀ other, other ≠ worker →
      moved.workers other = server.workers other)
    (stage : (state.loops worker).Stage size (moved.workers worker)
      (half worker))
    (shown : fine = moved.ahead half) :
    Follows size half (state.setServer fine) moved where
  shown := shown
  loops := fun other => by
    by_cases same : other = worker
    · subst same
      exact stage
    · rw [others other same]
      exact follows.loops other

theorem move {moved : Server} {half' : WorkerId → Option Cqe}
    (others : ∀ other, other ≠ worker →
      moved.workers other = server.workers other)
    (elsewhere : ∀ other, other ≠ worker → half' other = half other)
    (stage : loop.Stage size (moved.workers worker) (half' worker))
    (shown : fine = moved.ahead half') :
    Follows size half' ((state.setServer fine).setLoop worker loop)
      moved where
  shown := shown
  loops := fun other => by
    by_cases same : other = worker
    · subst same
      simpa [setLoop] using stage
    · rw [others other same, elsewhere other same]
      simpa [setLoop, setServer, same] using follows.loops other

/-! The steps outside the loop. -/

theorem start {outcome : InitOutcome}
    (unstarted : (state.server.workers worker).phase = .notStarted) :
    ∃ moved, Stepped server (.start worker outcome) moved ∧
      Follows size half
        (state.setServer (state.server.startWorker worker outcome))
        moved := by
  rw [follows.phase] at unstarted
  obtain ⟨quiet, ⟨observed, point⟩, pending⟩ :=
    (follows.loops worker).resting (by simp [unstarted])
  have cq : ((server.startWorker worker outcome).workers
      worker).ioUring.cq = (server.workers worker).ioUring.cq := by
    rw [((Quiet.startWorker outcome).completions worker).1, setWorker_self,
      (initStages_same outcome _).2.1]
  refine ⟨_, .start unstarted, follows.keep
    (Confined.startWorker outcome).others ?_ ?_⟩
  · rw [quiet]
    exact .left point (cq.trans pending)
  · rw [follows.shown, Confined.startWorker_ahead quiet]

theorem submit
    (looping : (state.server.workers worker).phase = .looping) :
    ∃ moved, Stepped server (.submit worker) moved ∧
      Follows size half (state.setServer (state.server.setWorker worker
        (state.server.workers worker).submit)) moved := by
  rw [follows.phase] at looping
  obtain ⟨quiet, ⟨observed, point⟩, pending⟩ :=
    (follows.loops worker).resting (by simp [looping])
  refine ⟨_, .submit looping, follows.keep
    (fun _ => setWorker_other _) ?_ ?_⟩
  · rw [quiet, setWorker_self]
    exact .left point pending
  · rw [follows.shown, setWorker_ahead]
    rfl

theorem submitFails
    (looping : (state.server.workers worker).phase = .looping) :
    ∃ moved, Stepped server (.submitFails worker) moved ∧
      Follows size half (state.setServer (state.server.setWorker worker
        { state.server.workers worker with phase := .dispatching }))
        moved := by
  rw [follows.phase] at looping
  obtain ⟨quiet, ⟨observed, point⟩, pending⟩ :=
    (follows.loops worker).resting (by simp [looping])
  refine ⟨_, .submitFails looping, follows.keep
    (fun _ => setWorker_other _) ?_ ?_⟩
  · rw [quiet, setWorker_self]
    exact .left point pending
  · rw [follows.shown, setWorker_ahead]
    rfl

theorem wake {submitted : Nat}
    (waiting : (state.server.workers worker).phase = .waiting submitted)
    (present : (state.loops worker).queue.head ≠
      (state.loops worker).queue.tail) :
    ∃ moved, Stepped server (.wake worker) moved ∧
      Follows size half (state.setServer (state.server.setWorker worker
        ((state.server.workers worker).wake submitted))) moved := by
  rw [follows.phase] at waiting
  obtain ⟨quiet, ⟨observed, point⟩, pending⟩ :=
    (follows.loops worker).resting (by simp [waiting])
  refine ⟨_, .wake waiting ?_, follows.keep
    (fun _ => setWorker_other _) ?_ ?_⟩
  · rw [pending]
    exact fun empty => present (CircularQueue.contents_eq_nil.mp empty)
  · rw [quiet, setWorker_self]
    exact .left point pending
  · rw [follows.shown, setWorker_ahead]
    rfl

/-- What concerns no worker. -/
theorem aside {manager : SessionManager} {clock : Nat} :
    Follows size half (state.setServer { state.server with
        manager := manager
        clock := clock })
      { server with manager := manager, clock := clock } where
  shown := by
    rw [follows.shown]
    rfl
  loops := follows.loops

theorem complete {next : RingServer} {index : Nat} {result : KernelResult}
    (completed : state.complete size worker index result = some next) :
    ∃ moved, Stepped server (.complete worker index result) moved ∧
      Follows size half next moved := by
  obtain ⟨contents, answered, made⟩ := Option.bind_eq_some_iff.mp completed
  obtain ⟨cqe, present, room⟩ := Option.bind_eq_some_iff.mp made
  obtain ⟨queue, pushed, rfl⟩ := Option.map_eq_some_iff.mp room
  rw [follows.shown] at answered
  obtain ⟨posted, posts, rfl⟩ := Option.map_eq_some_iff.mp
    ((Worker.complete_ahead _ _ _).symm.trans answered)
  obtain ⟨phase, socket, -, cqe', cq⟩ := Worker.complete_same posts
  simp only [cq, List.drop_left, List.head?_cons, Option.some.injEq] at present
  subst present
  refine ⟨_, .complete posts, ?_⟩
  have acceptor : posted.acceptor = (server.workers worker).acceptor := by
    rw [Worker.acceptor, Worker.acceptor, socket]
  have stage := (follows.loops worker).push pushed phase acceptor cq
  rw [← setWorker_self posted] at stage
  refine follows.move (fun _ => setWorker_other posted) (fun _ _ => rfl)
    stage ?_
  rw [setWorker_ahead, ← follows.shown]
  rfl

/-! The statements of the loop. -/

theorem enter (running : (server.workers worker).phase = .dispatching)
    (quiet : half worker = none)
    (pending : (server.workers worker).ioUring.cq =
      (state.loops worker).queue.contents size) :
    Follows size half (state.setLoop worker
      (DispatchPass.start size (state.loops worker).queue ()).ringLoop)
      server := by
  refine follows.move (fun _ _ => rfl) (fun _ _ => rfl) ?_ follows.shown
  rw [quiet]
  exact .test rfl running rfl pending

theorem leave (running : (server.workers worker).phase = .dispatching)
    (quiet : half worker = none)
    (head : (state.loops worker).head = (state.loops worker).queue.head)
    (seen : (state.loops worker).head = (state.loops worker).queue.tail)
    (pending : (server.workers worker).ioUring.cq =
      (state.loops worker).queue.contents size) :
    ∃ moved, Stepped server (.endBatch worker) moved ∧
      Follows size half ((state.setServer (state.server.setWorker worker
        { state.server.workers worker with phase := .looping })).setLoop
          worker { state.loops worker with
            point := .left (state.loops worker).queue.tail }) moved := by
  have empty : (server.workers worker).ioUring.cq = [] := by
    rw [pending]
    exact CircularQueue.contents_eq_nil.mpr (head.symm.trans seen)
  refine ⟨_, .endBatch running empty, follows.move
    (fun _ => setWorker_other _) (fun _ _ => rfl) ?_ ?_⟩
  · rw [quiet, setWorker_self]
    exact .left rfl pending
  · rw [follows.shown, setWorker_ahead]
    rfl

theorem look (running : (server.workers worker).phase = .dispatching)
    (quiet : half worker = none)
    (head : (state.loops worker).head = (state.loops worker).queue.head)
    (more : (state.loops worker).head ≠ (state.loops worker).queue.tail)
    (pending : (server.workers worker).ioUring.cq =
      (state.loops worker).queue.contents size) :
    Follows size half (state.setLoop worker
      { state.loops worker with point := .body }) server := by
  refine follows.move (fun _ _ => rfl) (fun _ _ => rfl) ?_ follows.shown
  rw [quiet]
  refine .body rfl running head (fun empty => more ?_) pending
  exact head.trans (CircularQueue.contents_eq_nil.mp empty)

theorem store (matched : RingsMatch server)
    (running : (server.workers worker).phase = .dispatching)
    (quiet : half worker = none)
    (head : (state.loops worker).head = (state.loops worker).queue.head)
    (present : (state.loops worker).queue.contents size ≠ [])
    (pending : (server.workers worker).ioUring.cq =
      (state.loops worker).queue.contents size)
    (isSlot : (state.loops worker).queue.slots
      (CircularQueue.slotOf size (state.loops worker).head) = cqe) :
    ∃ address, cqe.userData = some address ∧
      Follows size (Function.update half worker (some cqe))
        ((state.setServer (state.server.storeResult address cqe.res
          cqe.flags)).setLoop worker
            { state.loops worker with point := .stored address })
        server := by
  have first := @CircularQueue.contents_advance _ _ size
    (state.loops worker).queue
    fun same => present (CircularQueue.contents_eq_nil.mpr same)
  rw [← head, isSlot] at first
  rw [first] at pending
  obtain ⟨address, frame, delivery⟩ := matched.deliver
    (started_of_phase running Phase.noConfusion) pending
  refine ⟨address, delivery.carries, follows.move (fun _ _ => rfl)
    (fun _ different => Function.update_of_ne different _ _) ?_ ?_⟩
  · rw [Function.update_self]
    exact .stored rfl running head present delivery.carries
      (by rw [pending, first]; rfl)
  · rw [follows.shown,
      ahead_storeResult delivery.awaits delivery.carries quiet]

/-- `io_uring_cqe_seen`, and the coroutine is read. -/
theorem release (matched : RingsMatch server)
    (running : (server.workers worker).phase = .dispatching)
    (taken : half worker = some cqe)
    (head : (state.loops worker).head = (state.loops worker).queue.head)
    (present : (state.loops worker).queue.contents size ≠ [])
    (carries : cqe.userData = some address)
    (pending : (server.workers worker).ioUring.cq =
      cqe :: ((state.loops worker).queue.contents size).tail) :
    Follows size half (state.setLoop worker
      ⟨(state.loops worker).queue.advance, (state.loops worker).head,
        .released ((state.server.sqeData address).bind
          SqeData.coroutine)⟩) server := by
  have advanced : ((state.loops worker).queue.contents size).tail =
      (state.loops worker).queue.advance.contents size :=
    @DispatchPass.contents_tail _ size ((state.loops worker).pass ()) present
  rw [advanced] at pending
  obtain ⟨address', frame, delivery⟩ := matched.deliver
    (started_of_phase running Phase.noConfusion) pending
  cases delivery.carries.symm.trans carries
  have named : (state.server.sqeData address).bind SqeData.coroutine =
      some frame := by
    obtain ⟨data, stored, names⟩ := delivery.awaits.sqeData_coroutine
    rw [follows.shown, sqeData_ahead, stored]
    exact names
  rw [named]
  refine follows.move (fun _ _ => rfl) (fun _ _ => rfl) ?_ follows.shown
  rw [taken]
  exact .released rfl running (congrArg (· + 1) head) carries
    delivery.awaits.resumed pending

theorem resume (matched : RingsMatch server)
    (running : (server.workers worker).phase = .dispatching)
    (taken : half worker = some cqe)
    (head : (state.loops worker).head + 1 = (state.loops worker).queue.head)
    (carries : cqe.userData = some address)
    (resumed : (server.workers worker).resumed address = some frame)
    (pending : (server.workers worker).ioUring.cq =
      cqe :: (state.loops worker).queue.contents size)
    (generated : SessionId) :
    ∃ moved, Stepped server (.dispatch worker generated) moved ∧
      Follows size (Function.update half worker none)
        ((state.setServer (state.server.resume worker frame
          generated)).setLoop worker
            ⟨(state.loops worker).queue, (state.loops worker).head + 1,
              .test⟩) moved := by
  have started := started_of_phase running Phase.noConfusion
  obtain ⟨address', frame', delivery⟩ := matched.deliver started pending
  cases delivery.carries.symm.trans carries
  cases delivery.awaits.resumed.symm.trans resumed
  refine ⟨_, .dispatch running pending, follows.move
    (Confined.dispatch matched started pending generated).others
    (fun _ different => Function.update_of_ne different _ _) ?_ ?_⟩
  · rw [Function.update_self]
    refine .test rfl ?_ head ?_
    · exact (matched.dispatch_phase started pending generated
        worker).trans running
    · rw [(matched.dispatch_completions started pending generated worker).1,
        setWorker_self]
      rfl
  · rw [follows.shown, delivery.resume_ahead taken]

theorem statement {next : RingServer} (matched : RingsMatch server)
    (running : (state.server.workers worker).phase = .dispatching)
    (stated : state.statement size worker generated = some next) :
    Answered size server next
      (state.seen (.statement worker generated)) := by
  rw [follows.phase] at running
  have stage := follows.loops worker
  generalize isHalf : half worker = taken at stage
  cases stage with
  | left point pending =>
      rw [statement_left point] at stated
      cases stated
      simp only [seen, point]
      exact ⟨half, follows.enter running isHalf pending⟩
  | test point _ head pending =>
      by_cases same : (state.loops worker).head =
          (state.loops worker).queue.tail
      · rw [statement_seen point same] at stated
        cases stated
        simp only [seen, point]
        rw [if_pos same]
        exact ⟨half, follows.leave running isHalf head same pending⟩
      · rw [statement_more point same] at stated
        cases stated
        simp only [seen, point]
        rw [if_neg same]
        exact ⟨half, follows.look running isHalf head same pending⟩
  | body point _ head present pending =>
      obtain ⟨address, carries, still⟩ := follows.store matched running isHalf
        head present pending rfl
      rw [statement_body point rfl carries] at stated
      cases stated
      simp only [seen, point]
      exact ⟨_, still⟩
  | stored point _ head present carries pending =>
      rw [statement_stored point] at stated
      cases stated
      simp only [seen, point]
      exact ⟨half, follows.release matched running isHalf head present carries
        pending⟩
  | released point _ head carries resumed pending =>
      obtain ⟨moved, stepped, still⟩ := follows.resume matched running isHalf
        head carries resumed pending generated
      rw [statement_released point] at stated
      cases stated
      simp only [seen, point]
      exact ⟨_, moved, stepped, still⟩

theorem step {next : RingServer} {label : RingLabel}
    (matched : RingsMatch server) (healthy : state.server.faulted = false)
    (performed : state.perform size label = some next) :
    Answered size server next (state.seen label) := by
  have stepped : ∀ {label fine}, state.server.perform label = some fine →
      Stepped state.server label fine := by
    intro label fine made
    refine (step_cases ?_).2
    rw [Server.step, healthy]
    exact made
  cases label with
  | start worker outcome =>
      obtain ⟨fine, made, rfl⟩ := Option.map_eq_some_iff.mp performed
      cases stepped made with
      | start unstarted => exact ⟨half, follows.start unstarted⟩
  | submit worker =>
      obtain ⟨fine, made, rfl⟩ := Option.map_eq_some_iff.mp performed
      cases stepped made with
      | submit looping => exact ⟨half, follows.submit looping⟩
  | submitFails worker =>
      obtain ⟨fine, made, rfl⟩ := Option.map_eq_some_iff.mp performed
      cases stepped made with
      | submitFails looping => exact ⟨half, follows.submitFails looping⟩
  | wake worker =>
      simp only [perform] at performed
      split at performed
      next submitted waiting =>
        obtain ⟨present, same⟩ := Option.ite_none_left_eq_some.mp performed
        cases same
        exact ⟨half, follows.wake waiting present⟩
      next other => cases performed
  | statement worker generated =>
      obtain ⟨running, stated⟩ := Option.ite_none_right_eq_some.mp performed
      exact follows.statement matched running stated
  | complete worker index result =>
      exact ⟨half, follows.complete performed⟩
  | cleanup order readings =>
      obtain ⟨fine, made, rfl⟩ := Option.map_eq_some_iff.mp performed
      cases stepped made with
      | cleanup swept =>
          rw [follows.manager, follows.clock] at swept ⊢
          exact ⟨half, _, .cleanup swept, follows.aside⟩
  | tick elapsed =>
      cases performed
      rw [follows.manager, follows.clock]
      exact ⟨half, _, .tick, follows.aside⟩

end RingServer.Follows

/-- A server that can be reached, and what the loops are half through. -/
def RingServer.Related (size : RingSize 32) (state : RingServer)
    (server : Server) : Prop :=
  serverSystem.Reachable server ∧ ∃ half, Follows size half state server

theorem RingServer.Follows.healthy (follows : Follows size half state server)
    (reachable : serverSystem.Reachable server) :
    state.server.faulted = false := by
  rw [follows.shown]
  exact (sessionsKept_of_reachable reachable).healthy

theorem RingServer.Follows.answer (follows : Follows size half state server)
    (reachable : serverSystem.Reachable server) {next : RingServer}
    {label : RingLabel}
    (step : (ringSystem size).step state label next) :
    RingServer.Answered size server next (state.seen label) := by
  have healthy := follows.healthy reachable
  have performed : state.step size label = some next := step
  rw [RingServer.step, healthy] at performed
  exact follows.step (ringsMatch_of_reachable reachable) healthy performed

theorem RingServer.Initial.follows (start : state.Initial) :
    state.Follows size (fun _ => none) {} where
  shown := by
    rw [start.1, Server.ahead]
    congr
  loops := fun worker => by
    obtain ⟨observed, point, empty⟩ := start.2 worker
    exact .left point (CircularQueue.contents_eq_nil.mpr empty).symm

theorem ringServer_simulated : Simulation (ringSystem size) serverSystem
    RingServer.seen (RingServer.Related size) where
  initial := fun state start =>
    ⟨{}, rfl, .initial rfl, fun _ => none, RingServer.Initial.follows start⟩
  hidden := fun state label next server _ related step unseen => by
    obtain ⟨reachable, half, follows⟩ := related
    have answered := follows.answer reachable step
    rw [unseen] at answered
    exact ⟨reachable, answered⟩
  visible := fun state label next server action _ related step seen => by
    obtain ⟨reachable, half, follows⟩ := related
    have answered := follows.answer reachable step
    rw [seen] at answered
    obtain ⟨half', moved, stepped, follows'⟩ := answered
    have step' := stepped.step (sessionsKept_of_reachable reachable).healthy
    exact ⟨moved, step', reachable.step step', half', follows'⟩

open TransitionSystem

/-- Whatever the kernel and the other workers do between the statements of a
loop: it is as if each completion were dealt with at once, when its coroutine is
resumed. -/
theorem event_loops_atomic {first last : RingServer}
    {history : List (RingServer × RingLabel)}
    (start : (ringSystem size).initial first)
    (run : (ringSystem size).Execution first history last) :
    ∃ history' server half, serverSystem.Execution {} history' server ∧
      trace history' = observed RingServer.seen history ∧
      last.Follows size half server ∧ last.server.faulted = false := by
  obtain ⟨first', history', server, initial, run', same, reachable, half,
    follows⟩ := ringServer_simulated.run start run
  cases initial
  exact ⟨history', server, half, run', same, follows,
    follows.healthy reachable⟩

/-- All queues are empty, just before their counters wrap around. -/
def beforeWrap : RingServer where
  server := {}
  loops := fun _ => ⟨⟨fun _ => ⟨none, 0, 0⟩, -1, -1⟩, -1, .left (-1)⟩

/-- A second client connects while the loop is half through the first one. -/
def twoClients : List RingLabel :=
  [.start 0 ⟨0, none, 0, some 3, 0⟩, .submit 0,
    .complete 0 0 (.accepted 7 true), .wake 0, .statement 0 "",
    .statement 0 "", .statement 0 "", .complete 0 0 (.accepted 8 true),
    .statement 0 "", .tick 1, .statement 0 "A", .statement 0 "",
    .statement 0 ""]

theorem two_clients_atomic :
    ∃ history last history' server half,
      (ringSystem DispatchPass.fourSlots).Execution beforeWrap history last ∧
      serverSystem.Execution {} history' server ∧
      trace history' =
        [.start 0 ⟨0, none, 0, some 3, 0⟩, .submit 0,
          .complete 0 0 (.accepted 7 true), .wake 0,
          .complete 0 0 (.accepted 8 true), .tick 1, .dispatch 0 "A"] ∧
      last.Follows DispatchPass.fourSlots half server ∧
      (last.loops 0).point = .stored (.acceptGuard 0) := by
  have run : ∃ last, runLabels (RingServer.step DispatchPass.fourSlots)
      beforeWrap twoClients = some last ∧
      (last.loops 0).point = .stored (.acceptGuard 0) :=
    ⟨_, rfl, rfl⟩
  obtain ⟨last, run, half⟩ := run
  have execution : (ringSystem DispatchPass.fourSlots).Execution beforeWrap _
      last := .runLabels run
  have start : (ringSystem DispatchPass.fourSlots).initial beforeWrap :=
    ⟨rfl, fun _ => ⟨_, rfl, rfl⟩⟩
  obtain ⟨history', server, half', run', same, follows, -⟩ :=
    event_loops_atomic start execution
  exact ⟨_, last, history', server, half', execution, run', same, follows,
    half⟩

end CoUring
